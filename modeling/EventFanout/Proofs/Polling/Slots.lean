/-
EventFanout.Proofs.Polling.Slots — the number of polling filters is bounded.

A creation takes a slot before it waits for its subscription, and the slot is given back in one of
several places: where the creation comes to nothing, at once or later, and where the filter is
removed by its client, by the sweeper, or by its own task (`World.Releases`). A slot given back
twice would make room that is not there, and, at zero, lift the limit for good. It does not happen:
whoever gives a slot back has just taken something off the books that the slot was taken for.

Main statement: `slots_accounted`, over any moves of a system with polling filters, with any
number of creations under way.
-/
import EventFanout.Proofs.Polling.Managed

namespace EventFanout.World

variable {w : World} {request : FilterRequest}

/-- Where a move gives a slot back, with the world as it is just before. -/
inductive Releases : World → Move → World → Prop
  /-- The criteria are refused, or the subscription is. -/
  | refused {w w' : World} {request : FilterRequest} {e : FilterError} :
      w.polling.live = true → w.polling.slots < w.hub.config.maxFilters →
      { w with polling.slots := w.polling.slots + 1 }.subscribe request.kind request.criteria =
        (.error e, w') →
      Releases w (.create request) w'
  /-- The subscription is not installed. -/
  | failed {w w' : World} {id : SubscriptionId} {c : Creation} {e : SubscriptionError} :
      (w.polling.creations.find? fun c => c.id = id) = some c →
      w.askInstalled c.id = some (.failed e, w') →
      Releases w (.finish id) (w'.endCreation c.id)
  | uninstalled {w : World} {id : SubscriptionId} : w.polling.filters.contains id = true →
      Releases w (.uninstall id) { w with polling.filters := w.polling.filters.erase id }
  /-- The sweeper removes one filter after the other. -/
  | swept {w w' : World} {done rest : List SubscriptionId} {id : SubscriptionId} :
      w.polling.live = true → w.expired = done ++ id :: rest → w' = done.foldl removeFilter w →
      Releases w .sweep { w' with polling.filters := w'.polling.filters.erase id }
  | ticked {w v : World} : w.polling.sweepDue ≤ w.now →
      Releases { w with polling.sweepDue := w.nextSweep } .sweep v → Releases w .tick v
  /-- The subscription has ended while its filter is there. -/
  | expired {w w' : World} {id : SubscriptionId} {e : SubscriptionError} :
      w.drain? id = some ⟨id, false⟩ → w.receive id = some (.failed e, w') →
      w'.polling.filters.contains id = true →
      Releases w (.drain id) { w' with polling.filters := w'.polling.filters.erase id }

/-- The slots are accounted for, and creations go by what is there. -/
structure Accounted (w : World) : Prop where
  /-- A slot is taken for every filter and every creation under way. -/
  counted : w.polling.slots.toNat = w.polling.filters.size + w.polling.creations.length
  bounded : w.polling.slots ≤ w.hub.config.maxFilters
  /-- A creation finds no slot just when filters and creations under way have reached the limit. -/
  full : ∀ request n, (w.beginFilter request).1 = .error (.tooManyFilters n) ↔
    n = w.hub.config.maxFilters.toNat ∧
      w.polling.filters.size + w.polling.creations.length = w.hub.config.maxFilters.toNat
  /-- A creation that fails at once leaves the books as they were. -/
  undone : ∀ request e, (w.beginFilter request).1 = .error e →
    (w.beginFilter request).2.polling = w.polling
  /-- One that fails later is not told of the limit, gives its slot back, and changes no filter. -/
  failed : ∀ c ∈ w.polling.creations, ∀ e, (w.finishFilter c).1 = some (.error e) →
    (∀ n, e ≠ .tooManyFilters n) ∧ (w.finishFilter c).2.polling = w.polling.failed c.id ∧
      (w.finishFilter c).2.polling.slots.toNat + 1 = w.polling.slots.toNat

/-! ## Creations -/

theorem Managed.full_iff (hw : w.Managed) (hlive : w.polling.live = true) :
    w.hub.config.maxFilters ≤ w.polling.slots ↔
      w.polling.filters.size + w.polling.creations.length = w.hub.config.maxFilters.toNat := by
  have hcount := hw.tidy.counted hlive
  have hle := UInt64.le_iff_toNat_le.mp (hw.tidy.bounded hlive)
  rw [UInt64.le_iff_toNat_le]
  omega

/-- The account of the slots is a part of the invariant; only fullness has to be read off it. -/
theorem Managed.accounted (hw : w.Managed) (hlive : w.polling.live = true) : w.Accounted where
  counted := hw.tidy.counted hlive
  bounded := hw.tidy.bounded hlive
  full := by
    intro request n
    rw [← hw.full_iff hlive]
    rcases beginFilter_cases w request with ⟨hfull, h⟩ | ⟨hfree, e, w', h, he, -⟩ |
      ⟨hfree, s, w₁, -, h⟩ <;> rw [h]
    · simp only [Except.error.injEq, FilterError.tooManyFilters.injEq, hfull, and_true]
      exact eq_comm
    · exact iff_of_false (fun h => he n (Except.error.inj h))
        fun h => UInt64.not_le.mpr hfree h.2
    · exact iff_of_false nofun fun h => UInt64.not_le.mpr hfree h.2
  undone := by
    intro request e he
    rcases beginFilter_cases w request with ⟨-, h⟩ | ⟨-, e', w', h, -, hbooks, -⟩ |
      ⟨-, s, w₁, -, h⟩ <;> rw [h] at he ⊢
    · exact hbooks
    · cases he
  failed := by
    intro c hc e he
    rcases finishFilter_cases w c with ⟨-, h⟩ | ⟨cause, -, h⟩ | h
    · rw [h] at he
      cases he
    · have hbooks : (w.finishFilter c).2.polling = w.polling.failed c.id := by
        have hask := act_polling w (a := .askInstalled c.id) rfl
        rw [h]
        show (dropReceiver { w.act (.askInstalled c.id) with
          polling := (w.act (.askInstalled c.id)).polling.failed c.id } c.id).polling = _
        rw [dropReceiver_write, hask]
      rw [h] at he
      cases he
      refine ⟨fun n => nofun, hbooks, ?_⟩
      rw [hbooks]
      exact toNat_sub_one (hw.tidy.slots_pos_of_creation hc)
    · rw [h] at he
      cases he

/-! ## Giving slots back -/

theorem mem_filters_foldl {done : List SubscriptionId} {id : SubscriptionId} :
    id ∈ (done.foldl removeFilter w).polling.filters.keys ↔
      id ∈ w.polling.filters.keys ∧ id ∉ done := by
  induction done generalizing w with
  | nil => simp
  | cons id' rest ih =>
    rw [List.foldl_cons, ih, mem_filters_removeFilter, List.mem_cons, not_or, and_assoc]

/-- Where a slot is given back, one is taken: the counter is never at zero. -/
theorem Releases.slots_ne_zero {m : Move} {v : World} (h : Releases w m v) {limit : UInt64}
    (ht : w.polling.Tidy limit) : v.polling.slots ≠ 0 := by
  have hpos : ∀ {a : UInt64}, 0 < a.toNat → a ≠ 0 := by
    rintro a ha rfl
    cases ha
  induction h with
  | @refused w w' request e hlive hfree he =>
    have hbooks : w'.polling = { w.polling with slots := w.polling.slots + 1 } := by
      have hwrite := subscribe_write w { w.polling with slots := w.polling.slots + 1 }
        request.kind request.criteria
      exact congrArg (·.2.polling) (he.symm.trans hwrite)
    rw [hbooks]
    refine hpos ?_
    rw [toNat_add_one hfree]
    exact Nat.succ_pos _
  | @failed w w' id c e hfind hask =>
    obtain ⟨rfl, -⟩ := askInstalled_some hask
    show (w.act (.askInstalled c.id)).polling.slots ≠ 0
    rw [act_polling _ rfl]
    exact hpos (ht.slots_pos_of_creation (List.mem_of_find?_eq_some hfind))
  | uninstalled hf => exact hpos (ht.slots_pos_of_filter ((Table.contains_iff_mem_keys _ _).mp hf))
  | @swept w w' done rest id hlive hids he =>
    subst he
    obtain ⟨hn, hmem⟩ := expired_once ht.filed
    rw [hids] at hn hmem
    obtain ⟨hdone, -, hnot⟩ := List.nodup_append.mp hn
    have hdeeds := foldl_removeFilter hdone fun id hid => hmem id (List.mem_append_left _ hid)
    have hfiled : id ∈ (done.foldl removeFilter w).polling.filters.keys :=
      mem_filters_foldl.mpr ⟨hmem id (List.mem_append_right _ List.mem_cons_self),
        fun hid => hnot id hid id List.mem_cons_self rfl⟩
    exact hpos ((hdeeds.tidy ht).slots_pos_of_filter hfiled)
  | ticked _ _ ih => exact ih ⟨ht.once, ht.filed, ht.drained, ht.shut, ht.counted, ht.bounded⟩
  | @expired w w' id e hd hr hf =>
    obtain rfl := receive_some hr
    show (w.act (.receive id)).polling.slots ≠ 0
    rw [act_polling _ rfl] at hf ⊢
    exact hpos (ht.slots_pos_of_filter ((Table.contains_iff_mem_keys _ _).mp hf))

/-- There are never more filters than the limit allows, also when the registry is given up. -/
theorem Managed.size_le (hw : w.Managed) :
    w.polling.filters.size ≤ w.hub.config.maxFilters.toNat := by
  cases hlive : w.polling.live with
  | true =>
    have hcount := hw.tidy.counted hlive
    have hle := UInt64.le_iff_toNat_le.mp (hw.tidy.bounded hlive)
    omega
  | false =>
    rw [← Table.length_keys, (hw.tidy.shut hlive).2]
    exact Nat.zero_le _

/--
**The number of polling filters is bounded.** Let a registry be opened in any state of any run of a
new hub, and let anything happen then. As long as the registry is held, a slot is taken for every
filter and every creation under way, and no more than the limit; a creation is refused for the number
of filters just when these have reached it; and a creation that fails, at once or later, gives its
slot back and leaves the filters as they were. A slot is never given back where none is taken, and
there are never more filters than the limit.
-/
theorem slots_accounted {bus : Bus} {config : Config} {governor : Governor} (before : List Action)
    (moves : List Move) :
    let w := (((start bus config governor).after before).openPolling).through moves
    (w.polling.live = true → w.Accounted) ∧
      (∀ m v, w.Releases m v → v.polling.slots ≠ 0) ∧
      w.hub.config = config ∧ w.polling.filters.size ≤ config.maxFilters.toNat := by
  intro w
  have hw : w.Managed := through_managed bus config governor before moves
  have hconfig : w.hub.config = config := by
    rw [(openPolling_managed bus config governor before).through_config moves]
    exact after_config _ before
  exact ⟨hw.accounted, fun m v h => h.slots_ne_zero hw.tidy, hconfig, hconfig ▸ hw.size_le⟩

/-- Beside another client, two of three creations find a slot. One is entered as a filter, for the
other the bus has been closed; when the task of the filter ends and its client removes it as well,
one slot is given back. -/
theorem slots_accounted_two :
    let before : List Action := [.makeWithin .newHeads none, .submit (.issued 0)]
    let w := ((start (Bus.sized 4) { maxFilters := 2 } .absent).after before).openPolling
    let moves : List Move := [.create .blocks, .create .pendingTransactions, .create .blocks,
      .act (.turn .install), .act (.turn .install), .act .busClose, .act (.turn .install),
      .finish (.issued 1), .finish (.issued 2)]
    let ended : List Move := [.act (.turn (.read headerTopic)), .drain (.issued 1),
      .uninstall (.issued 1)]
    (w.through moves).polling.live = true ∧ (w.through moves).Accounted ∧
      (w.through (moves ++ ended)).Accounted ∧
      [moves.take 2, moves.take 3, moves, moves ++ ended].map
        (fun moves => (w.through moves).polling.slots) = [2, 2, 1, 0] := by
  intro before w moves ended
  have hslots := @slots_accounted (Bus.sized 4) { maxFilters := 2 } .absent before
  exact ⟨by decide, (hslots moves).1 (by decide), (hslots (moves ++ ended)).1 (by decide),
    by decide⟩

end EventFanout.World
