/-
EventFanout.Proofs.Polling.Filters — what becomes of a filter.

A move leaves a filter as it is, or its task adds a notification to its changes, or a poll takes
these out, or it is entered, or it leaves (`World.Fate`); which of these it is tells what the poll
answered and what the task received in the move. A sweep takes out those that nobody has polled for
the timeout, all others stay exactly as they are, and everything else that it does is accounted for
(`sweep_eq`).

Main statement: `move_fate`, for every move of a managed system.
-/
import EventFanout.Proofs.Polling.Correspondence
import EventFanout.Proofs.Polling.Settling

namespace EventFanout

def Filter.polled (f : Filter) (now : Nat) : Filter :=
  { f with lastPoll := now, changes := .empty f.request.kind }

namespace World

variable {w w' : World} {id : SubscriptionId}

/-! ## Sweeping -/

def timedOut (w : World) (f : Filter) : Bool := w.filterTimeout ≤ w.now - f.lastPoll

theorem removeFilter_removes (w : World) (id : SubscriptionId) :
    w.removeFilter id = { w with
      hub.removals := w.hub.removals ++ if w.hub.running then [id] else []
      polling := w.polling.removed id } := by
  rw [removeFilter_eq]
  simp only [act, requestRemoval]
  by_cases hr : w.hub.running = true
  · simp only [if_pos hr]
  · simp only [if_neg hr, List.append_nil]

/-- Removing filters one after the other takes each out of the registry, gives its slot back, tells
its task to stop and asks for the removal of its subscription. -/
theorem foldl_removeFilter_eq (ids : List SubscriptionId) (w : World) :
    ids.foldl removeFilter w = { w with
      hub.removals := w.hub.removals ++ if w.hub.running then ids else []
      polling.filters := ⟨w.polling.filters.entries.filter fun e => e.1 ∉ ids⟩
      polling.slots := w.polling.slots - .ofNat ids.length
      polling.drains := w.polling.drains.map fun d => if d.id ∈ ids then d.cancel else d } := by
  induction ids generalizing w with
  | nil => simp
  | cons id rest ih =>
    have hslots : w.polling.slots - 1 - .ofNat rest.length =
        w.polling.slots - .ofNat (rest.length + 1) := by
      rw [UInt64.ofNat_add]
      grind
    have hfilters : (w.polling.filters.entries.filter fun e => e.1 ≠ id).filter
        (fun e => e.1 ∉ rest) = w.polling.filters.entries.filter fun e => e.1 ∉ id :: rest := by
      rw [List.filter_filter]
      refine List.filter_congr fun e _ => ?_
      by_cases he : e.1 = id <;> simp [he]
    have hdrains : (w.polling.drains.map fun d => if d.id = id then d.cancel else d).map
        (fun d => if d.id ∈ rest then d.cancel else d) =
          w.polling.drains.map fun d => if d.id ∈ id :: rest then d.cancel else d := by
      rw [List.map_map]
      refine List.map_congr_left fun d _ => ?_
      by_cases hd : d.id = id <;> by_cases hrest : d.id ∈ rest <;>
        simp [hd, hrest, Drain.cancel]
    rw [List.foldl_cons, ih, removeFilter_removes]
    simp only [Polling.removed, Table.erase, hslots, hfilters, hdrains, List.length_cons,
      List.append_assoc]
    split <;> rfl

theorem mem_expired (hn : w.polling.filters.keys.Nodup) :
    id ∈ w.expired ↔ ∃ f, w.polling.filters.get? id = some f ∧ w.timedOut f = true := by
  simp only [expired, List.mem_map, List.mem_filter, timedOut]
  constructor
  · rintro ⟨⟨id', f⟩, ⟨hm, ht⟩, rfl⟩
    exact ⟨f, Table.get?_of_mem hn hm, ht⟩
  · rintro ⟨f, hf, ht⟩
    exact ⟨(id, f), ⟨Table.mem_entries_of_get? hf, ht⟩, rfl⟩

/-- All that a sweep does. -/
theorem sweep_eq (hn : w.polling.filters.keys.Nodup) :
    w.sweep = (w.expired.length, { w with
      hub.removals := w.hub.removals ++ if w.hub.running then w.expired else []
      hub.metrics.filtersExpired := w.hub.metrics.filtersExpired + .ofNat w.expired.length
      polling.filters := ⟨w.polling.filters.entries.filter fun e => !w.timedOut e.2⟩
      polling.slots := w.polling.slots - .ofNat w.expired.length
      polling.drains :=
        w.polling.drains.map fun d => if d.id ∈ w.expired then d.cancel else d }) := by
  have hleft : (w.polling.filters.entries.filter fun e => e.1 ∉ w.expired) =
      w.polling.filters.entries.filter fun e => !w.timedOut e.2 := by
    refine List.filter_congr fun e he => ?_
    have hget := Table.get?_of_mem hn he
    have hiff : e.1 ∈ w.expired ↔ w.timedOut e.2 = true := by
      rw [mem_expired hn]
      constructor
      · rintro ⟨f, hf, ht⟩
        rw [hget, Option.some.injEq] at hf
        rwa [hf]
      · exact fun ht => ⟨e.2, hget, ht⟩
    cases ht : w.timedOut e.2 <;> simp [hiff, ht]
  rw [sweep, foldl_removeFilter_eq, hleft]
  rfl

/-- A sweep takes those out that have expired, and leaves all others as they are. -/
theorem get?_sweep (hn : w.polling.filters.keys.Nodup) :
    w.sweep.2.polling.filters.get? id =
      if id ∈ w.expired then none else w.polling.filters.get? id := by
  have hfilters : w.sweep.2.polling.filters =
      ⟨w.polling.filters.entries.filter fun e => !w.timedOut e.2⟩ := by
    rw [sweep_eq hn]
  have hkeys : w.sweep.2.polling.filters.keys.Nodup := by
    rw [hfilters]
    exact hn.sublist (List.filter_sublist.map _)
  cases hf : w.polling.filters.get? id with
  | none =>
    rw [ite_self, Table.get?_eq_none_iff, hfilters]
    intro hm
    exact (Table.get?_eq_none_iff _ _).mp hf ((List.filter_sublist.map _).subset hm)
  | some f =>
    have hm := Table.mem_entries_of_get? hf
    split
    · rename_i hx
      obtain ⟨f', hf', ht⟩ := (mem_expired hn).mp hx
      rw [hf, Option.some.injEq] at hf'
      subst hf'
      rw [Table.get?_eq_none_iff]
      intro hkey
      obtain ⟨⟨id', f'⟩, hm', rfl⟩ := List.mem_map.mp hkey
      rw [hfilters, List.mem_filter] at hm'
      have hsame := Table.get?_of_mem hn hm'.1
      rw [hf, Option.some.injEq] at hsame
      simp [← hsame, ht] at hm'
    · rename_i hx
      have hkeep : w.timedOut f = false := by
        rw [Bool.eq_false_iff]
        exact fun ht => hx ((mem_expired hn).mpr ⟨f, hf, ht⟩)
      refine Table.get?_of_mem hkeys ?_
      rw [hfilters, List.mem_filter]
      exact ⟨hm, by simp [hkeep]⟩

theorem get?_runSweeper (hn : w.polling.filters.keys.Nodup) :
    w.runSweeper.polling.filters.get? id =
      if (w.polling.live && w.polling.sweepDue ≤ w.now) && id ∈ w.expired then none
      else w.polling.filters.get? id := by
  unfold runSweeper
  split
  · rename_i hdue
    rw [hdue, Bool.true_and]
    have h : { w with polling.sweepDue := w.nextSweep }.sweep.2.polling.filters.get? id =
        if id ∈ w.expired then none else w.polling.filters.get? id := get?_sweep hn
    simpa only [decide_eq_true_eq] using h
  · rename_i hdue
    simp [hdue]

/-! ## What a filter yields in a move -/

def polled (id : SubscriptionId) (w : World) : Move → Option Changes
  | .poll id' => if id' = id then (w.poll id).1.toOption else none
  | _ => none

def drained (id : SubscriptionId) (w : World) : Move → Option Notification
  | .drain id' =>
    if id' = id ∧ ⟨id, false⟩ ∈ w.polling.drains then
      match w.receive id with
      | some (.notification n, _) => some n
      | _ => none
    else none
  | _ => none

/-- What becomes of a filter in a move, from what is in the registry under its identity before and
after. -/
inductive Fate (w : World) (id : SubscriptionId) (m : Move) : Option Filter → Option Filter → Prop
  | kept {o : Option Filter} : polled id w m = none → drained id w m = none → Fate w id m o o
  /-- Its task adds a notification to its changes. -/
  | collected {f : Filter} {n : Notification} : polled id w m = none → drained id w m = some n →
      Fate w id m (some f) (some (f.collect n))
  /-- A poll takes its changes out. -/
  | polled {f : Filter} : m = .poll id → polled id w m = some f.changes → drained id w m = none →
      Fate w id m (some f) (some (f.polled w.now))
  | entered {c : Creation} : m = .finish id → c ∈ w.polling.creations → c.id = id →
      Fate w id m none (some ⟨c.request, w.now, w.now, .empty c.request.kind⟩)
  /-- It leaves; a sweep takes it out only if it has expired. -/
  | left {f : Filter} : (m = .sweep ∨ m = .tick → id ∈ w.expired) → polled id w m = none →
      drained id w m = none → Fate w id m (some f) none

namespace Fate

variable {m : Move}

/-- A move that is no poll, nor a step of a task, and does not touch a filter. -/
theorem of_same {o o' : Option Filter} (h : o' = o) (hp : World.polled id w m = none)
    (hd : drained id w m = none) : w.Fate id m o o' := h ▸ .kept hp hd

/-- A move that takes a filter out, if it is there. -/
theorem of_none {o : Option Filter} (hx : m = .sweep ∨ m = .tick → id ∈ w.expired)
    (hp : World.polled id w m = none) (hd : drained id w m = none) : w.Fate id m o none := by
  cases o with
  | none => exact .kept hp hd
  | some f => exact .left hx hp hd

end Fate

/-- The task of a filter that is told to go on has a filter. -/
theorem Managed.filter_of_drain (hw : w.Managed) (hd : ⟨id, false⟩ ∈ w.polling.drains) :
    ∃ f, w.polling.filters.get? id = some f := by
  have hkey := (hw.tidy.drained id).mpr hd
  rw [← Table.contains_iff_mem_keys, Table.contains, Option.isSome_iff_exists] at hkey
  exact hkey

/-- A task that takes no step receives nothing. -/
theorem drained_of_none (hw : w.Managed) (h : w.drainStep id = none) :
    drained id w (.drain id) = none := by
  simp only [drained, true_and]
  split
  · rename_i hd
    split
    · rename_i n w' hr
      simp [drainStep, drain?_of_mem hw.tidy hd, hr, bind, Option.bind] at h
    · rfl
  · rfl

theorem finish_fate (hw : w.Managed) (id id' : SubscriptionId) :
    w.Fate id (.finish id') (w.polling.filters.get? id)
      ((w.move (.finish id')).polling.filters.get? id) := by
  simp only [move]
  split
  · exact .kept rfl rfl
  · rename_i c hfind
    have hc := List.mem_of_find?_eq_some hfind
    obtain rfl : c.id = id' := by simpa using List.find?_some hfind
    have hask := act_polling w (a := .askInstalled c.id) rfl
    have hnow : (w.act (.askInstalled c.id)).now = w.now := by
      simp only [act, askInstalled]
      cases w.receiver? c.id <;> rfl
    cases hf : w.finishFilter c with
    | mk result w' =>
    cases result with
    | none => exact .kept rfl rfl
    | some answer =>
      simp only
      rcases finishFilter_cases w c with ⟨-, h⟩ | ⟨e, -, h⟩ | h
      · rw [hf, Prod.mk.injEq] at h
        rw [h.2]
        simp only [enterFilter, endCreation, hask, hnow]
        by_cases hid : c.id = id
        · subst hid
          have hnot := hw.tidy.not_filed (List.mem_map_of_mem hc)
          rw [(Table.get?_eq_none_iff _ _).mpr hnot, Table.get?_set, if_pos rfl]
          exact .entered rfl hc rfl
        · rw [Table.get?_set, if_neg hid]
          exact .kept rfl rfl
      · rw [hf, Prod.mk.injEq] at h
        rw [h.2, dropReceiver_polling]
        simp only [releaseSlot, endCreation, hask]
        exact .kept rfl rfl
      · rw [hf] at h
        cases h

/-- A poll takes the changes of its filter out and leaves the others alone. -/
theorem poll_fate (w : World) (id id' : SubscriptionId) :
    w.Fate id (.poll id') (w.polling.filters.get? id)
      ((w.move (.poll id')).polling.filters.get? id) := by
  have hother : ¬ id' = id → World.polled id w (.poll id') = none := fun h => if_neg h
  by_cases hid : id' = id
  · subst hid
    cases hf : w.polling.filters.get? id' with
    | none =>
      refine .of_same ?_ (by simp [World.polled, poll, hf, Except.toOption]) rfl
      simp only [move, poll, hf]
    | some f =>
      have hafter : (w.move (.poll id')).polling.filters.get? id' = some (f.polled w.now) := by
        simp only [move, poll, hf, Table.get?_set, if_true]
        rfl
      rw [hafter]
      exact .polled rfl (by simp [World.polled, poll, hf, Except.toOption]) rfl
  · refine .of_same ?_ (hother hid) rfl
    simp only [move, poll]
    split
    · rfl
    · rw [Table.get?_set, if_neg hid]

/-- What a task receives goes to its own filter, unless an error ends it; the other filters stay. -/
theorem drain_fate (hw : w.Managed) (id id' : SubscriptionId) :
    w.Fate id (.drain id') (w.polling.filters.get? id)
      ((w.move (.drain id')).polling.filters.get? id) := by
  have hread := act_polling w (a := .receive id') rfl
  have hother : ¬ id' = id → drained id w (.drain id') = none := fun h => if_neg fun hc => h hc.1
  simp only [move]
  rcases drainStep_cases w id' with he | ⟨hd, he⟩ | ⟨hd, n, hr, he⟩ | ⟨hd, e, hr, he⟩
  · refine .of_same (by rw [he, Option.getD_none]) rfl ?_
    by_cases hid : id' = id
    · subst hid
      exact drained_of_none hw he
    · exact hother hid
  · refine .of_same ?_ rfl ?_
    · rw [he, Option.getD_some, endDrain_polling]
      rfl
    · refine if_neg fun hc => ?_
      obtain ⟨rfl, hd'⟩ := hc
      have hsame := List.inj_on_of_nodup_map hw.tidy.drains_once hd hd' rfl
      cases hsame
  · rw [he, Option.getD_some]
    simp only [collect, hread]
    by_cases hid : id' = id
    · subst hid
      obtain ⟨f, hf⟩ := hw.filter_of_drain hd
      rw [Table.get?_update, if_pos rfl, hf]
      exact .collected rfl (by simp [drained, hd, hr])
    · rw [Table.get?_update, if_neg hid]
      exact .kept rfl (hother hid)
  · rw [he, Option.getD_some]
    have hfilters : ((w.act (.receive id')).expireDrain id').polling.filters =
        w.polling.filters.erase id' := by
      simp only [expireDrain, hread]
      split
      · rw [endDrain_polling]
        rfl
      · rename_i hnone
        have hnot : id' ∉ w.polling.filters.keys := by
          rwa [← Table.contains_iff_mem_keys]
        rw [endDrain_polling, Table.erase_of_not_mem hnot]
        show (w.act (.receive id')).polling.filters = _
        rw [hread]
    rw [hfilters, Table.get?_erase]
    by_cases hid : id' = id
    · subst hid
      rw [if_pos rfl]
      exact .of_none (by simp) rfl (by simp [drained, hr])
    · rw [if_neg hid]
      exact .kept rfl (hother hid)

/-- What a move makes of a filter. -/
theorem move_fate (hw : w.Managed) (m : Move) (id : SubscriptionId) :
    w.Fate id m (w.polling.filters.get? id) ((w.move m).polling.filters.get? id) := by
  have hfiled := hw.tidy.filed
  cases m with
  | act a =>
    refine .of_same ?_ rfl rfl
    simp only [move]
    split
    · rename_i ha
      rw [act_polling w (leavesBooks_of_foreign ha)]
    · rfl
  | create request =>
    refine .of_same ?_ rfl rfl
    simp only [move]
    split
    · rcases beginFilter_cases w request with ⟨_, h⟩ | ⟨_, e, w', h, -, hbooks, -⟩ |
        ⟨_, s, w₁, -, h⟩ <;> rw [h]
      · rw [hbooks]
      · rfl
    · rfl
  | finish id' => exact finish_fate hw id id'
  | poll id' => exact poll_fate w id id'
  | uninstall id' =>
    simp only [move, uninstallFilter]
    split
    · rw [removeFilter_polling, Polling.removed, Table.get?_erase]
      split
      · exact .of_none (by simp) rfl rfl
      · exact .kept rfl rfl
    · exact .kept rfl rfl
  | sweep =>
    simp only [move]
    split
    · rw [get?_sweep hfiled]
      split
      · rename_i hx
        exact .of_none (fun _ => hx) rfl rfl
      · exact .kept rfl rfl
    · exact .kept rfl rfl
  | tick =>
    simp only [move, get?_runSweeper hfiled]
    split
    · rename_i hx
      simp only [Bool.and_eq_true, decide_eq_true_eq] at hx
      exact .of_none (fun _ => hx.2) rfl rfl
    · exact .kept rfl rfl
  | drain id' => exact drain_fate hw id id'
  | advance time => exact .kept rfl rfl
  | close =>
    simp only [move]
    split
    · exact .of_none (by simp) rfl rfl
    · exact .kept rfl rfl

end World

end EventFanout
