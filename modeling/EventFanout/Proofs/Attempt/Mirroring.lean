/-
EventFanout.Proofs.Attempt.Mirroring — the run without an attempt to subscribe.

`World.others` are the actions of a run that are not about a subscription, each judged in the world
that the run has come to. A run mirrors itself in them (`World.Mirrored`) when a world that went
without the subscription goes on without it, and when the hub may take what is left of the steps
in its order.

Main statements: a run up to a moment when it has not been decided yet whether the subscription is
installed mirrors itself (`mirrored_of_pending`), and so does any run after the subscription has
ended (`mirrored_of_gone`). Both come from one action: what is not about the subscription comes to
the same in both worlds (`Without.act`), and what is about it comes to nothing for the others
(`Without.own`).
-/
import EventFanout.Proofs.Attempt.Omission
import EventFanout.Proofs.Lifecycle.Traced
import EventFanout.Proofs.Order

namespace EventFanout

/-- A change that does not decide about a subscription. -/
def Change.isQuiet : Change → Bool
  | .nothing | .handedIn => true
  | _ => false

namespace World

/-- A place in which it has not been decided about a subscription. -/
def Place.isPending : Place → Bool
  | .held | .queued => true
  | .indexed | .gone => false

variable {w v : World} {s : Subscription} {p : Place} {l : Line} {id id' : SubscriptionId}
  {cost cost' : UInt64} {a : Action} {run run' : List Action}

/-! ## Actions about other subscriptions -/

def concerns (w : World) (id : SubscriptionId) : Action → Bool
  | .submit id' | .discard id' | .requestRemoval id' | .askInstalled id' | .tryError id'
  | .receive id' | .dropReceiver id' => id' = id
  | .turn .install => w.hub.installs.head?.any (·.id = id)
  | .turn .remove => w.hub.removals.head? = some id
  | _ => false

namespace Without

/-- A step of the hub that is not about the subscription comes to the same in both worlds. -/
theorem perform (h : Without id cost w v) (hx : id ∉ w.hub.index.values.map Subscription.id)
    {t : Turn} (hother : w.concerns id (.turn t) = false)
    (hstop : t = .stop → id ∉ w.hub.installs.map Subscription.id) :
    Without id cost (w.perform t) (v.perform t) := by
  cases t with
  | stop =>
    have hnone : w.hub.installs.countP (·.id = id) = 0 := by
      rw [List.countP_eq_zero]
      intro s hs he
      exact hstop rfl (of_decide_eq_true he ▸ List.mem_map_of_mem hs)
    show Without id cost w.shutdown v.shutdown
    simpa [hnone] using h.shutdown hx
  | install =>
    cases hq : w.hub.installs with
    | nil => simpa only [World.perform, h.installs, hq, List.filter_nil] using h
    | cons s rest =>
      have hne : s.id ≠ id := by simpa [concerns, hq] using hother
      simp only [World.perform, hq, h.installs_cons hq hne]
      exact (h.setInstalls rest).install hne
  | remove =>
    cases hq : w.hub.removals with
    | nil => simpa only [World.perform, h.removals, hq, List.filter_nil] using h
    | cons id' rest =>
      have hne : id' ≠ id := by simpa [concerns, hq] using hother
      simp only [World.perform, hq, h.removals_cons hq hne]
      exact (h.setRemovals rest).uninstall hne _
  | read t =>
    have hread : (v.hub.feeds.get? t).bind v.bus.read? = (w.hub.feeds.get? t).bind w.bus.read? := by
      rw [h.feeds, h.bus]
    cases hr : (w.hub.feeds.get? t).bind w.bus.read? with
    | none => simpa only [World.perform, hread, hr] using h
    | some read =>
      obtain ⟨item, bus⟩ := read
      simp only [World.perform, hread, hr]
      refine (h.setBus bus).dispatch (fun hm => hx ?_) item
      obtain ⟨s, hs, rfl⟩ := List.mem_map.mp hm
      exact List.mem_map_of_mem (Hub.mem_listeners.mp hs).1

/-- What another client makes is made in both worlds. -/
theorem made (h : Without id cost w v) (hne : s.id ≠ id) (buffer : Nat) (attached : Bool) :
    Without id cost (w.made s buffer attached) (v.made s buffer attached) := by
  obtain ⟨ledger, rfl⟩ := h
  refine ⟨ledger, ?_⟩
  simp only [World.made, leaveOut, Table.set_erase _ hne]

/-- A subscription can be made in both worlds or, for the same reason, in neither. -/
theorem create (h : Without id cost w v) (hissued : w.Issued id) (kind : Kind)
    (criteria : Option Criteria) (topic : Topic) (buffer : Nat) (attached : Bool) :
    (∃ s w' v', w.create kind criteria topic buffer attached = .ok (s, w') ∧
        v.create kind criteria topic buffer attached = .ok (s, v') ∧ Without id cost w' v') ∨
      ∃ e, w.create kind criteria topic buffer attached = .error e ∧
        v.create kind criteria topic buffer attached = .error e := by
  have hnext : v.issued = w.issued := by
    obtain ⟨ledger, rfl⟩ := h
    rfl
  cases hm : Subscription.make (.issued w.issued) kind criteria topic with
  | error e =>
    refine .inr ⟨e, ?_, ?_⟩
    · simp only [World.create, hm]
      rfl
    · simp only [World.create, hnext, hm]
      rfl
  | ok s =>
    obtain ⟨hid, rfl, -⟩ := make_eq hm
    have hne : s.id ≠ id := by
      obtain ⟨n, rfl, hlt⟩ := hissued
      rw [hid]
      simp only [ne_eq, SubscriptionId.issued.injEq]
      omega
    refine .inl ⟨s, w.made s buffer attached, v.made s buffer attached, ?_, ?_,
      h.made hne buffer attached⟩
    · simp only [World.create, hm]
      rfl
    · simp only [World.create, World.made, hnext, hm]
      rfl

theorem newSubscription (h : Without id cost w v) (hissued : w.Issued id) (kind : Kind)
    (criteria : Option Criteria) :
    (∃ s w' v', w.newSubscription kind criteria = .ok (s, w') ∧
        v.newSubscription kind criteria = .ok (s, v') ∧ Without id cost w' v') ∨
      ∃ e, w.newSubscription kind criteria = .error e ∧
        v.newSubscription kind criteria = .error e := by
  have hlimits : v.checkLimits kind criteria = w.checkLimits kind criteria := by
    simp only [checkLimits, h.config]
  simp only [World.newSubscription, hlimits, h.config]
  cases w.checkLimits kind criteria with
  | error e => exact .inr ⟨e, rfl, rfl⟩
  | ok u => exact h.create hissued kind criteria kind.topic _ true

theorem submit (h : Without id cost w v) (hne : s.id ≠ id) :
    Without id cost (w.submit s).2 (v.submit s).2 := by
  have hheld : Without id cost { w with held := w.held.erase s.id }
      { v with held := v.held.erase s.id } := by
    obtain ⟨ledger, rfl⟩ := h
    refine ⟨ledger, ?_⟩
    simp only [leaveOut, Table.erase_comm _ id]
  simp only [World.submit, h.config, h.running]
  split
  · exact (hheld.record _).closeLine hne _
  · split
    · have hqueued := hheld.setInstalls (w.hub.installs ++ [s])
      rw [List.filter_append, ← h.installs, List.filter_cons_of_pos (by simpa using hne),
        List.filter_nil] at hqueued
      obtain ⟨ledger, rfl⟩ := h
      exact hqueued
    · exact hheld.closeLine hne _

theorem discard (h : Without id cost w v) (hne : id' ≠ id) :
    Without id cost (w.discard id').2 (v.discard id').2 := by
  have hcontains : v.held.contains id' = w.held.contains id' := by
    rw [Table.contains, h.held hne, Table.contains]
  simp only [World.discard, hcontains]
  split
  · obtain ⟨ledger, rfl⟩ := h
    refine ⟨ledger, ?_⟩
    simp only [leaveOut, Table.erase_comm _ id, Table.update_erase _ hne]
  · exact h

theorem requestRemoval (h : Without id cost w v) (hne : id' ≠ id) :
    Without id cost (w.requestRemoval id') (v.requestRemoval id') := by
  simp only [World.requestRemoval, h.running]
  split
  · have hasked := h.setRemovals (w.hub.removals ++ [id'])
    rw [List.filter_append, ← h.removals, List.filter_cons_of_pos (by simpa using hne),
      List.filter_nil] at hasked
    obtain ⟨ledger, rfl⟩ := h
    exact hasked
  · exact h

theorem receiver (h : Without id cost w v) (hne : id' ≠ id) :
    v.receiver? id' = w.receiver? id' := by
  rw [World.receiver?, h.line hne, World.receiver?]

theorem dropReceiver (h : Without id cost w v) (hne : id' ≠ id) :
    Without id cost (w.dropReceiver id') (v.dropReceiver id') := by
  simp only [World.dropReceiver, h.receiver hne]
  split
  · exact h
  · split
    · exact (h.updateLine hne _).requestRemoval hne
    · exact h.updateLine hne _

/-- **What is not about the subscription comes to the same in both worlds.** -/
theorem act (h : Without id cost w v) (hroster : w.Roster) (hissued : w.Issued id)
    (hx : id ∉ w.hub.index.values.map Subscription.id) {a : Action}
    (hother : w.concerns id a = false)
    (hstop : a = .turn .stop → w.hub.running = true →
      id ∉ w.hub.installs.map Subscription.id) :
    Without id cost (w.act a) (v.act a) := by
  have howns : ∀ hd, v.hub.owns hd = w.hub.owns hd := fun hd => by
    rw [Hub.owns, h.feeds, Hub.owns]
  cases a with
  | publish _ | busSubscribe _ | busUnsubscribe _ | busClose =>
    simp only [World.act, h.bus]
    exact h.setBus _
  | busReceive hd | busDrop hd =>
    simp only [World.act, h.bus, howns]
    split
    · exact h
    · exact h.setBus _
  | make kind criteria topic buffer =>
    rcases h.create hissued kind criteria topic buffer false with
      ⟨s, w', v', hw, hv, h'⟩ | ⟨e, hw, hv⟩
    · simpa only [World.act, hw, hv] using h'
    · simpa only [World.act, hw, hv] using h
  | makeWithin kind criteria =>
    rcases h.newSubscription hissued kind criteria with ⟨s, w', v', hw, hv, h'⟩ | ⟨e, hw, hv⟩
    · simpa only [World.act, hw, hv] using h'
    · simpa only [World.act, hw, hv] using h
  | submit id' =>
    have hne : id' ≠ id := by simpa [concerns] using hother
    simp only [World.act, h.held hne]
    split
    · rename_i s hs
      exact h.submit ((hroster.id_of_held hs).1.symm ▸ hne)
    · exact h
  | discard id' => exact h.discard (by simpa [concerns] using hother)
  | requestRemoval id' => exact h.requestRemoval (by simpa [concerns] using hother)
  | askInstalled id' | tryError id' | receive id' =>
    have hne : id' ≠ id := by simpa [concerns] using hother
    simp only [World.act, World.askInstalled, World.tryError, World.receive, h.receiver hne]
    cases w.receiver? id' with
    | none => exact h
    | some pair => exact h.updateLine hne _
  | dropReceiver id' => exact h.dropReceiver (by simpa [concerns] using hother)
  | signal cancelled =>
    obtain ⟨ledger, rfl⟩ := h
    refine ⟨ledger, ?_⟩
    cases hr : w.hub.running <;> simp [World.act, World.signal, leaveOut, hr]
  | keepBooks polling expired =>
    have hbooks : Without id cost { w with polling } { v with polling } := by
      obtain ⟨ledger, rfl⟩ := h
      exact ⟨ledger, rfl⟩
    exact hbooks.record _
  | turn t =>
    simp only [World.act, h.running]
    split
    · rename_i hr
      exact h.perform hx hother fun ht => hstop (congrArg Action.turn ht) hr
    · exact h
  | requestStop | dropSignal | setClock _ | rest =>
    obtain ⟨ledger, rfl⟩ := h
    exact ⟨ledger, rfl⟩

/-! ## Actions about the subscription -/

/-- To hand it in is nothing to the others, but for the count of what light mode turns away. -/
theorem own_submit (h : Without s.id cost w v) :
    Without s.id (cost + if w.hub.config.lightMode && s.kind.requiresFullNode then 1 else 0)
      (w.submit s).2 v := by
  have hheld := h.own_held
  rcases submit_cases w s with ⟨hl, -, he⟩ | ⟨hl, he⟩ | ⟨hl, -, he⟩
  · rw [he, if_neg (by simp [hl]), UInt64.add_zero]
    exact hheld.own_installs (by simp)
  · rw [he, if_pos hl]
    exact hheld.own_rejected.own_line _
  · rw [he, if_neg (by simp [hl]), UInt64.add_zero]
    exact hheld.own_line _

theorem own_requestRemoval (h : Without id cost w v) : Without id cost (w.requestRemoval id) v := by
  unfold World.requestRemoval
  split
  · exact h.own_removals (by simp)
  · exact h

theorem own_discard (h : Without id cost w v) : Without id cost (w.discard id).2 v := by
  unfold World.discard
  split
  · exact h.own_held.own_line _
  · exact h

theorem own_dropReceiver (h : Without id cost w v) : Without id cost (w.dropReceiver id) v := by
  unfold World.dropReceiver
  split
  · exact h
  · split
    · exact (h.own_line _).own_requestRemoval
    · exact h.own_line _

/-- A request for the removal of what is not installed is handled without effect. -/
theorem own_remove (h : Without id cost w v) (hx : id ∉ w.hub.ids)
    (hown : w.hub.removals.head? = some id) : Without id cost (w.perform .remove) v := by
  obtain ⟨rest, hq⟩ := List.head?_eq_some_iff.mp hown
  simp only [World.perform, hq]
  rw [uninstall_of_not_mem (w := { w with hub.removals := rest }) hx]
  exact h.own_removals (by simp [hq])

end Without

/-! ## The run without the attempt -/

def other? (id : SubscriptionId) (w : World) (a : Action) : Option Action :=
  if w.concerns id a then none else some a

def others (w : World) (id : SubscriptionId) (run : List Action) : List Action :=
  along (other? id) w run

theorem others_append (w : World) (id : SubscriptionId) (run run' : List Action) :
    w.others id (run ++ run') = w.others id run ++ (w.after run).others id run' :=
  along_append _ w run run'

/-- A run without what is about a subscription keeps the second world without the subscription, and
keeps the order in which a hub works. -/
structure Mirrored (id : SubscriptionId) (cost : UInt64) (w v : World) (run : List Action) :
    Prop where
  without : Without id cost (w.after run) (v.after (w.others id run))
  inOrder : w.InOrder run → v.InOrder (w.others id run)

theorem Mirrored.append (h : Mirrored id cost w v run)
    (h' : Mirrored id cost' (w.after run) (v.after (w.others id run)) run') :
    Mirrored id cost' w v (run ++ run') where
  without := by
    rw [others_append, after_append, after_append]
    exact h'.without
  inOrder := by
    rw [others_append, inOrder_append, inOrder_append]
    exact And.imp h.inOrder h'.inOrder

/-- What is about the subscription is not mirrored. -/
theorem Mirrored.of_concerns (hown : w.concerns id a = true) (h : Without id cost (w.act a) v) :
    Mirrored id cost w v [a] := by
  have hnone : w.others id [a] = [] := by simp [others, along, other?, hown]
  refine ⟨?_, fun _ => ?_⟩ <;> rw [hnone]
  · exact h
  · trivial

theorem Mirrored.of_other (hother : w.concerns id a = false)
    (h : Without id cost (w.act a) (v.act a)) (hp : w.Permits a → v.Permits a) :
    Mirrored id cost w v [a] := by
  have hone : w.others id [a] = [a] := by simp [others, along, other?, hother]
  refine ⟨?_, fun hin => ?_⟩ <;> rw [hone]
  · exact h
  · exact ⟨hp hin.1, trivial⟩

namespace Without

/-- What the hub may do that is not about the subscription, it may do in both worlds. -/
theorem permits (h : Without id cost w v) (hother : w.concerns id a = false)
    (hp : w.Permits a) : v.Permits a := by
  cases a with
  | turn t =>
    have hstops : v.hub.stops = w.hub.stops := by
      obtain ⟨ledger, rfl⟩ := h
      rfl
    cases t with
    | stop => exact ⟨h.running.trans hp.1, hstops.trans hp.2⟩
    | install =>
      obtain ⟨hr, hs, hq⟩ := hp
      refine ⟨h.running.trans hr, hstops.trans hs, ?_⟩
      obtain ⟨s, rest, hq⟩ := List.exists_cons_of_ne_nil hq
      have hne : s.id ≠ id := by simpa [concerns, hq] using hother
      rw [h.installs_cons hq hne]
      exact List.cons_ne_nil _ _
    | remove =>
      obtain ⟨hr, hs, hi, hq⟩ := hp
      refine ⟨h.running.trans hr, hstops.trans hs, by rw [h.installs, hi]; rfl, ?_⟩
      obtain ⟨id', rest, hq⟩ := List.exists_cons_of_ne_nil hq
      have hne : id' ≠ id := by simpa [concerns, hq] using hother
      rw [h.removals_cons hq hne]
      exact List.cons_ne_nil _ _
    | read t =>
      obtain ⟨hr, hs, hi, hq, hready⟩ := hp
      refine ⟨h.running.trans hr, hstops.trans hs, by rw [h.installs, hi]; rfl,
        by rw [h.removals, hq]; rfl, ?_⟩
      rw [isReady, h.feeds, h.bus]
      exact hready
  | _ => trivial

/-- What is about the subscription comes to nothing for the others, until it is decided. -/
theorem own (h : Without s.id cost w v) (ht : w.Traced s p l) (hp : p ≠ .indexed)
    (hown : w.concerns s.id a = true) (hquiet : (w.change s a).isQuiet = true) :
    Without s.id cost (w.act a) v := by
  have hids : s.id ∉ w.hub.ids := fun hm => hp (ht.mem_ids.mp hm)
  cases a with
  | submit id =>
    obtain rfl : id = s.id := by simpa [concerns] using hown
    simp only [World.act]
    split
    · rename_i s' hs'
      obtain ⟨hid, hmem⟩ := ht.roster.id_of_held hs'
      obtain ⟨rfl, -⟩ := ht.roster.eq_of_in ht.place (Roster.mem_everyone.mpr (.inl hmem)) hid
      have hlight : ¬ (w.hub.config.lightMode && s'.kind.requiresFullNode) = true := by
        intro hlight
        simp [World.change, hmem, hlight, Change.isQuiet] at hquiet
      have hsubmit := h.own_submit
      rwa [if_neg hlight, UInt64.add_zero] at hsubmit
    · exact h
  | discard id =>
    obtain rfl : id = s.id := by simpa [concerns] using hown
    exact h.own_discard
  | requestRemoval id =>
    obtain rfl : id = s.id := by simpa [concerns] using hown
    exact h.own_requestRemoval
  | askInstalled id | tryError id | receive id =>
    obtain rfl : id = s.id := by simpa [concerns] using hown
    simp only [World.act, World.askInstalled, World.tryError, World.receive]
    cases w.receiver? s.id with
    | none => exact h
    | some pair => exact h.own_line _
  | dropReceiver id =>
    obtain rfl : id = s.id := by simpa [concerns] using hown
    exact h.own_dropReceiver
  | turn t =>
    simp only [World.act]
    split
    case isFalse => exact h
    rename_i hr
    cases t with
    | install =>
      -- the one that is first would be installed, or ended
      exfalso
      cases hq : w.hub.installs with
      | nil => simp [concerns, hq] at hown
      | cons s' rest =>
        have hid : s'.id = s.id := by simpa [concerns, hq] using hown
        have hmem : s' ∈ w.hub.installs := hq ▸ List.mem_cons_self
        obtain ⟨rfl, -⟩ := ht.roster.eq_of_in ht.place
          (Roster.mem_everyone.mpr (.inr (.inl hmem))) hid
        simp only [World.change, if_pos hr, turnChange, hq, List.head?_cons, if_true] at hquiet
        split at hquiet
        · cases hquiet
        · split at hquiet <;> cases hquiet
    | remove => exact h.own_remove hids (by simpa [concerns] using hown)
    | stop => cases hown
    | read t => cases hown
  | _ => cases hown

end Without

/-- One action, as long as it is not decided about the subscription. -/
theorem mirrored_of_quiet (h : Without s.id cost w v) (ht : w.Traced s p l) (hp : p ≠ .indexed)
    (hquiet : (w.change s a).isQuiet = true) : Mirrored s.id cost w v [a] := by
  have hvalues : s.id ∉ w.hub.index.values.map Subscription.id := by
    rw [ht.roster.sound.consistent.values_ids]
    exact fun hm => hp (ht.mem_ids.mp hm)
  cases hown : w.concerns s.id a with
  | true => exact .of_concerns hown (h.own ht hp hown hquiet)
  | false =>
    refine .of_other hown (h.act ht.roster (ht.roster.issued_of_in ht.place) hvalues hown ?_)
      (h.permits hown)
    rintro rfl hr
    refine ht.roster.not_mem_map ht.place
      (fun s' hs' => Roster.mem_everyone.mpr (.inr (.inl hs'))) fun hm => ?_
    simp [World.change, hr, turnChange, hm, Change.isQuiet] at hquiet

/-! ## Until it is decided, and from then on -/

/-- Where it has not been decided about a subscription, the last action did not decide either. -/
theorem isQuiet_of_pending {c : Change} (hf : c.Fitting p l) (hp : (c.place p).isPending = true) :
    p.isPending = true ∧ c.isQuiet = true := by
  cases c with
  | nothing => exact ⟨hp, rfl⟩
  | handedIn =>
    obtain rfl : p = .held := hf
    exact ⟨rfl, rfl⟩
  | heard e =>
    obtain rfl : p = .indexed := hf
    cases hp
  | _ => cases hp

theorem pending_of_after (ht : w.Traced s p l) {q : Place} (hq : q.isPending = true)
    (hin : (w.after run).In s q) : p.isPending = true := by
  induction run generalizing w p l with
  | nil => rwa [ht.roster.place_unique ht.place hin]
  | cons a rest ih =>
    exact (isQuiet_of_pending (change_fitting ht.roster ht.place ht.line a) (ih (ht.act a) hin)).1

theorem mirrored_of_pending (h : Without s.id cost w v) (ht : w.Traced s p l) {q : Place}
    (hq : q.isPending = true) (hin : (w.after run).In s q) : Mirrored s.id cost w v run := by
  induction run generalizing w v p l with
  | nil => exact ⟨h, id⟩
  | cons a rest ih =>
    have hpending := pending_of_after (ht.act a) hq hin
    obtain ⟨hp, hquiet⟩ := isQuiet_of_pending (change_fitting ht.roster ht.place ht.line a) hpending
    have hne : p ≠ .indexed := by
      rintro rfl
      cases hp
    have hfirst := mirrored_of_quiet h ht hne hquiet
    exact hfirst.append (ih hfirst.without (ht.act a) hin)

theorem mirrored_of_gone (h : Without s.id cost w v) (ht : w.Traced s .gone l)
    (run : List Action) : Mirrored s.id cost w v run := by
  induction run generalizing w v l with
  | nil => exact ⟨h, id⟩
  | cons a rest ih =>
    have hfirst := mirrored_of_quiet h ht (by simp) (by rw [ht.change_gone a]; rfl)
    exact hfirst.append (ih hfirst.without (ht.gone_act a))

end World

end EventFanout
