/-
EventFanout.Proofs.Departure — clients that go away.

A client that gives its receiver up asks for the removal of its subscription. The hub removes
what is installed and forgets any other request. A request that came while the subscription waited
is handled after the installation and removes it. But a request that is handled before the
subscription is handed in at all is forgotten, and then the subscription is installed with
nobody to listen. It stays until an event comes.

Main statement: `listening_of_rested`, over every run in order of a new hub. Where a hub that runs
has nothing to install and nothing to remove, whoever is installed listens, but for those that
were handed in too late. That there can be such is `listening_of_rested_late`.
-/
import EventFanout.Proofs.Cancellation

namespace EventFanout

namespace Line

variable {l : Line} {r' : Receiver}

/-- A receiver that is still there after an action is attached if it was. -/
theorem receiverAfter_attached {id : SubscriptionId} {a : Action}
    (h : l.receiverAfter id a = some r') :
    ∃ r, l.receiver = some r ∧ r'.attached = r.attached := by
  obtain ⟨r, hr, hcall⟩ := calls_of_receiverAfter h
  refine ⟨r, hr, ?_⟩
  cases hcall with
  | askInstalled =>
    obtain ⟨_, _, he, -⟩ := l.askInstalled_receiver r
    rw [he]
  | tryError =>
    obtain ⟨_, he, -⟩ := l.tryError_receiver r
    rw [he]
  | receive =>
    obtain ⟨_, _, he, -⟩ := l.receive_receiver r
    rw [he]
  | nothing => rfl

/-- A receiver goes only when it is given up. -/
theorem receiverAfter_eq_none {id : SubscriptionId} {a : Action}
    (h : l.receiverAfter id a = none) : l.receiver = none ∨ a = .dropReceiver id := by
  cases a <;> grind [receiverAfter, Option.map_eq_none_iff]

end Line

namespace World

/-- The subscription that an action makes within the limits of the hub, so that giving its
receiver up asks for its removal. -/
def offered (w : World) : Action → Option Subscription
  | .makeWithin kind criteria => w.brought (.makeWithin kind criteria)
  | _ => none

/-- The subscription was handed in after its receiver had been given up, and after the hub had
handled the request that came of that. -/
def HandedInLate (w : World) (s : Subscription) (run : List Action) : Prop :=
  ∃ earlier, earlier ++ [.submit s.id] <+: run ∧ s ∈ (w.after earlier).held.values ∧
    (w.after earlier).listens s.id = false ∧ s.id ∉ (w.after earlier).hub.removals

variable {w : World} {s : Subscription} {p : Place} {l : Line} {run : List Action}

theorem HandedInLate.mono {run' : List Action} (h : w.HandedInLate s run) (hpre : run <+: run') :
    w.HandedInLate s run' := by
  obtain ⟨earlier, hsubmit, hlate⟩ := h
  exact ⟨earlier, hsubmit.trans hpre, hlate⟩

theorem Traced.listens_iff (h : w.Traced s p l) : w.listens s.id = true ↔ l.receiver ≠ none := by
  rw [listens, Option.isSome_iff_exists]
  constructor
  · rintro ⟨pair, hpair⟩
    obtain ⟨hl, hr⟩ := receiver?_eq_some.mp hpair
    rw [h.line, Option.some.injEq] at hl
    rw [hl, hr]
    simp
  · intro hne
    obtain ⟨r, hr⟩ := Option.ne_none_iff_exists'.mp hne
    exact ⟨(l, r), receiver?_eq_some.mpr ⟨h.line, hr⟩⟩

/-- Who comes to wait has been handed in. -/
theorem eq_submit_of_change {a : Action} (h : w.change s a = .handedIn) :
    a = .submit s.id ∧ s ∈ w.held.values := by
  cases a with
  | submit id =>
    simp only [change] at h
    split at h
    · rename_i hc
      exact ⟨by rw [hc.1], hc.2⟩
    · cases h
  | discard id =>
    simp only [change] at h
    split at h <;> cases h
  | turn t =>
    simp only [change] at h
    split at h
    · cases t with
      | _ =>
        simp only [turnChange] at h
        repeat' split at h
        all_goals cases h
    · cases h
  | _ => cases h

/-- How a subscription made within the limits of the hub stands, as to its client. -/
structure Attended (w : World) (s : Subscription) (run : List Action) (p : Place) (l : Line) :
    Prop where
  traced : (w.after run).Traced s p l
  attached : ∀ r, l.receiver = some r → r.attached = true
  /-- While it waits or is installed and nobody listens, its removal has been asked for. -/
  asked : (w.after run).hub.running = true → p = .queued ∨ p = .indexed → l.receiver = none →
    s.id ∈ (w.after run).hub.removals ∨ w.HandedInLate s run

/-- A request stays in the queue as long as the subscription goes on: taking it ends that. -/
theorem Traced.mem_removals (h : w.Traced s p l) (hp : p ≠ .held) {a : Action}
    (ha : w.Permits a) (hr : (w.act a).hub.running = true) {p' : Place} {l' : Line}
    (h' : (w.act a).Traced s p' l') (hp' : p' ≠ .gone) (hm : s.id ∈ w.hub.removals) :
    s.id ∈ (w.act a).hub.removals := by
  rw [act_removals hr]
  cases ht : a.takesRemoval with
  | false =>
    rw [if_neg Bool.false_ne_true, List.drop_zero]
    exact List.mem_append_left _ hm
  | true =>
    obtain rfl := eq_remove_of_takesRemoval ht
    cases hq : w.hub.removals with
    | nil =>
      rw [hq] at hm
      cases hm
    | cons id rest =>
      rw [hq] at hm
      rcases List.mem_cons.mp hm with rfl | hm
      · obtain ⟨l'', hgone⟩ := h.gone_of_remove hp ha (by rw [hq, List.head?_cons])
        exact absurd (h'.unique hgone).1 hp'
      · exact List.mem_append_left _ hm

/-- A client that gives an attached receiver up asks for the removal of its subscription. -/
theorem Traced.requested_of_dropReceiver (h : w.Traced s p l) (hr : w.hub.running = true)
    {r : Receiver} (hl : l.receiver = some r) (hatt : r.attached = true) :
    w.requested (.dropReceiver s.id) = some s.id := by
  simp [requested, receiver?_eq_some.mpr ⟨h.line, hl⟩, hatt, hr]

/-- One action more, in the order of the hub. -/
theorem Attended.concat (h : Attended w s run p l) {a : Action} (ha : (w.after run).Permits a) :
    ∃ p' l', Attended w s (run ++ [a]) p' l' := by
  have htraced := h.traced.act a
  have hfit := change_fitting h.traced.roster h.traced.place h.traced.line a
  refine ⟨_, _, after_concat w run a ▸ htraced, ?_, ?_⟩
  · intro r' hr'
    obtain ⟨r, hr, hatt⟩ := Line.receiverAfter_attached hr'
    rw [Change.line_receiver] at hr
    rw [hatt, h.attached r hr]
  · intro hrun hplace hnone
    rw [after_concat] at hrun ⊢
    have hrun' := running_of_act hrun
    cases hr : l.receiver with
    | some r =>
      -- the client goes with this action, and its request comes in
      have hgone := Line.receiverAfter_eq_none hnone
      rw [Change.line_receiver, hr] at hgone
      obtain rfl := hgone.resolve_left (by simp)
      have hask := h.traced.requested_of_dropReceiver hrun' hr (h.attached r hr)
      left
      rw [act_removals hrun, hask]
      simp [Action.takesRemoval]
    | none =>
      rcases hfit.before hplace with hc | hp
      · obtain ⟨rfl, hheld⟩ := eq_submit_of_change hc
        by_cases hm : s.id ∈ (w.after run).hub.removals
        · left
          rw [act_removals hrun]
          simp [Action.takesRemoval, hm]
        · refine .inr ⟨run, List.prefix_refl _, hheld, ?_, hm⟩
          rw [← Bool.not_eq_true, h.traced.listens_iff, hr]
          simp
      · -- a request that waits goes on waiting, as the subscription goes on
        have hgoes : p ≠ .held := by rcases hp with rfl | rfl <;> simp
        have hgoes' : ((w.after run).change s a).place p ≠ .gone := by
          rcases hplace with he | he <;> simp [he]
        rcases h.asked hrun' hp hr with hm | hlate
        · exact .inl (h.traced.mem_removals hgoes ha hrun htraced hgoes' hm)
        · exact .inr (hlate.mono (List.prefix_append run [a]))

/-- Whoever was made within the limits of the hub is attended to. -/
theorem attended_of_offered (h : w.Roster) (ho : w.InOrder run) (hs : s ∈ along offered w run) :
    ∃ p l, Attended w s run p l := by
  induction run using List.reverseRecOn with
  | nil => cases hs
  | append_singleton run a ih =>
    obtain ⟨horder, hpermits⟩ := inOrder_concat.mp ho
    rw [along_concat, List.mem_append] at hs
    rcases hs with hs | hs
    · obtain ⟨p, l, hatt⟩ := ih horder hs
      exact hatt.concat hpermits
    · cases a with
      | makeWithin kind criteria =>
        simp only [offered, brought, Option.mem_toList] at hs
        split at hs
        · rename_i s' w' hnew
          cases hs
          obtain ⟨buffer, htraced⟩ := traced_of_newSubscription (after_roster h run) hnew
          rw [← after_concat] at htraced
          refine ⟨_, _, htraced, ?_, by simp⟩
          intro r hr
          cases hr
          rfl
        · cases hs
      | _ => cases hs

/--
**Who is installed listens.** Let a new hub have worked in order, and let it run with no request
for removal waiting. Then a subscription in the index that was made within the limits of the hub
still has its receiver, unless it was handed in late; and a topic is registered only for the sake
of such a subscription, or of one that was made otherwise.
-/
theorem listening_of_rested {bus : Bus} {config : Config} {governor : Governor}
    {run : List Action} (ho : (start bus config governor).InOrder run)
    (hr : ((start bus config governor).after run).hub.running = true)
    (hm : ((start bus config governor).after run).hub.removals = []) :
    let w₀ := start bus config governor
    let w := w₀.after run
    (∀ s ∈ along offered w₀ run, s ∈ w.hub.index.values →
      w.listens s.id = true ∨ w₀.HandedInLate s run) ∧
    (∀ t, w.hub.topics.contains t = true → ∃ s ∈ w.hub.listeners t,
      s ∈ along offered w₀ run → w.listens s.id = true ∨ w₀.HandedInLate s run) := by
  intro w₀ w
  have hroster := start_roster bus config governor
  have hlisten : ∀ s ∈ along offered w₀ run, s ∈ w.hub.index.values →
      w.listens s.id = true ∨ w₀.HandedInLate s run := by
    intro s hs hx
    obtain ⟨p, l, hatt⟩ := attended_of_offered hroster ho hs
    by_cases hnone : l.receiver = none
    · have hp := hatt.traced.mem_values.mp hx
      refine .inr ((hatt.asked hr (.inr hp) hnone).resolve_left ?_)
      rw [hm]
      exact List.not_mem_nil
    · exact .inl (hatt.traced.listens_iff.mpr hnone)
  refine ⟨hlisten, fun t ht => ?_⟩
  have hc := (after_roster hroster run).sound.consistent
  obtain ⟨s, hx, rfl⟩ := (hc.registered_iff t).mp ht
  exact ⟨s, Hub.mem_listeners.mpr ⟨hx, rfl⟩, fun hs => hlisten s hs hx⟩

/-- One of two clients goes away while both subscriptions wait. When the hub has worked, the
other one alone is installed. -/
theorem listening_of_rested_shared :
    let run : List Action := [.makeWithin .newHeads none, .makeWithin .newHeads none,
      .submit (.issued 0), .submit (.issued 1), .dropReceiver (.issued 0), .turn .install,
      .turn .install, .turn .remove]
    (start (Bus.sized 4) {} .absent).InOrder run ∧
      ((start (Bus.sized 4) {} .absent).after run).hub.running = true ∧
      ((start (Bus.sized 4) {} .absent).after run).hub.removals = [] ∧
      ((start (Bus.sized 4) {} .absent).after run).hub.ids = [.issued 1] ∧
      ∀ s ∈ along offered (start (Bus.sized 4) {} .absent) run,
        s ∈ ((start (Bus.sized 4) {} .absent).after run).hub.index.values →
        ((start (Bus.sized 4) {} .absent).after run).listens s.id = true ∨
          (start (Bus.sized 4) {} .absent).HandedInLate s run := by
  intro run
  have ho : (start (Bus.sized 4) {} .absent).InOrder run := by decide
  have hr : ((start (Bus.sized 4) {} .absent).after run).hub.running = true := by decide
  have hm : ((start (Bus.sized 4) {} .absent).after run).hub.removals = [] := by decide
  obtain ⟨hlisten, -⟩ := listening_of_rested ho hr hm
  exact ⟨ho, hr, hm, by decide, hlisten⟩

/-- A client gives its receiver up before it hands its subscription in. The hub rests, both its
queues are empty, and the subscription is installed and its topic registered for nobody. -/
theorem listening_of_rested_late :
    let s : Subscription := ⟨.issued 0, .newHeads, headerTopic, none⟩
    let w₀ := start (Bus.sized 4) {} .absent
    let run : List Action := [.makeWithin .newHeads none, .dropReceiver s.id, .turn .remove,
      .submit s.id, .turn .install]
    let w := w₀.after run
    w₀.InOrder run ∧ w.hub.running = true ∧ w.hub.installs = [] ∧ w.hub.removals = [] ∧
      w.turn? = none ∧ along offered w₀ run = [s] ∧ w.hub.index.values = [s] ∧
      w.listens s.id = false ∧ w.hub.topics.keys = [headerTopic] := by
  intro s w₀ run w
  exact ⟨by decide, by decide, by decide, by decide, by decide, by rfl, by decide, by decide,
    by decide⟩

end World

end EventFanout
