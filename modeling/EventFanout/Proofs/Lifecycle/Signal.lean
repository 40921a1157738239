/-
EventFanout.Proofs.Lifecycle.Signal — what a client is told when it asks for its installation.

The signal of an installation is given once, and waiting for it takes it out of the receiver,
answered or not. A client that asks again afterwards finds no signal and is told that it has
been installed. So what it is told depends on the asking before: the answer is right for a client
that asks for the first time, and it can be wrong for one that was told to wait.

Main statement: `installation_answers`, for every subscription over every run that follows its
making. It says when a client is told that it has been installed. That this can happen to one
that never was is `installation_answers_refused`.
-/
import EventFanout.Proofs.Delivery.Client
import EventFanout.Proofs.Lifecycle.Traced
import EventFanout.Proofs.Order
import Mathlib.Data.List.Infix

namespace EventFanout

namespace Line

variable {l : Line} {r r' : Receiver}

/-! ## Asking once -/

/-- Who is told that it has been installed was told no error, and the signal is there or is gone. -/
theorem askInstalled_eq_installed :
    (l.askInstalled r).1 = .installed ↔
      r.terminal = none ∧ (r.asked = true ∨ l.installed = true) := by
  unfold askInstalled
  cases r.terminal with
  | some e => simp
  | none =>
    cases r.asked with
    | true => simp
    | false =>
      cases l.installed with
      | true => simp
      | false =>
        cases l.isClosed with
        | true => simp
        | false => simp

/-- Asking takes the signal, unless the client has been told an error. -/
theorem askInstalled_asked (ht : r.terminal = none) : (l.askInstalled r).2.asked = true := by
  unfold askInstalled
  rw [ht]
  cases hr : r.asked with
  | true => simpa using hr
  | false =>
    cases l.installed with
    | true => simp
    | false =>
      cases l.isClosed with
      | true =>
        simp only [Bool.false_eq_true, if_false, if_true, takeError, tryError]
        split <;> rfl
      | false => simp

/-- A client that has asked, and has been told no error, was told to wait or that it has been
installed. -/
theorem askInstalled_cases (h : (l.askInstalled r).2.terminal = none) :
    r.terminal = none ∧ ((l.askInstalled r).1 = .installed ∨ (l.askInstalled r).1 = .pending) := by
  unfold askInstalled at h ⊢
  cases ht : r.terminal with
  | some e =>
    simp only [ht] at h
    cases h
  | none =>
    simp only [ht] at h ⊢
    cases hr : r.asked with
    | true => simp
    | false =>
      simp only [hr, Bool.false_eq_true, if_false] at h ⊢
      cases hi : l.installed with
      | true => simp
      | false =>
        simp only [hi, Bool.false_eq_true, if_false] at h ⊢
        cases hc : l.isClosed with
        | true => simp [hc, takeError, tryError] at h
        | false => simp

/-! ## What a receiver remembers -/

/-- An action leaves in place what a receiver remembers of asking, unless it is asking; and an
error that was told is never forgotten. -/
theorem receiverAfter_memory {id : SubscriptionId} {a : Action}
    (h : l.receiverAfter id a = some r') :
    ∃ r, l.receiver = some r ∧ (r'.terminal = none → r.terminal = none) ∧
      ((a ≠ .askInstalled id ∧ r'.asked = r.asked) ∨
        (a = .askInstalled id ∧ r' = (l.askInstalled r).2)) := by
  obtain ⟨r, hr, hcall⟩ := calls_of_receiverAfter h
  refine ⟨r, hr, ?_⟩
  cases hcall with
  | askInstalled => exact ⟨fun ht => (askInstalled_cases ht).1, .inr ⟨rfl, rfl⟩⟩
  | tryError =>
    obtain ⟨_, he, hterm⟩ := l.tryError_receiver r
    rw [he]
    exact ⟨hterm, .inl ⟨by simp, rfl⟩⟩
  | receive =>
    obtain ⟨_, _, he, hterm⟩ := l.receive_receiver r
    rw [he]
    exact ⟨hterm, .inl ⟨by simp, rfl⟩⟩
  | nothing hask => exact ⟨fun ht => ht, .inl ⟨hask, rfl⟩⟩

end Line

/-- The signal on a line is there after a change if it was before, or comes with an installation. -/
theorem Change.line_installed (s : Subscription) (l : Line) (p : World.Place) (c : Change) :
    ((c.line s l).installed = true → l.installed = true ∨ c.place p = .indexed) ∧
      (l.installed = true → (c.line s l).installed = true) := by
  cases c with
  | installed => exact ⟨fun _ => .inr rfl, fun _ => rfl⟩
  | heard e =>
    simp only [line]
    cases s.notice? e <;> exact ⟨.inl, id⟩
  | _ => exact ⟨.inl, id⟩

namespace World

/-- The client of a subscription has asked for its installation and was told to wait. -/
def ToldToWait (w : World) (id : SubscriptionId) (run : List Action) : Prop :=
  ∃ earlier, earlier ++ [.askInstalled id] <+: run ∧
    ((w.after earlier).askInstalled id).map (·.1) = some .pending

variable {w : World} {s : Subscription} {p : Place} {l l' : Line} {run : List Action}

theorem ToldToWait.mono {run' : List Action} (h : w.ToldToWait s.id run) (hpre : run <+: run') :
    w.ToldToWait s.id run' := by
  obtain ⟨earlier, hask, hans⟩ := h
  exact ⟨earlier, hask.trans hpre, hans⟩

/-- Nobody is told to wait by what is no asking. -/
theorem toldToWait_concat {a : Action} (ha : a ≠ .askInstalled s.id) :
    w.ToldToWait s.id (run ++ [a]) ↔ w.ToldToWait s.id run := by
  refine ⟨?_, fun h => h.mono (List.prefix_append run [a])⟩
  rintro ⟨earlier, hpre, hans⟩
  rcases List.prefix_concat_iff.mp hpre with he | hpre
  · obtain ⟨-, hlast⟩ := List.append_inj' he rfl
    exact absurd (List.singleton_inj.mp hlast).symm ha
  · exact ⟨earlier, hpre, hans⟩

/-- The answer to a client, from its line and its receiver. -/
theorem askInstalled_answer {r : Receiver} (hl : w.lines.get? s.id = some l)
    (hr : l.receiver = some r) :
    (w.askInstalled s.id).map (·.1) = some (l.askInstalled r).1 := by
  simp only [World.askInstalled, receiver?_eq_some.mpr ⟨hl, hr⟩]
  rfl

/-! ## The history of a signal -/

/-- The signal is there if the subscription has been installed at some time. -/
theorem Traced.installed_iff (h : w.Traced s .held l) (h' : (w.after run).Traced s p l') :
    l'.installed = true ↔
      ∃ earlier, earlier <+: run ∧ s ∈ (w.after earlier).hub.index.values := by
  induction run using List.reverseRecOn generalizing p l' with
  | nil =>
    obtain ⟨rfl, rfl⟩ := h.unique h'
    rw [(h.fits.waiting (.inl rfl)).1]
    refine ⟨by simp, ?_⟩
    rintro ⟨earlier, hpre, hm⟩
    rw [List.prefix_nil] at hpre
    subst hpre
    cases h.mem_values.mp hm
  | append_singleton run a ih =>
    obtain ⟨p₁, l₁, h₁, -⟩ := h.after run
    have hact := h₁.act a
    rw [← after_concat] at hact
    obtain ⟨rfl, rfl⟩ := h'.unique hact
    obtain ⟨hcomes, hstays⟩ :=
      Change.line_installed s l₁ p₁ ((w.after run).change s a)
    constructor
    · intro hi
      rcases hcomes hi with hi | hp
      · obtain ⟨earlier, hpre, hm⟩ := (ih h₁).mp hi
        exact ⟨earlier, hpre.trans (List.prefix_append run [a]), hm⟩
      · exact ⟨run ++ [a], List.prefix_refl _, h'.mem_values.mpr hp⟩
    · rintro ⟨earlier, hpre, hm⟩
      rcases List.prefix_concat_iff.mp hpre with rfl | hpre
      · exact hact.fits.listed (h'.mem_values.mp hm)
      · exact hstays ((ih h₁).mpr ⟨earlier, hpre, hm⟩)

/-- A client that was told to wait has taken its signal. Where it has been told no error, it has
taken the signal only so, or after its installation. -/
theorem Traced.asked_iff {buffer : Nat} {attached : Bool}
    (h : w.Traced s .held (.new s.kind buffer attached)) (h' : (w.after run).Traced s p l')
    {r : Receiver} (hr : l'.receiver = some r) (ht : r.terminal = none) :
    r.asked = true ∨ l'.installed = true ↔ w.ToldToWait s.id run ∨ l'.installed = true := by
  induction run using List.reverseRecOn generalizing p l' r with
  | nil =>
    obtain ⟨rfl, rfl⟩ := h.unique h'
    cases hr
    have hnever : ¬ w.ToldToWait s.id [] := by
      rintro ⟨earlier, hpre, -⟩
      simp at hpre
    simp [hnever]
  | append_singleton run a ih =>
    obtain ⟨p₁, l₁, h₁, -⟩ := h.after run
    have hact := h₁.act a
    rw [← after_concat] at hact
    obtain ⟨rfl, rfl⟩ := h'.unique hact
    obtain ⟨r₁, hr₁, hterm, hcase⟩ := Line.receiverAfter_memory hr
    rw [Change.line_receiver] at hr₁
    have hstays := (Change.line_installed s l₁ p₁ ((w.after run).change s a)).2
    have hbefore := ih h₁ hr₁ (hterm ht)
    rcases hcase with ⟨hne, hasked⟩ | ⟨rfl, rfl⟩
    · rw [toldToWait_concat hne, hasked]
      -- the signal may have come with this action, and then both sides hold
      by_cases hi : l₁.installed = true
      · have hi' := hstays hi
        simp only [Line.called] at hi' ⊢
        simp [hi']
      · simp only [hi, Bool.false_eq_true, or_false] at hbefore
        rw [hbefore]
    · have hline : (w.after run).change s (.askInstalled s.id) = .nothing := rfl
      rw [hline]
      have hans := askInstalled_answer h₁.line hr₁
      have hasked := Line.askInstalled_asked (l := l₁) (hterm ht)
      have hsaid := (Line.askInstalled_cases (l := l₁) ht).2
      refine ⟨fun _ => ?_, fun _ => .inl hasked⟩
      rcases hsaid with hsaid | hsaid
      · have hsignal := (Line.askInstalled_eq_installed.mp hsaid).2
        exact (hbefore.mp hsignal).imp_left fun hw => hw.mono (List.prefix_append run _)
      · rw [hsaid] at hans
        exact .inl ⟨run, List.prefix_refl _, hans⟩

/-! ## What a client is told -/

/--
**When a client is told that it has been installed.** After every run that follows the making of
a subscription: just when its receiver is there and has been told no error, and the subscription
has been installed at some time or the client was told to wait before.
-/
theorem installation_answers {bus : Bus} {config : Config} {governor : Governor}
    {before : List Action} {a : Action} {s : Subscription}
    (h : ((start bus config governor).after before).brought a = some s) (run : List Action) :
    let w₁ := ((start bus config governor).after before).act a
    ((w₁.after run).askInstalled s.id).map (·.1) = some .installed ↔
      (∃ l r, (w₁.after run).receiver? s.id = some (l, r) ∧ r.terminal = none) ∧
        ((∃ earlier, earlier <+: run ∧ s ∈ (w₁.after earlier).hub.index.values) ∨
          w₁.ToldToWait s.id run) := by
  intro w₁
  have hroster := after_roster (start_roster bus config governor) before
  obtain ⟨buffer, attached, h₁⟩ : ∃ buffer attached,
      w₁.Traced s .held (.new s.kind buffer attached) := traced_of_brought hroster h
  obtain ⟨p, l, h', -⟩ := h₁.after run
  rw [← h₁.installed_iff h']
  cases hr : l.receiver with
  | none =>
    have hnone : (w₁.after run).receiver? s.id = none := by
      rw [receiver?_eq_none]
      intro l' hl'
      rw [h'.line, Option.some.injEq] at hl'
      rw [← hl', hr]
    simp [World.askInstalled, hnone]
  | some r =>
    rw [askInstalled_answer h'.line hr, Option.some.injEq, Line.askInstalled_eq_installed,
      receiver?_eq_some.mpr ⟨h'.line, hr⟩]
    by_cases ht : r.terminal = none
    · rw [h₁.asked_iff h' hr ht, or_comm]
      simp [ht]
    · simp [ht]

/-- A client is told to wait, and that it has been installed when it has. -/
theorem installation_answers_waited :
    let s : Subscription := ⟨.issued 0, .newHeads, headerTopic, none⟩
    let w := start (Bus.sized 4) {} .absent
    let w₁ := w.act (.makeWithin .newHeads none)
    let run : List Action := [.submit s.id, .askInstalled s.id, .turn .install]
    w.brought (.makeWithin .newHeads none) = some s ∧
      ((w₁.after run).askInstalled s.id).map (·.1) = some .installed ∧
      ((∃ earlier, earlier <+: run ∧ s ∈ (w₁.after earlier).hub.index.values) ∨
        w₁.ToldToWait s.id run) := by
  intro s w w₁ run
  have hbrought : w.brought (.makeWithin .newHeads none) = some s := by rfl
  have hanswer : ((w₁.after run).askInstalled s.id).map (·.1) = some .installed := by decide
  have h := @installation_answers (Bus.sized 4) {} .absent [] _ s hbrought run
  exact ⟨hbrought, hanswer, (h.mp hanswer).2⟩

/-- The bus refuses the topic of a subscription whose client was told to wait. The subscription
has never been installed, and the client is told that it has been. -/
theorem installation_answers_refused :
    let s : Subscription := ⟨.issued 0, .newHeads, headerTopic, none⟩
    let w := (start (Bus.sized 4) {} .absent).after [.busClose, .makeWithin .newHeads none]
    let run : List Action := [.submit s.id, .askInstalled s.id, .turn .install]
    w.InOrder run ∧ (∀ earlier, earlier <+: run → s ∉ (w.after earlier).hub.index.values) ∧
      ((w.after run).lines.get? s.id).map Line.reason =
        some (some (.registrationFailed .closed)) ∧
      ((w.after run).askInstalled s.id).map (·.1) = some .installed := by
  intro s w run
  have hnever : ∀ earlier ∈ run.inits, s ∉ (w.after earlier).hub.index.values := by decide
  exact ⟨by decide, fun earlier hpre => hnever earlier ((List.mem_inits _ _).mpr hpre), by decide,
    by decide⟩

end World

end EventFanout
