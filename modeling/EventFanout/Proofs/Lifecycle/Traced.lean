/-
EventFanout.Proofs.Lifecycle.Traced — one subscription, followed along a run.

`World.Traced w s p l` says all that is known of a subscription in a world: it is in the place
`p`, its line is `l`, and the line is as the place demands. What an action is to the
subscription tells the next place and the next line (`Traced.act`), so a subscription that has
been made is traced for good.

Main statements: a subscription is traced from the moment it is made (`traced_of_brought`), and
what is gone stays gone, with its line as it was left (`Traced.gone_after`).
-/
import EventFanout.Proofs.Lifecycle.Accepted

namespace EventFanout

namespace Change

variable {c : Change} {p : World.Place} {l : Line}

/-- Nobody is held again who is not held any more. -/
theorem place_ne_held (hp : p ≠ .held) (c : Change) : c.place p ≠ .held := by
  cases c <;> first | exact hp | simp [Change.place]

/-- Nothing more can become of what is gone. -/
theorem Fitting.eq_nothing (h : c.Fitting .gone l) : c = .nothing := by
  cases c with
  | nothing => rfl
  | ended r => exact absurd rfl h.1
  | _ => cases h

/-- What was taken in goes only by ending. -/
theorem Fitting.eq_ended (h : c.Fitting p l) (hheld : p ≠ .held) (hp : p ≠ .gone)
    (hgone : c.place p = .gone) : ∃ r, c = .ended r := by
  cases c with
  | nothing => exact absurd hgone hp
  | heard e => exact absurd hgone hp
  | handedIn => cases hgone
  | installed => cases hgone
  | givenUp => exact absurd h hheld
  | ended r => exact ⟨r, rfl⟩

/-- Who waits or is installed after a change was handed in with it, or was there before. -/
theorem Fitting.before (h : c.Fitting p l) (hp : c.place p = .queued ∨ c.place p = .indexed) :
    c = .handedIn ∨ p = .queued ∨ p = .indexed := by
  cases c with
  | nothing => exact .inr hp
  | handedIn => exact .inl rfl
  | heard e => exact .inr hp
  | installed => exact .inr (.inl h)
  | givenUp => simp [place] at hp
  | ended r => simp [place] at hp

end Change

namespace World

def brought (w : World) : Action → Option Subscription
  | .make kind criteria topic buffer =>
    match w.create kind criteria topic buffer false with
    | .ok (s, _) => some s
    | .error _ => none
  | .makeWithin kind criteria =>
    match w.newSubscription kind criteria with
    | .ok (s, _) => some s
    | .error _ => none
  | _ => none

/-- A subscription is in a place, and its line is as the place demands. -/
structure Traced (w : World) (s : Subscription) (p : Place) (l : Line) : Prop where
  roster : w.Roster
  place : w.In s p
  line : w.lines.get? s.id = some l
  fits : l.Fits s p

variable {w : World} {s : Subscription} {p : Place} {l : Line}

namespace Traced

theorem act (h : w.Traced s p l) (a : Action) :
    (w.act a).Traced s ((w.change s a).place p) (((w.change s a).line s l).called s.id a) := by
  obtain ⟨hp, hl, hf⟩ := act_fits h.roster h.place h.line h.fits a
  exact ⟨act_roster h.roster a, hp, hl, hf⟩

theorem after (h : w.Traced s p l) (run : List Action) :
    ∃ p' l', (w.after run).Traced s p' l' ∧ (p ≠ .held → p' ≠ .held) := by
  induction run generalizing w p l with
  | nil => exact ⟨p, l, h, id⟩
  | cons a rest ih =>
    obtain ⟨p', l', h', hheld⟩ := ih (h.act a)
    exact ⟨p', l', h', fun hp => hheld (Change.place_ne_held hp _)⟩

theorem unique {p' : Place} {l' : Line} (h : w.Traced s p l) (h' : w.Traced s p' l') :
    p = p' ∧ l = l' := by
  have hl := h.line
  rw [h'.line, Option.some.injEq] at hl
  exact ⟨h.roster.place_unique h.place h'.place, hl.symm⟩

/-- Its identity is in the index just while it is installed. -/
theorem mem_ids (h : w.Traced s p l) : s.id ∈ w.hub.ids ↔ p = .indexed :=
  h.roster.mem_ids h.place

theorem mem_values (h : w.Traced s p l) : s ∈ w.hub.index.values ↔ p = .indexed :=
  h.roster.mem_values h.place

/-- Nothing that happens is anything to a subscription that is gone. -/
theorem change_gone (h : w.Traced s .gone l) (a : Action) : w.change s a = .nothing :=
  (change_fitting h.roster h.place h.line a).eq_nothing

theorem gone_act (h : w.Traced s .gone l) (a : Action) :
    (w.act a).Traced s .gone (l.called s.id a) := by
  have hact := h.act a
  rwa [h.change_gone a] at hact

/-- What is gone stays gone, and the hub's half of its line stays as it is. -/
theorem gone_after (h : w.Traced s .gone l) (run : List Action) :
    ∃ l', (w.after run).Traced s .gone l' ∧ l'.buffer = l.buffer ∧ l'.installed = l.installed ∧
      l'.reason = l.reason := by
  induction run generalizing w l with
  | nil => exact ⟨l, h, rfl, rfl, rfl⟩
  | cons a rest ih =>
    obtain ⟨l', h', hb, hi, hr⟩ := ih (h.gone_act a)
    exact ⟨l', h', hb, hi, hr⟩

end Traced

/-! ## Where tracing begins -/

theorem traced_of_fits (h : w.Roster) (hw : w.AllFit) (hp : p ≠ .gone) (hs : w.In s p) :
    ∃ l, w.Traced s p l := by
  obtain ⟨l, hl, hf⟩ := hw s p hp hs
  exact ⟨l, h, hs, hl, hf⟩

/-- A subscription that has been taken in is traced, and waits. -/
theorem traced_of_accepted (h : w.Roster) (hw : w.AllFit) (hs : w.Accepts s) :
    ∃ l, (w.act (.submit s.id)).Traced s .queued l := by
  obtain ⟨l, hp, hl, hf⟩ := accepted_queued h hw hs
  exact ⟨l, act_roster h _, hp, hl, hf⟩

theorem traced_made (h : w.Roster) (hid : s.id = .issued w.issued) (buffer : Nat)
    (attached : Bool) :
    (w.made s buffer attached).Traced s .held (.new s.kind buffer attached) where
  roster := h.made hid buffer attached
  place := (made_new h hid buffer attached).1
  line := (made_new h hid buffer attached).2
  fits := fits_new s buffer attached

/-- What is made within the limits of the hub has a receiver that is attached. -/
theorem traced_of_newSubscription (h : w.Roster) {kind : Kind} {criteria : Option Criteria}
    {w' : World} (hs : w.newSubscription kind criteria = .ok (s, w')) :
    ∃ buffer, (w.act (.makeWithin kind criteria)).Traced s .held (.new s.kind buffer true) := by
  obtain ⟨hid, buffer, rfl⟩ := newSubscription_ok hs
  refine ⟨buffer, ?_⟩
  simp only [World.act, hs]
  exact traced_made h hid buffer true

/-- A subscription that has just been made is traced, with a new line. -/
theorem traced_of_brought (h : w.Roster) {a : Action} (hs : w.brought a = some s) :
    ∃ buffer attached, (w.act a).Traced s .held (.new s.kind buffer attached) := by
  cases a with
  | make kind criteria topic buffer =>
    simp only [brought] at hs
    split at hs
    · rename_i s' w' hc
      cases hs
      obtain ⟨hid, rfl⟩ := create_ok hc
      refine ⟨buffer, false, ?_⟩
      simp only [World.act, hc]
      exact traced_made h hid buffer false
    · cases hs
  | makeWithin kind criteria =>
    simp only [brought] at hs
    split at hs
    · rename_i s' w' hc
      cases hs
      obtain ⟨buffer, hnew⟩ := traced_of_newSubscription h hc
      exact ⟨buffer, true, hnew⟩
    · cases hs
  | _ => cases hs

/-- Whoever has been made in a run is traced after it. -/
theorem traced_of_along (h : w.Roster) {run : List Action} (hs : s ∈ along brought w run) :
    ∃ p l, (w.after run).Traced s p l := by
  obtain ⟨earlier, a, later, rfl, ha⟩ := mem_along hs
  obtain ⟨buffer, attached, hmade⟩ := traced_of_brought (after_roster h earlier) ha
  obtain ⟨p, l, htraced, -⟩ := hmade.after later
  rw [after_append]
  exact ⟨p, l, htraced⟩

end World

end EventFanout
