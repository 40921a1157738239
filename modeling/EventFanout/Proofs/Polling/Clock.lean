/-
EventFanout.Proofs.Polling.Clock — what a move leaves alone.

A move may set the clock, and it may set when the next sweep is due; which of these it sets, and
to what, the move tells (`World.timeAfter`, `World.dueAfter`). Whatever else it does is a run of
actions that keep off both, and that call no receivers but those that are for the move to call
(`World.calls`). Main statement: `move_runs`.

So the clock goes on by what a move advances it and otherwise stands still, only a tick sets when
the next sweep is due, and the receiver of a filter's subscription is for its creation and its task
only.
-/
import EventFanout.Proofs.Polling.Filters

namespace EventFanout

/-- An action that leaves alone the clock and when the next sweep is due, and calls no receivers but
those of some subscriptions. -/
structure Action.Quiet (due : Nat) (own : SubscriptionId → Prop) (a : Action) : Prop where
  clock : ∀ time, a ≠ .setClock time
  books : ∀ p n, a = .keepBooks p n → p.sweepDue = due
  calls : ∀ id, a.callee? = some id → own id

namespace World

variable {w w' : World} {own : SubscriptionId → Prop} {a : Action}

/-! ## Quiet runs -/

/-- Quiet actions lead from one world to the other. -/
def Runs (own : SubscriptionId → Prop) (w w' : World) : Prop :=
  ∃ run, w' = w.after run ∧ ∀ a ∈ run, a.Quiet w.polling.sweepDue own

theorem act_quiet (ha : a.Quiet w.polling.sweepDue own) :
    (w.act a).now = w.now ∧ (w.act a).polling.sweepDue = w.polling.sweepDue := by
  refine ⟨act_now w ha.clock, ?_⟩
  cases hbooks : a.leavesBooks with
  | true => rw [act_polling w hbooks]
  | false =>
    cases a with
    | keepBooks p n => exact ha.books p n rfl
    | _ => cases hbooks

namespace Runs

/-- Neither the clock nor when the next sweep is due changes. -/
theorem standing (h : Runs own w w') :
    w'.now = w.now ∧ w'.polling.sweepDue = w.polling.sweepDue := by
  obtain ⟨run, rfl, hrun⟩ := h
  induction run generalizing w with
  | nil => exact ⟨rfl, rfl⟩
  | cons a rest ih =>
    obtain ⟨hnow, hdue⟩ := act_quiet (hrun a List.mem_cons_self)
    have hrest := ih (w := w.act a) fun a' ha' => hdue ▸ hrun a' (List.mem_cons_of_mem _ ha')
    exact ⟨hrest.1.trans hnow, hrest.2.trans hdue⟩

theorem refl (own : SubscriptionId → Prop) (w : World) : Runs own w w := ⟨[], rfl, by simp⟩

theorem trans {w'' : World} (h : Runs own w w') (h' : Runs own w' w'') : Runs own w w'' := by
  have hdue := h.standing.2
  obtain ⟨run, rfl, hrun⟩ := h
  obtain ⟨run', rfl, hrun'⟩ := h'
  refine ⟨run ++ run', (after_append _ _ _).symm, fun a ha => ?_⟩
  exact (List.mem_append.mp ha).elim (hrun a) fun ha' => hdue ▸ hrun' a ha'

theorem act (w : World) (ha : a.Quiet w.polling.sweepDue own) : Runs own w (w.act a) := by
  refine ⟨[a], rfl, fun a' ha' => ?_⟩
  rw [List.mem_singleton.mp ha']
  exact ha

theorem write (w : World) {p : Polling} (hp : p.sweepDue = w.polling.sweepDue) :
    Runs own w { w with polling := p } := by
  have hact : Runs own w (w.act (.keepBooks p 0)) :=
    act w ⟨by simp, by rintro p n ⟨⟩; exact hp, by simp⟩
  rwa [act_keepBooks] at hact

theorem dropReceiver (w : World) {id : SubscriptionId} (hid : own id) :
    Runs own w (w.dropReceiver id) :=
  act (a := .dropReceiver id) w ⟨by simp, by simp, by simpa using hid⟩

theorem foldl {α : Type} {f : World → α → World} (hf : ∀ w a, Runs own w (f w a)) (l : List α)
    (w : World) : Runs own w (l.foldl f w) := by
  induction l generalizing w with
  | nil => exact refl own w
  | cons a rest ih => exact (hf w a).trans (ih (f w a))

end Runs

/-! ## What the calls of the registry come to -/

theorem removeFilter_runs (w : World) (id : SubscriptionId) : Runs own w (w.removeFilter id) := by
  rw [removeFilter_eq]
  exact (Runs.write w (by rfl)).trans (.act (a := .requestRemoval id) _ ⟨by simp, by simp, by simp⟩)

theorem sweep_runs (w : World) : Runs own w w.sweep.2 := by
  refine (Runs.foldl removeFilter_runs w.expired w).trans ?_
  exact .act (a := .keepBooks _ (.ofNat w.expired.length)) _
    ⟨by simp, by rintro p n ⟨⟩; rfl, by simp⟩

theorem beginFilter_runs (w : World) (request : FilterRequest) :
    Runs (· = .issued w.issued) w (w.beginFilter request).2 := by
  have hmake : Runs (· = .issued w.issued) w (w.act (.makeWithin request.kind request.criteria)) :=
    .act w ⟨by simp, by simp, by simp⟩
  have hsubmit : ∀ (w' : World) (id : SubscriptionId),
      Runs (· = .issued w.issued) w' (w'.act (.submit id)) :=
    fun w' _ => .act w' ⟨by simp, by simp, by simp⟩
  rcases beginFilter_cases w request with ⟨-, h⟩ | ⟨-, e, w', h, -, -, rfl | ⟨s, w₁, hs, rfl⟩⟩ |
    ⟨-, s, w₁, -, h⟩ <;> rw [h]
  · exact .refl _ w
  · exact .refl _ _
  · exact (hmake.trans (hsubmit _ s.id)).trans (.dropReceiver _ (newSubscription_ok hs).1)
  · refine (hmake.trans (hsubmit _ s.id)).trans (.write _ ?_)
    exact (hmake.trans (hsubmit _ s.id)).standing.2.symm

theorem finishFilter_runs {c : Creation} {result : Except FilterError Unit}
    (h : w.finishFilter c = (some result, w')) : Runs (c.id = ·) w w' := by
  have hask : Runs (c.id = ·) w (w.act (.askInstalled c.id)) :=
    .act w ⟨by simp, by simp, by simp⟩
  rcases finishFilter_cases w c with ⟨-, he⟩ | ⟨e, -, he⟩ | he
  · rw [h, Prod.mk.injEq] at he
    rw [he.2]
    exact hask.trans (.write _ rfl)
  · rw [h, Prod.mk.injEq] at he
    rw [he.2]
    exact (hask.trans (.write _ (by rfl))).trans (.dropReceiver _ rfl)
  · rw [h] at he
    cases he

theorem endDrain_runs (w : World) (id : SubscriptionId) : Runs (id = ·) w (w.endDrain id) :=
  Runs.trans (.write w (by rfl)) (.dropReceiver _ (by rfl))

theorem drainStep_runs {id : SubscriptionId} (h : w.drainStep id = some w') :
    Runs (id = ·) w w' := by
  have hread : Runs (id = ·) w (w.act (.receive id)) := .act w ⟨by simp, by simp, by simp⟩
  rcases drainStep_cases w id with he | ⟨-, he⟩ | ⟨-, n, -, he⟩ | ⟨-, e, -, he⟩ <;>
    rw [h] at he <;> cases he
  · exact endDrain_runs w id
  · exact hread.trans (.write _ rfl)
  · refine hread.trans (Runs.trans ?_ (endDrain_runs _ id))
    split
    · exact .write _ rfl
    · exact .refl _ _

/-! ## Moves -/

def timeAfter (w : World) : Move → Nat
  | .advance time => w.now + time
  | _ => w.now

def dueAfter (w : World) : Move → Nat
  | .tick =>
    if w.polling.live && w.polling.sweepDue ≤ w.now then w.nextSweep else w.polling.sweepDue
  | _ => w.polling.sweepDue

/-- The receivers that are for a move to call. -/
def calls (w : World) : Move → SubscriptionId → Prop
  | .act _, id => id ∉ w.polling.ids
  | .create _, id => id = .issued w.issued
  | .finish id', id | .drain id', id => id' = id
  | _, _ => False

def clocked (w : World) (time due : Nat) : World :=
  { w with polling.sweepDue := due, now := time }

/-- But for the clock and when the next sweep is due, a move is a quiet run. -/
theorem move_runs (w : World) (m : Move) :
    Runs (w.calls m) (w.clocked (w.timeAfter m) (w.dueAfter m)) (w.move m) := by
  cases m with
  | act a =>
    show Runs (· ∉ w.polling.ids) w _
    simp only [move]
    split
    · rename_i ha
      refine .act w ⟨?_, ?_, fun id hid hbooks => Action.callee?_of_foreign ha hbooks hid⟩
      · rintro time rfl
        cases ha
      · rintro p n rfl
        cases ha
    · exact .refl _ w
  | create request =>
    show Runs (· = .issued w.issued) w _
    simp only [move]
    split
    · exact beginFilter_runs w request
    · exact .refl _ w
  | finish id =>
    show Runs (id = ·) w _
    simp only [move]
    split
    · exact .refl _ w
    · rename_i c hfind
      obtain rfl : c.id = id := by simpa using List.find?_some hfind
      split
      · rename_i h
        exact finishFilter_runs h
      · exact .refl _ w
  | poll id =>
    show Runs _ w _
    simp only [move, poll]
    split
    · exact .refl _ w
    · exact .write w rfl
  | uninstall id =>
    show Runs _ w _
    simp only [move, uninstallFilter]
    split
    · exact removeFilter_runs w id
    · exact .refl _ w
  | sweep =>
    show Runs _ w _
    simp only [move]
    split
    · exact sweep_runs w
    · exact .refl _ w
  | tick =>
    simp only [move, runSweeper, dueAfter]
    split
    · exact sweep_runs _
    · exact .refl _ w
  | drain id =>
    show Runs (id = ·) w _
    simp only [move]
    cases h : w.drainStep id with
    | none => exact .refl _ w
    | some w' => exact drainStep_runs h
  | advance time => exact .refl _ _
  | close =>
    show Runs _ w _
    simp only [move]
    split
    · exact .write w rfl
    · exact .refl _ w

theorem move_now (w : World) (m : Move) : (w.move m).now = w.timeAfter m :=
  (move_runs w m).standing.1

theorem move_sweepDue (w : World) (m : Move) : (w.move m).polling.sweepDue = w.dueAfter m :=
  (move_runs w m).standing.2

theorem le_move_now (w : World) (m : Move) : w.now ≤ (w.move m).now := by
  rw [move_now]
  unfold timeAfter
  split
  · exact Nat.le_add_right _ _
  · exact Nat.le_refl _

theorem le_through_now (w : World) (moves : List Move) : w.now ≤ (w.through moves).now := by
  induction moves generalizing w with
  | nil => exact Nat.le_refl _
  | cons m rest ih => exact (le_move_now w m).trans (ih (w.move m))

end World

end EventFanout
