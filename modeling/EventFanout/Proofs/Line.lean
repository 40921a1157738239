/-
EventFanout.Proofs.Line — the client's half of a line.

An error that a client is told is the true one: the line is closed, and the error is the
reason it was closed for. `Line.Honest` is the invariant, since an error once told is
told again from memory.
-/
import EventFanout.Hub.Calls
import EventFanout.Proofs.Channel

namespace EventFanout

namespace Line

/-- What a receiver remembers of an error is how its line has ended. -/
def Trusts (l : Line) (r : Receiver) : Prop :=
  ∀ e, r.terminal = some e → l.isClosed = true ∧ e = l.ending

/-- The client of a line has been told no error but the one the line has ended with. -/
def Honest (l : Line) : Prop := ∀ r, l.receiver = some r → l.Trusts r

variable {l : Line} {r : Receiver}

theorem Trusts.of_terminal {r' : Receiver} (h : l.Trusts r) (e : r'.terminal = r.terminal) :
    l.Trusts r' := by
  intro err he
  rw [e] at he
  exact h err he

theorem Trusts.tryError (h : l.Trusts r) :
    l.Trusts (l.tryError r).2 ∧
      ∀ e, (l.tryError r).1 = some e → l.isClosed = true ∧ e = l.ending := by
  unfold Line.tryError
  split
  · rename_i e he
    refine ⟨h, fun e' he' => h e' ?_⟩
    rw [he]
    exact he'
  · rename_i hn
    split
    · rename_i hc
      refine ⟨fun e he => ⟨hc, ?_⟩, fun e he => ⟨hc, ?_⟩⟩
      · exact (Option.some.inj he).symm
      · exact (Option.some.inj he).symm
    · exact ⟨h, fun e he => by cases he⟩

/-- On a closed line the error to tell is how it has ended. -/
theorem Trusts.takeError (h : l.Trusts r) (hc : l.isClosed = true) :
    l.Trusts (l.takeError r).2 ∧ (l.takeError r).1 = l.ending := by
  obtain ⟨ht, hans⟩ := h.tryError
  refine ⟨ht, ?_⟩
  show (l.tryError r).1.getD .closed = l.ending
  cases he : (l.tryError r).1 with
  | some e => exact (hans e he).2
  | none =>
    unfold Line.tryError at he
    split at he
    · cases he
    · rw [if_pos hc] at he
      cases he

theorem Trusts.askInstalled (h : l.Trusts r) :
    l.Trusts (l.askInstalled r).2 ∧
      ∀ e, (l.askInstalled r).1 = .failed e → l.isClosed = true ∧ e = l.ending := by
  have hasked : l.Trusts { r with asked := true } := h.of_terminal rfl
  unfold Line.askInstalled
  split
  · rename_i e he
    exact ⟨h, fun e' he' => h e' (by rw [he]; cases he'; rfl)⟩
  · split
    · exact ⟨h, fun e he => by cases he⟩
    · simp only
      split
      · exact ⟨hasked, fun e he => by cases he⟩
      · split
        · rename_i hc
          obtain ⟨ht, hans⟩ := hasked.takeError hc
          refine ⟨ht, fun e he => ⟨hc, ?_⟩⟩
          rw [← hans]
          exact (Installation.failed.inj he).symm
        · exact ⟨hasked, fun e he => by cases he⟩

theorem closed_of_receive_ended {α : Type} {c : Channel α} {next next' : Nat}
    (h : c.receive next = (.ended, next')) : c.closed = true := by
  unfold Channel.receive at h
  simp only at h
  split at h
  · cases h
  · cases hc : c.closed with
    | true => rfl
    | false =>
      rw [hc] at h
      cases h

theorem Trusts.receive (h : l.Trusts r) :
    l.Trusts (l.receive r).2 ∧
      ∀ e, (l.receive r).1 = .failed e → l.isClosed = true ∧ e = l.ending := by
  unfold Line.receive
  split
  · rename_i e he
    exact ⟨h, fun e' he' => h e' (by rw [he]; cases he'; rfl)⟩
  · split
    · exact ⟨h.of_terminal rfl, fun e he => by cases he⟩
    · exact ⟨h.of_terminal rfl, fun e he => by cases he⟩
    · rename_i next hrec
      have hc : l.isClosed = true := closed_of_receive_ended hrec
      have hnext : l.Trusts { r with next } := h.of_terminal rfl
      obtain ⟨ht, hans⟩ := hnext.takeError hc
      refine ⟨ht, fun e he => ⟨hc, ?_⟩⟩
      rw [← hans]
      exact (Delivery.failed.inj he).symm

/-! ## What a call does to a receiver -/

/-- To ask for the error is at most to be told it. An error that was told is not forgotten. -/
theorem tryError_receiver (l : Line) (r : Receiver) : ∃ terminal,
    (l.tryError r).2 = { r with terminal } ∧ (terminal = none → r.terminal = none) := by
  unfold Line.tryError
  split
  · exact ⟨r.terminal, rfl, id⟩
  · rename_i hn
    split
    · exact ⟨_, rfl, fun _ => hn⟩
    · exact ⟨r.terminal, rfl, id⟩

theorem askInstalled_receiver (l : Line) (r : Receiver) : ∃ asked terminal,
    (l.askInstalled r).2 = { r with asked, terminal } ∧ (terminal = none → r.terminal = none) := by
  unfold Line.askInstalled
  split
  · exact ⟨r.asked, r.terminal, rfl, id⟩
  · rename_i hn
    split
    · exact ⟨r.asked, r.terminal, rfl, id⟩
    · simp only
      split
      · exact ⟨true, r.terminal, rfl, id⟩
      · split
        · obtain ⟨terminal, he, -⟩ := tryError_receiver l { r with asked := true }
          exact ⟨true, terminal, he, fun _ => hn⟩
        · exact ⟨true, r.terminal, rfl, id⟩

theorem receive_receiver (l : Line) (r : Receiver) : ∃ next terminal,
    (l.receive r).2 = { r with next, terminal } ∧ (terminal = none → r.terminal = none) := by
  unfold Line.receive
  split
  · exact ⟨r.next, r.terminal, rfl, id⟩
  · rename_i hn
    split
    · exact ⟨_, r.terminal, rfl, id⟩
    · exact ⟨_, r.terminal, rfl, id⟩
    · rename_i next _
      obtain ⟨terminal, he, -⟩ := tryError_receiver l { r with next }
      exact ⟨next, terminal, he, fun _ => hn⟩

/-! ## Where the client is -/

def taken (l : Line) (r : Receiver) : Option (Nat × Notification) :=
  match (l.receive r).1 with
  | .notification n => some (max r.next l.buffer.oldest, n)
  | _ => none

/-- To receive is one attempt to read the buffer. -/
theorem receive_moves (l : Line) (r : Receiver) :
    l.buffer.Moves r.next (l.taken r) (l.receive r).2.next := by
  cases ht : r.terminal with
  | some e =>
    have hr : l.receive r = (.failed e, r) := by simp only [Line.receive, ht]
    rw [taken, hr]
    exact .stays
  | none =>
    rcases Channel.receive_cases l.buffer r.next with ⟨n, hn, he⟩ | ⟨_, he⟩
    · have hr : l.receive r =
          (.notification n, { r with next := max r.next l.buffer.oldest + 1 }) := by
        simp only [Line.receive, ht, he]
      rw [taken, hr]
      exact .reads hn
    · cases hc : l.buffer.closed with
      | true =>
        rw [hc, if_pos rfl] at he
        have hr : l.receive r =
            (.failed (l.takeError { r with next := max r.next l.buffer.oldest }).1,
              (l.takeError { r with next := max r.next l.buffer.oldest }).2) := by
          simp only [Line.receive, ht, he]
        have hnext : (l.takeError { r with next := max r.next l.buffer.oldest }).2.next =
            max r.next l.buffer.oldest := by
          obtain ⟨_, he', -⟩ := tryError_receiver l { r with next := max r.next l.buffer.oldest }
          exact congrArg Receiver.next he'
        rw [taken, hr, hnext]
        exact .skips
      | false =>
        rw [hc, if_neg Bool.false_ne_true] at he
        have hr : l.receive r = (.pending, { r with next := max r.next l.buffer.oldest }) := by
          simp only [Line.receive, ht, he]
        rw [taken, hr]
        exact .skips

/-- A client that has been told no error, and receives no notification, has read all there is. -/
theorem le_of_receive {l : Line} {r : Receiver} (ht : r.terminal = none)
    (hn : ∀ n, (l.receive r).1 ≠ .notification n) : l.buffer.size ≤ max r.next l.buffer.oldest := by
  rcases Channel.receive_cases l.buffer r.next with ⟨n, _, he⟩ | ⟨hle, _⟩
  · refine absurd ?_ (hn n)
    simp only [Line.receive, ht, he]
  · exact hle

end Line

namespace World

theorem receiver?_eq_some {w : World} {id : SubscriptionId} {l : Line} {r : Receiver} :
    w.receiver? id = some (l, r) ↔ w.lines.get? id = some l ∧ l.receiver = some r := by
  unfold receiver?
  cases w.lines.get? id with
  | none => simp
  | some l' =>
    cases hr : l'.receiver with
    | none =>
      simp only [hr, bind, Option.bind, Option.some.injEq, reduceCtorEq, false_iff, not_and]
      rintro rfl
      simp [hr]
    | some r' =>
      simp only [hr, bind, Option.bind, pure, Option.some.injEq, Prod.mk.injEq]
      constructor
      · rintro ⟨rfl, rfl⟩
        exact ⟨rfl, hr⟩
      · rintro ⟨rfl, h⟩
        rw [hr] at h
        exact ⟨rfl, Option.some.inj h⟩

theorem receiver?_eq_none {w : World} {id : SubscriptionId} :
    w.receiver? id = none ↔ ∀ l, w.lines.get? id = some l → l.receiver = none := by
  constructor
  · intro h l hl
    cases hr : l.receiver with
    | none => rfl
    | some r =>
      rw [receiver?_eq_some.mpr ⟨hl, hr⟩] at h
      cases h
  · intro h
    cases hr : w.receiver? id with
    | none => rfl
    | some pair =>
      obtain ⟨hl, hr'⟩ := receiver?_eq_some.mp (show w.receiver? id = some (pair.1, pair.2) from hr)
      rw [h _ hl] at hr'
      cases hr'

@[simp] theorem requestRemoval_lines (w : World) (id : SubscriptionId) :
    (w.requestRemoval id).lines = w.lines := by
  unfold requestRemoval
  split <;> rfl

end World

end EventFanout
