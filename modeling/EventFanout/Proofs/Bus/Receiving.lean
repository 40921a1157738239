/-
EventFanout.Proofs.Bus.Receiving — what receiving through a handle answers.

A handle answers the first event that its channel still holds for it (`Bus.heldFor`), and then has
the rest (`receive_fst`, `heldFor_receive`). Once the channel has ended nothing is added: the handle
answers what it holds, one event after the other, and from then on that the topic has ended
(`receptions_of_ended`). Who reads item by item, up to the end, is told beforehand of what was lost
(`readOn_of_ended`).
-/
import EventFanout.Proofs.Bus

namespace EventFanout.Bus

variable {b : Bus} {h : Handle} {ch : TopicChannel} {next : Nat}

/-- The events that a handle has still to receive: what was sent since, as far as it is held. -/
def heldFor (b : Bus) (h : Handle) : List Event :=
  match b.position? h with
  | some (ch, next) => ch.log.held next
  | none => []

def receptions (b : Bus) (h : Handle) : Nat → List (Received Event)
  | 0 => []
  | n + 1 => (b.receive h).1 :: (b.receive h).2.receptions h n

theorem heldFor_eq (hp : b.position? h = some (ch, next)) : b.heldFor h = ch.log.held next := by
  simp only [heldFor, hp]

theorem receive_eq (hp : b.position? h = some (ch, next)) :
    b.receive h = ((ch.log.receive next).1, b.advance h (ch.log.receive next).2) := by
  simp only [receive, hp]

theorem position?_advance (hp : b.position? h = some (ch, next)) (next' : Nat) :
    (b.advance h next').position? h = some (ch.move h.reader next', next') := by
  obtain ⟨hch, -⟩ := position?_eq_some.mp hp
  exact position?_eq_some.mpr (advance_channel next' hch)

/-- A handle answers the first event held for it, and says how its channel stands where there is
none. -/
theorem receive_fst (hp : b.position? h = some (ch, next)) :
    (b.receive h).1 =
      match b.heldFor h with
      | e :: _ => .entry e
      | [] => if ch.log.closed then .ended else .pending := by
  rw [receive_eq hp, heldFor_eq hp]
  show (ch.log.receive next).1 = _
  rw [ch.log.receive_fst next]
  cases ch.log.held next <;> rfl

theorem position?_receive (hp : b.position? h = some (ch, next)) :
    (b.receive h).2.position? h =
      some (ch.move h.reader (ch.log.receive next).2, (ch.log.receive next).2) := by
  rw [receive_eq hp]
  exact position?_advance hp _

/-- What it has still to receive is then the rest. -/
theorem heldFor_receive (hp : b.position? h = some (ch, next)) :
    (b.receive h).2.heldFor h = (b.heldFor h).tail := by
  rw [heldFor_eq (position?_receive hp), heldFor_eq hp]
  exact ch.log.held_receive next

/-- A handle on a channel that has ended gives out what is held, and then tells of the end, over and
over again. -/
theorem receptions_of_ended (hp : b.position? h = some (ch, next)) (hc : ch.log.closed = true)
    (n : Nat) :
    b.receptions h n =
      ((b.heldFor h).map Received.entry ++ List.replicate n Received.ended).take n := by
  induction n generalizing b ch next with
  | zero => rfl
  | succ n ih =>
    have hp' := position?_receive hp
    rw [receptions, receive_fst hp, ih hp' hc, heldFor_receive hp]
    cases b.heldFor h with
    | nil => simp [hc, List.replicate_succ]
    | cons e rest =>
      have hlong : n ≤ (rest.map Received.entry ++ List.replicate n Received.ended).length := by
        rw [List.length_append, List.length_replicate]
        exact Nat.le_add_left _ _
      rw [List.tail_cons, List.map_cons, List.cons_append, List.take_succ_cons,
        List.replicate_succ', ← List.append_assoc, List.take_append_of_le_length hlong]

/-! ## Reading on -/

/-- What reading answers, so many times in a row, as long as there is something to read. Who has
read the end reads no more. -/
def readOn (b : Bus) (h : Handle) : Nat → List (Item Event)
  | 0 => []
  | n + 1 =>
    match b.read? h with
    | none => []
    | some (.ended, _) => [.ended]
    | some (item, b') => item :: b'.readOn h n

theorem read?_eq (hp : b.position? h = some (ch, next)) :
    b.read? h = (ch.log.read? next).map fun answer => (answer.1, b.advance h answer.2) := by
  simp only [read?, hp, bind, Option.bind]
  cases ch.log.read? next <;> rfl

theorem heldFor_advance (hp : b.position? h = some (ch, next)) (next' : Nat) :
    (b.advance h next').heldFor h = ch.log.held next' :=
  (heldFor_eq (position?_advance hp next')).trans rfl

/-- A handle that has lost nothing, on a channel that has ended, answers what is held and then the
end. -/
theorem readOn_of_kept (hp : b.position? h = some (ch, next)) (hc : ch.log.closed = true)
    (hkept : ¬ next < ch.log.oldest) (n : Nat) :
    b.readOn h n = ((b.heldFor h).map Item.entry ++ [Item.ended]).take n := by
  induction n generalizing b ch next with
  | zero => rfl
  | succ n ih =>
    rw [readOn, read?_eq hp, ch.log.read?_eq, if_neg hkept, heldFor_eq hp]
    cases hheld : ch.log.held next with
    | nil => simp [hc]
    | cons e rest =>
      have hkept' : ¬ next + 1 < ch.log.oldest := by omega
      have hleft : (b.advance h (next + 1)).heldFor h = rest := by
        rw [heldFor_advance hp, Channel.held_succ hkept, hheld, List.tail_cons]
      simp only [Option.map_some, ih (position?_advance hp _) hc hkept', hleft, List.map_cons,
        List.cons_append, List.take_succ_cons]

def lossMark (log : Channel Event) (next : Nat) : List (Item Event) :=
  if next < log.oldest then [.lagged (log.oldest - next)] else []

/-- A handle on a channel that has ended answers what is held, after one mark if something was lost,
and then the end. -/
theorem readOn_of_ended (hp : b.position? h = some (ch, next)) (hc : ch.log.closed = true)
    (n : Nat) :
    b.readOn h n =
      (lossMark ch.log next ++ (b.heldFor h).map Item.entry ++ [Item.ended]).take n := by
  by_cases hlost : next < ch.log.oldest
  · cases n with
    | zero => rfl
    | succ n =>
      have hsame : (b.advance h ch.log.oldest).heldFor h = b.heldFor h := by
        rw [heldFor_advance hp, heldFor_eq hp, Channel.held, Channel.held, Nat.max_self,
          Nat.max_eq_right (Nat.le_of_lt hlost)]
      have hrest := readOn_of_kept (position?_advance hp ch.log.oldest) hc
        (Nat.lt_irrefl ch.log.oldest) n
      rw [readOn, read?_eq hp, ch.log.read?_eq, if_pos hlost, lossMark, if_pos hlost]
      simp only [Option.map_some, hrest, hsame, List.cons_append, List.nil_append,
        List.take_succ_cons]
  · rw [readOn_of_kept hp hc hlost, lossMark, if_neg hlost, List.nil_append]

end EventFanout.Bus
