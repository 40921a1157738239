/-
EventFanout.Channel — a bounded channel that overwrites what is read too late.

A channel is the record of everything sent on it, of which the newest `capacity`
entries can still be read. The record is kept with the newest entry at its head, as
reading begins at most `capacity` entries from there; `sent` is the record in order.
A reader is a position in the record. One that has
fallen behind what is held is told once how many entries it lost (`Item.lagged`)
and goes on with the oldest entry held; the end of a closed channel is seen after
everything held has been read.

Main statements: sending adds to the end of the record (`sent_push`), and reading goes
by that record (`sentAt?_eq`).
-/

namespace EventFanout

/-- The number of entries held for a requested number: the next power of two, at least one. Nobody
can have a channel for 2^63 entries or more. To ask for one is a fault in whoever asks, not an error
that is answered, and is left out here: such a number is rounded up like every other. -/
def ringSize (requested : Nat) : Nat :=
  if requested ≤ 1 then 1 else 1 <<< ((requested - 1).log2 + 1)

/-- A channel holds at least one entry, also where none was asked for. -/
theorem ringSize_pos (n : Nat) : 0 < ringSize n := by
  unfold ringSize
  split
  · exact Nat.one_pos
  · rw [Nat.one_shiftLeft]
    exact Nat.two_pow_pos _

/-- Rounding never gives fewer entries than were asked for. -/
theorem le_ringSize (n : Nat) : n ≤ ringSize n := by
  unfold ringSize
  split
  · assumption
  · have := @Nat.lt_log2_self (n - 1)
    rw [Nat.one_shiftLeft]
    omega

/-- A channel of entries of one type. -/
structure Channel (α : Type) where
  /-- How many of the newest entries are held. -/
  capacity : Nat
  /-- Everything ever sent, the newest first. -/
  history : List α := []
  /-- How much was sent. -/
  size : Nat := 0
  /-- Nothing more will be sent. -/
  closed : Bool := false
  size_eq : size = history.length := by rfl
  deriving DecidableEq, Repr, Inhabited

/-- What a reader gets. -/
inductive Item (α : Type) where
  | entry (value : α)
  /-- That many entries were overwritten before they were read. -/
  | lagged (skipped : Nat)
  /-- The channel is closed and everything it holds has been read. -/
  | ended
  deriving DecidableEq, Repr

/-- What a reader gets that does not care for lost entries. -/
inductive Received (α : Type) where
  | entry (value : α)
  | ended
  /-- There is nothing to read yet. -/
  | pending
  deriving DecidableEq, Repr

namespace Channel

variable {α : Type}

def sized (requested : Nat) : Channel α := { capacity := ringSize requested }

/-- Everything ever sent, in order. -/
def sent (c : Channel α) : List α := c.history.reverse

/-- Where a new reader starts: after everything sent so far. -/
def tail (c : Channel α) : Nat := c.size

def oldest (c : Channel α) : Nat := c.size - c.capacity

/-- The entry at a position of the record, held or not. -/
def sentAt? (c : Channel α) (position : Nat) : Option α :=
  if position < c.size then c.history[c.size - 1 - position]? else none

def push (c : Channel α) (a : α) : Channel α :=
  { c with history := a :: c.history, size := c.size + 1, size_eq := by simp [c.size_eq] }

def close (c : Channel α) : Channel α := { c with closed := true }

/-- Reads at a position: what is read and where to go on, if there is something to read. -/
def read? (c : Channel α) (next : Nat) : Option (Item α × Nat) :=
  if next < c.oldest then some (.lagged (c.oldest - next), c.oldest)
  else
    match c.sentAt? next with
    | some a => some (.entry a, next + 1)
    | none => if c.closed then some (.ended, next) else none

/-- Reads at a position, skipping what was overwritten without notice. -/
def receive (c : Channel α) (next : Nat) : Received α × Nat :=
  let start := max next c.oldest
  match c.sentAt? start with
  | some a => (.entry a, start + 1)
  | none => (if c.closed then .ended else .pending, start)

/-- How many reads are left at a position before there is nothing more to read. -/
def unread (c : Channel α) (next : Nat) : Nat :=
  (if next < c.oldest then 1 else 0) + (c.size - max next c.oldest) +
    (if c.closed then 1 else 0)

/-! ## The record -/

theorem length_sent (c : Channel α) : c.sent.length = c.size := by
  rw [sent, List.length_reverse, c.size_eq]

/-- Sending adds one entry to the end of the record and changes nothing before it. -/
theorem sent_push (c : Channel α) (a : α) : (c.push a).sent = c.sent ++ [a] :=
  List.reverse_cons

/-- Looking a position up from the newest end finds the entry at that place of the record. -/
theorem sentAt?_eq (c : Channel α) (position : Nat) : c.sentAt? position = c.sent[position]? := by
  unfold sentAt? sent
  split
  · rename_i h
    rw [c.size_eq] at h ⊢
    exact (List.getElem?_reverse h).symm
  · rename_i h
    rw [List.getElem?_eq_none]
    rw [List.length_reverse, ← c.size_eq]
    exact Nat.le_of_not_lt h

theorem oldest_le_tail (c : Channel α) : c.oldest ≤ c.tail := Nat.sub_le _ _

end Channel

end EventFanout
