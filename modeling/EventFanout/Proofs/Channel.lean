/-
EventFanout.Proofs.Channel — what a reader of a channel has read, and what it has lost.

Channels only grow (`Channel.Extends`). A reader goes forward through the record, and
`Channel.Reads` is its account: what it has read, entry by entry with its position, is
in the order of the record and without repetition, and every position it has left behind
unread is lost. What being lost means is a parameter, as only a run can tell: the entry
was overwritten before it was read.

Main statements: the account is kept by reading an entry (`Reads.concat`), by skipping
what is lost (`Reads.skip`) and by sending (`Reads.extend`); and a reader that has lost
nothing has read a stretch of the record without gaps (`Reads.eq_take`). What a reader has still to
read (`Channel.held`) is the newest of what was sent since it had read everything (`Extends.held`).
-/
import EventFanout.Channel
import Mathlib.Data.List.DropRight
import Mathlib.Order.Bounds.Defs

namespace EventFanout.Channel

variable {α : Type}

/-! ## Room -/

/-- A channel holds as many entries as were asked for, rounded up to a power of two. -/
theorem ringSize_isLeast (n : Nat) : IsLeast {c | n ≤ c ∧ c.isPowerOfTwo} (ringSize n) := by
  refine ⟨⟨le_ringSize n, ?_⟩, ?_⟩
  · unfold ringSize
    split
    · exact ⟨0, rfl⟩
    · exact ⟨_, Nat.one_shiftLeft _⟩
  · rintro c ⟨hle, k, rfl⟩
    unfold ringSize
    split
    · exact Nat.one_le_two_pow
    · rename_i hn
      rw [Nat.one_shiftLeft]
      refine Nat.pow_le_pow_right (Nat.succ_pos 1) ?_
      have hlt : n - 1 < 2 ^ k := by omega
      exact (Nat.log2_lt (by omega)).mpr hlt

/-- There is always room for one. -/
theorem ringSize_max_one (n : Nat) : ringSize (max n 1) = ringSize n := by
  by_cases hn : n = 0
  · rw [hn]
    rfl
  · rw [Nat.max_eq_left (Nat.one_le_iff_ne_zero.mpr hn)]

/-! ## Channels later on -/

/-- A channel later on: some entries more have been sent, and it may have been closed. -/
structure Extends (c c' : Channel α) (new : List α) : Prop where
  capacity : c'.capacity = c.capacity
  sent : c'.sent = c.sent ++ new
  closed : c.closed = true → c'.closed = true

namespace Extends

variable {c c' c'' : Channel α} {new new' : List α}

theorem refl (c : Channel α) : c.Extends c [] := ⟨rfl, (List.append_nil _).symm, id⟩

theorem trans (h : c.Extends c' new) (h' : c'.Extends c'' new') : c.Extends c'' (new ++ new') where
  capacity := h'.capacity.trans h.capacity
  sent := by rw [h'.sent, h.sent, List.append_assoc]
  closed := fun hc => h'.closed (h.closed hc)

theorem push (c : Channel α) (a : α) : c.Extends (c.push a) [a] := ⟨rfl, sent_push c a, id⟩

theorem close (c : Channel α) : c.Extends c.close [] :=
  ⟨rfl, (List.append_nil _).symm, fun _ => rfl⟩

theorem size (h : c.Extends c' new) : c'.size = c.size + new.length := by
  rw [← length_sent, h.sent, List.length_append, length_sent]

end Extends

/-! ## What reading comes to -/

/-- Reading answers a mark of loss, the entry at the position, or the end. -/
theorem read?_cases {c : Channel α} {next next' : Nat} {item : Item α}
    (h : c.read? next = some (item, next')) :
    (next < c.oldest ∧ next' = c.oldest ∧ item = .lagged (c.oldest - next)) ∨
    (∃ a, c.oldest ≤ next ∧ c.sent[next]? = some a ∧ next' = next + 1 ∧ item = .entry a) ∨
    (c.closed = true ∧ next' = next ∧ item = .ended) := by
  unfold read? at h
  split at h
  · rename_i hn
    simp only [Option.some.injEq, Prod.mk.injEq] at h
    exact .inl ⟨hn, h.2.symm, h.1.symm⟩
  · rename_i hn
    split at h
    · rename_i a ha
      simp only [Option.some.injEq, Prod.mk.injEq] at h
      rw [sentAt?_eq] at ha
      exact .inr (.inl ⟨a, Nat.le_of_not_lt hn, ha, h.2.symm, h.1.symm⟩)
    · split at h
      · rename_i hc
        simp only [Option.some.injEq, Prod.mk.injEq] at h
        exact .inr (.inr ⟨hc, h.2.symm, h.1.symm⟩)
      · cases h

/-- Reading leaves a reader within the record. -/
theorem le_of_read? {c : Channel α} {next next' : Nat} {item : Item α} (hle : next ≤ c.size)
    (h : c.read? next = some (item, next')) : next' ≤ c.size := by
  rcases read?_cases h with ⟨_, rfl, _⟩ | ⟨a, _, ha, rfl, _⟩ | ⟨_, rfl, _⟩
  · exact c.oldest_le_tail
  · obtain ⟨hlt, -⟩ := List.getElem?_eq_some_iff.mp ha
    rw [length_sent] at hlt
    exact hlt
  · exact hle

/-- A reader that nothing has been overwritten for, and that no entry is read by, is at the end. -/
theorem size_le_of_read? {c : Channel α} {next : Nat} (ho : c.oldest ≤ next)
    (h : ∀ a next', c.read? next ≠ some (.entry a, next')) : c.size ≤ next := by
  rw [← length_sent, ← List.getElem?_eq_none_iff, ← sentAt?_eq]
  cases he : c.sentAt? next with
  | none => rfl
  | some a =>
    refine absurd ?_ (h a (next + 1))
    simp only [read?, if_neg (Nat.not_lt_of_le ho), he]

/-- Receiving answers the first entry that is left, or says that there is none. -/
theorem receive_cases (c : Channel α) (next : Nat) :
    (∃ a, c.sent[max next c.oldest]? = some a ∧
      c.receive next = (.entry a, max next c.oldest + 1)) ∨
    (c.size ≤ max next c.oldest ∧
      c.receive next = (if c.closed then .ended else .pending, max next c.oldest)) := by
  cases h : c.sentAt? (max next c.oldest) with
  | some a =>
    refine .inl ⟨a, sentAt?_eq c _ ▸ h, ?_⟩
    simp only [receive, h]
  | none =>
    refine .inr ⟨?_, ?_⟩
    · rw [sentAt?_eq, List.getElem?_eq_none_iff, length_sent] at h
      exact h
    · simp only [receive, h]

/-- What one attempt to read is to a reader: it stays, it leaves behind what is not held any more,
or it reads the first entry that is left. -/
inductive Moves (c : Channel α) (next : Nat) : Option (Nat × α) → Nat → Prop
  | stays : Moves c next none next
  | skips : Moves c next none (max next c.oldest)
  | reads {a : α} : c.sent[max next c.oldest]? = some a →
      Moves c next (some (max next c.oldest, a)) (max next c.oldest + 1)

/-! ## What is left to read -/

section held

variable {c c' : Channel α} {new : List α} {next : Nat}

/-- What a reader has still to read: what was sent since, as far as it is held. -/
def held (c : Channel α) (next : Nat) : List α := c.sent.drop (max next c.oldest)

/-- A reader that has read nothing reads the newest entries. -/
theorem held_zero (c : Channel α) : c.held 0 = c.sent.rtake c.capacity := by
  rw [held, Nat.zero_max, oldest, List.rtake, length_sent]

theorem held_size (c : Channel α) : c.held c.size = [] := by
  rw [held, List.drop_eq_nil_iff, length_sent]
  exact Nat.le_max_left _ _

/-- Reading takes the first of it. -/
theorem held_eq_cons {a : α} (h : c.sent[max next c.oldest]? = some a) :
    c.held next = a :: c.held (max next c.oldest + 1) := by
  obtain ⟨hlt, ha⟩ := List.getElem?_eq_some_iff.mp h
  have hnext : max (max next c.oldest + 1) c.oldest = max next c.oldest + 1 := by omega
  rw [held, held, List.drop_eq_getElem_cons hlt, ha, hnext]

theorem held_eq_nil (h : c.size ≤ max next c.oldest) : c.held next = [] := by
  rw [held, List.drop_eq_nil_iff, length_sent]
  exact h

/-- Receiving answers the first of it, and says how the channel stands where nothing is left. -/
theorem receive_fst (c : Channel α) (next : Nat) :
    (c.receive next).1 =
      match c.held next with
      | a :: _ => .entry a
      | [] => if c.closed then .ended else .pending := by
  rcases c.receive_cases next with ⟨a, ha, he⟩ | ⟨hle, he⟩
  · rw [he, held_eq_cons ha]
  · rw [he, held_eq_nil hle]

/-- Reading tells what was lost, or answers the first of what is left, or that nothing will come. -/
theorem read?_eq (c : Channel α) (next : Nat) :
    c.read? next =
      if next < c.oldest then some (.lagged (c.oldest - next), c.oldest)
      else
        match c.held next with
        | a :: _ => some (.entry a, next + 1)
        | [] => if c.closed then some (.ended, next) else none := by
  unfold read?
  by_cases hn : next < c.oldest
  · rw [if_pos hn, if_pos hn]
  · have hmax : max next c.oldest = next := Nat.max_eq_left (Nat.le_of_not_lt hn)
    rw [if_neg hn, if_neg hn, sentAt?_eq]
    cases ha : c.sent[next]? with
    | some a => rw [held_eq_cons (hmax.symm ▸ ha)]
    | none =>
      rw [List.getElem?_eq_none_iff, length_sent] at ha
      rw [held_eq_nil (hmax.symm ▸ ha)]

/-- Of an entry that is read, the rest is left. -/
theorem held_succ (hn : ¬ next < c.oldest) : c.held (next + 1) = (c.held next).tail := by
  have h₁ : max (next + 1) c.oldest = next + 1 := by omega
  have h₂ : max next c.oldest = next := by omega
  rw [held, held, h₁, h₂, List.tail_drop]

/-- What receiving leaves is the rest of it. -/
theorem held_receive (c : Channel α) (next : Nat) :
    c.held (c.receive next).2 = (c.held next).tail := by
  rcases c.receive_cases next with ⟨a, ha, he⟩ | ⟨hle, he⟩
  · rw [he, held_eq_cons ha, List.tail_cons]
  · rw [he, held_eq_nil hle, held_eq_nil (Nat.le_trans hle (Nat.le_max_left _ _)), List.tail_nil]

/-- What an attempt reads, and what is left then, is what there was. -/
theorem Moves.held {read : Option (Nat × α)} {next' : Nat} (hm : c.Moves next read next') :
    (read.map (·.2)).toList ++ c.held next' = c.held next := by
  cases hm with
  | stays => rfl
  | skips =>
    have hmax : max (max next c.oldest) c.oldest = max next c.oldest :=
      Nat.max_eq_left (Nat.le_max_right _ _)
    rw [Channel.held, Channel.held, hmax]
    rfl
  | reads ha =>
    rw [held_eq_cons ha]
    rfl

/-- Who has nothing left to read has nothing left after an attempt. -/
theorem Moves.held_eq_nil {read : Option (Nat × α)} {next' : Nat} (hm : c.Moves next read next')
    (h : c.held next = []) : c.held next' = [] :=
  (List.append_eq_nil_iff.mp (hm.held.trans h)).2

/-- Where nothing is sent it stays as it is. -/
theorem Extends.held_eq (h : c.Extends c' []) (next : Nat) : c'.held next = c.held next := by
  have hsize := h.size
  rw [held, held, oldest, oldest, h.sent, hsize, h.capacity, List.length_nil, Nat.add_zero,
    List.append_nil]

/-- Sending adds to it, and what does not fit is dropped from its front. -/
theorem Extends.held (h : c.Extends c' new) (hle : next ≤ c.size) :
    c'.held next = (c.held next ++ new).rtake c.capacity := by
  have hsize := h.size
  have hold : max next c.oldest ≤ c.sent.length := by
    rw [length_sent]
    exact Nat.max_le.mpr ⟨hle, c.oldest_le_tail⟩
  rw [Channel.held, Channel.held, h.sent, ← List.drop_append_of_le_length hold, List.rtake,
    List.drop_drop, List.length_drop, List.length_append, length_sent]
  congr 1
  rw [oldest, oldest, hsize, h.capacity]
  omega

end held

/-! ## The account of a reader -/

/-- What a reader has read of a channel, from position `first` up to where it goes on. -/
structure Reads (lost : Nat → Prop) (c : Channel α) (first next : Nat) (reads : List (Nat × α)) :
    Prop where
  first_le : first ≤ next
  next_le : next ≤ c.size
  /-- What was read at a position is what was sent there. -/
  sent : ∀ i a, (i, a) ∈ reads → first ≤ i ∧ i < next ∧ c.sent[i]? = some a
  order : reads.Pairwise fun x y => x.1 < y.1
  /-- What was left behind unread is lost. -/
  lost : ∀ i, first ≤ i → i < next → i ∉ reads.map (·.1) → lost i

namespace Reads

variable {lost lost' : Nat → Prop} {c c' : Channel α} {first next : Nat} {reads : List (Nat × α)}

/-- A new reader has read nothing. -/
theorem start (h : first ≤ c.size) : Reads lost c first first [] where
  first_le := Nat.le_refl _
  next_le := h
  sent := by
    intro i a hm
    cases hm
  order := .nil
  lost := by
    intro i h₁ h₂
    omega

theorem mono (h : Reads lost c first next reads) (hl : ∀ i, lost i → lost' i) :
    Reads lost' c first next reads :=
  ⟨h.first_le, h.next_le, h.sent, h.order, fun i h₁ h₂ hi => hl i (h.lost i h₁ h₂ hi)⟩

theorem extend {new : List α} (h : Reads lost c first next reads) (he : c.Extends c' new) :
    Reads lost c' first next reads where
  first_le := h.first_le
  next_le := by
    have hle := h.next_le
    rw [he.size]
    omega
  sent := by
    intro i a hm
    obtain ⟨h₁, h₂, ha⟩ := h.sent i a hm
    obtain ⟨hi, -⟩ := List.getElem?_eq_some_iff.mp ha
    refine ⟨h₁, h₂, ?_⟩
    rw [he.sent, List.getElem?_append_left hi]
    exact ha
  order := h.order
  lost := h.lost

/-- The reader leaves behind what is lost. -/
theorem skip {next' : Nat} (h : Reads lost c first next reads) (hn : next ≤ next')
    (hs : next' ≤ c.size) (hl : ∀ i, next ≤ i → i < next' → lost i) :
    Reads lost c first next' reads where
  first_le := Nat.le_trans h.first_le hn
  next_le := hs
  sent := by
    intro i a hm
    obtain ⟨h₁, h₂, ha⟩ := h.sent i a hm
    exact ⟨h₁, Nat.lt_of_lt_of_le h₂ hn, ha⟩
  order := h.order
  lost := by
    intro i h₁ h₂ hi
    by_cases hin : i < next
    · exact h.lost i h₁ hin hi
    · exact hl i (Nat.le_of_not_lt hin) h₂

/-- The reader reads an entry where it is. -/
theorem concat {a : α} (h : Reads lost c first next reads) (ha : c.sent[next]? = some a) :
    Reads lost c first (next + 1) (reads ++ [(next, a)]) where
  first_le := Nat.le_succ_of_le h.first_le
  next_le := by
    obtain ⟨hi, -⟩ := List.getElem?_eq_some_iff.mp ha
    rw [length_sent] at hi
    exact hi
  sent := by
    intro i b hm
    rcases List.mem_append.mp hm with hm | hm
    · obtain ⟨h₁, h₂, hb⟩ := h.sent i b hm
      exact ⟨h₁, Nat.lt_succ_of_lt h₂, hb⟩
    · simp only [List.mem_singleton, Prod.mk.injEq] at hm
      obtain ⟨rfl, rfl⟩ := hm
      exact ⟨h.first_le, Nat.lt_succ_self _, ha⟩
  order := by
    rw [List.pairwise_append]
    refine ⟨h.order, List.pairwise_singleton _ _, ?_⟩
    intro x hx y hy
    rw [List.mem_singleton.mp hy]
    exact (h.sent x.1 x.2 hx).2.1
  lost := by
    intro i h₁ h₂ hi
    rw [List.map_append, List.mem_append, not_or] at hi
    have hne : i ≠ next := by
      intro he
      exact hi.2 (List.mem_singleton.mpr he)
    exact h.lost i h₁ (by omega) hi.1

/-- An attempt to read is entered in the account; what is not held any more has to be lost. -/
theorem move {read : Option (Nat × α)} {next' : Nat} (h : Reads lost c first next reads)
    (hm : c.Moves next read next') (hl : ∀ i, next ≤ i → i < c.oldest → lost i) :
    Reads lost c first next' (reads ++ read.toList) := by
  have hsize := h.next_le
  have hold := c.oldest_le_tail
  have hskip : Reads lost c first (max next c.oldest) reads := by
    refine h.skip (Nat.le_max_left _ _) (Nat.max_le.mpr ⟨hsize, hold⟩) ?_
    intro i h₁ h₂
    exact hl i h₁ (by omega)
  cases hm with
  | stays => simpa using h
  | skips => simpa using hskip
  | reads ha => exact hskip.concat ha

/-- What has been read is in the order it was sent, each entry at most once. -/
theorem sublist (h : Reads lost c first next reads) :
    (reads.map (·.2)).Sublist (c.sent.drop first) := by
  -- what is lost plays no part
  replace h : Reads (fun _ => True) c first next reads := h.mono fun _ _ => trivial
  induction reads generalizing first with
  | nil => exact List.nil_sublist _
  | cons x rest ih =>
    obtain ⟨i, a⟩ := x
    obtain ⟨hfirst, hnext, ha⟩ := h.sent i a List.mem_cons_self
    obtain ⟨hlater, horder⟩ := List.pairwise_cons.mp h.order
    have hrest : Reads (fun _ => True) c (i + 1) next rest := by
      refine ⟨hnext, h.next_le, fun j b hm => ?_, horder, fun _ _ _ _ => trivial⟩
      obtain ⟨-, h₂, hb⟩ := h.sent j b (List.mem_cons_of_mem _ hm)
      exact ⟨hlater (j, b) hm, h₂, hb⟩
    obtain ⟨hlen, he⟩ := List.getElem?_eq_some_iff.mp ha
    have hdrop : (c.sent.drop i).Sublist (c.sent.drop first) := by
      rw [show i = first + (i - first) from by omega, ← List.drop_drop]
      exact List.drop_sublist _ _
    refine List.Sublist.trans ?_ hdrop
    rw [List.drop_eq_getElem_cons hlen, he, List.map_cons]
    exact (ih hrest).cons_cons a

/-- A reader that has lost nothing has read everything from where it began. -/
theorem eq_take (h : Reads lost c first next reads) (hl : ∀ i, ¬ lost i) :
    reads.map (·.2) = (c.sent.drop first).take (next - first) := by
  induction reads generalizing first with
  | nil =>
    have hnot : ¬ first < next := fun hlt => hl first (h.lost first (Nat.le_refl _) hlt (by simp))
    rw [Nat.sub_eq_zero_of_le (Nat.le_of_not_lt hnot)]
    rfl
  | cons x rest ih =>
    obtain ⟨i, a⟩ := x
    obtain ⟨hfirst, hnext, ha⟩ := h.sent i a List.mem_cons_self
    obtain ⟨hlater, horder⟩ := List.pairwise_cons.mp h.order
    -- the first position is among those read, and no later entry can have it
    have hi : i = first := by
      refine Nat.le_antisymm (Nat.le_of_not_lt fun hgt => ?_) hfirst
      refine hl first (h.lost first (Nat.le_refl _) (by omega) ?_)
      rw [List.map_cons, List.mem_cons, not_or]
      refine ⟨Nat.ne_of_lt hgt, fun hm => ?_⟩
      obtain ⟨y, hy, he⟩ := List.mem_map.mp hm
      have hlt := hlater y hy
      simp only at hlt
      omega
    subst hi
    have hrest : Reads lost c (i + 1) next rest := by
      refine ⟨hnext, h.next_le, ?_, horder, ?_⟩
      · intro j b hm
        obtain ⟨-, h₂, hb⟩ := h.sent j b (List.mem_cons_of_mem _ hm)
        exact ⟨hlater (j, b) hm, h₂, hb⟩
      · intro j h₁ h₂ hj
        refine h.lost j (by omega) h₂ ?_
        rw [List.map_cons, List.mem_cons, not_or]
        exact ⟨by simp only; omega, hj⟩
    obtain ⟨hlen, he⟩ := List.getElem?_eq_some_iff.mp ha
    rw [List.map_cons, ih hrest, List.drop_eq_getElem_cons hlen, he,
      show next - i = next - (i + 1) + 1 from by omega, List.take_succ_cons]

end Reads

end EventFanout.Channel
