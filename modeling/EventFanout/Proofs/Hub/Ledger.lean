/-
EventFanout.Proofs.Hub.Ledger — the discipline of registrations, read off the ledger.

The ledger of a hub records every topic it asked the bus for, every topic it gave up and
every end it took note of. For one topic a grant opens a registration, and a release or
an end closes it. `Accounts ledger held` says that the two alternate and that exactly
the registrations of `held` are open now: a topic is asked for only while all of its
registrations are closed, and a registration is closed only while one is open.

Main statement: between two grants of a topic there is exactly one closing entry
(`Accounts.one_end_between`). The other lemmas say how the accounts go on when one more
entry is written.
-/
import EventFanout.Hub.Basic

namespace EventFanout

def Entry.opens (t : Topic) : Entry → Bool
  | .requested t' granted => granted && t' = t
  | .released _ | .ended _ => false

def Entry.closes (t : Topic) : Entry → Bool
  | .requested .. => false
  | .released t' | .ended t' => t' = t

/-- The ledger is in order, and the registrations open now are those of `held`. -/
structure Accounts (ledger : List Entry) (held : List Topic) : Prop where
  /-- A topic is asked for only while none of its registrations is open. -/
  asked : ∀ before after t granted, ledger = before ++ .requested t granted :: after →
    before.countP (Entry.opens t) = before.countP (Entry.closes t)
  /-- A registration is closed only while it is the one that is open. -/
  closed : ∀ before after e t, ledger = before ++ e :: after → e.closes t = true →
    before.countP (Entry.opens t) = before.countP (Entry.closes t) + 1
  /-- One registration of each topic of `held` is open, and none of any other. -/
  balance : ∀ t, ledger.countP (Entry.opens t) =
    ledger.countP (Entry.closes t) + if t ∈ held then 1 else 0

namespace Accounts

variable {ledger : List Entry} {held held' : List Topic}

theorem empty : Accounts [] [] where
  asked := by intro before after t granted h; simp at h
  closed := by intro before after e t h; simp at h
  balance := by intro t; simp

/-- An entry stands in a longer ledger where it stood before, or it is the new one. -/
theorem split_concat {α : Type} {l before after : List α} {a b : α}
    (h : l ++ [b] = before ++ a :: after) :
    (∃ after', after = after' ++ [b] ∧ l = before ++ a :: after') ∨
      (after = [] ∧ a = b ∧ before = l) := by
  rcases List.eq_nil_or_concat after with rfl | ⟨after', c, rfl⟩
  · obtain ⟨h1, h2⟩ := List.append_inj' h rfl
    simp only [List.cons.injEq, and_true] at h2
    exact .inr ⟨rfl, h2.symm, h1.symm⟩
  · rw [List.concat_eq_append, ← List.cons_append, ← List.append_assoc] at h
    obtain ⟨h1, h2⟩ := List.append_inj' h rfl
    simp only [List.cons.injEq, and_true] at h2
    subst h2
    exact .inl ⟨after', List.concat_eq_append, h1⟩

/-- One more entry keeps the order if it is in place itself. -/
theorem concat (ha : Accounts ledger held) (e : Entry)
    (hasked : ∀ t granted, e = .requested t granted → t ∉ held)
    (hclosed : ∀ t, e.closes t = true → t ∈ held)
    (hheld : ∀ t, (if e.opens t then 1 else 0) + (if t ∈ held then 1 else 0) =
      (if e.closes t then 1 else 0) + (if t ∈ held' then 1 else 0)) :
    Accounts (ledger ++ [e]) held' where
  asked := by
    intro before after t granted h
    rcases split_concat h with ⟨after', rfl, hl⟩ | ⟨rfl, he, rfl⟩
    · exact ha.asked before after' t granted hl
    · have := ha.balance t
      rwa [if_neg (hasked t granted he.symm)] at this
  closed := by
    intro before after e' t h hc
    rcases split_concat h with ⟨after', rfl, hl⟩ | ⟨rfl, he, rfl⟩
    · exact ha.closed before after' e' t hl hc
    · subst he
      have := ha.balance t
      rwa [if_pos (hclosed t hc)] at this
  balance := by
    intro t
    have hb := ha.balance t
    have hh := hheld t
    simp only [List.countP_append, List.countP_cons, List.countP_nil]
    omega

/-- A topic whose registration is refused stays as it was. -/
theorem refuse (ha : Accounts ledger held) {t : Topic} (ht : t ∉ held) :
    Accounts (ledger ++ [.requested t false]) held := by
  refine ha.concat _ ?_ ?_ ?_
  · intro t' granted h
    cases h
    exact ht
  · intro t' h
    simp [Entry.closes] at h
  · intro t'
    simp [Entry.opens, Entry.closes]

/-- A grant adds its topic. -/
theorem grant (ha : Accounts ledger held) {t : Topic} (ht : t ∉ held) :
    Accounts (ledger ++ [.requested t true]) (held ++ [t]) := by
  refine ha.concat _ ?_ ?_ ?_
  · intro t' granted h
    cases h
    exact ht
  · intro t' h
    simp [Entry.closes] at h
  · intro t'
    by_cases h : t = t'
    · subst h
      simp [Entry.opens, Entry.closes, ht]
    · have h' : ¬ t' = t := fun e => h e.symm
      simp [Entry.opens, Entry.closes, h, h']

/-- A release or an end takes its topic away. -/
theorem finish (ha : Accounts ledger held) {t : Topic} {e : Entry} (ht : t ∈ held)
    (he : e = .released t ∨ e = .ended t) :
    Accounts (ledger ++ [e]) (held.filter (· ≠ t)) := by
  have hc : ∀ t', e.closes t' = decide (t = t') := by
    intro t'
    rcases he with rfl | rfl <;> rfl
  have ho : ∀ t', e.opens t' = false := by
    intro t'
    rcases he with rfl | rfl <;> rfl
  refine ha.concat _ ?_ ?_ ?_
  · intro t' granted h
    rcases he with rfl | rfl <;> simp at h
  · intro t' h
    rw [hc, decide_eq_true_eq] at h
    exact h ▸ ht
  · intro t'
    rw [hc, ho]
    by_cases h : t = t'
    · subst h
      simp [ht]
    · have h' : ¬ t' = t := fun e => h e.symm
      simp [h, h']

/-- Topics released one after another are all closed in the end. -/
theorem release_all (hn : held.Nodup) (ha : Accounts ledger held) :
    Accounts (ledger ++ held.map .released) [] := by
  induction held generalizing ledger with
  | nil => simpa using ha
  | cons t rest ih =>
    obtain ⟨ht, hrest⟩ := List.nodup_cons.mp hn
    have hleft : (t :: rest).filter (· ≠ t) = rest := by
      rw [List.filter_cons_of_neg (by simp), List.filter_eq_self]
      intro t' ht'
      simp only [ne_eq, decide_eq_true_eq]
      rintro rfl
      exact ht ht'
    have := ha.finish List.mem_cons_self (.inl rfl)
    rw [hleft] at this
    simpa using ih hrest this

/-- Between two grants of a topic with no other between them, exactly one entry closes it. -/
theorem one_end_between (ha : Accounts ledger held) {before between after : List Entry} {t : Topic}
    (h : ledger = before ++ .requested t true :: (between ++ .requested t true :: after))
    (hno : between.countP (Entry.opens t) = 0) : between.countP (Entry.closes t) = 1 := by
  have h₁ := ha.asked before _ t true h
  have h₂ := ha.asked (before ++ .requested t true :: between) after t true (by simpa using h)
  simp [Entry.opens, Entry.closes] at h₂
  omega

end Accounts

end EventFanout
