/-
EventFanout.Table — finite maps whose entries stay in the order they came in.

Setting a key keeps its place, a new key goes to the end. Main statements: what a
look-up finds after `set`, `erase` and `update` (`get?_set`, `get?_erase`,
`get?_update`); nothing else needs to unfold a table.
-/

namespace EventFanout

structure Table (κ α : Type) where
  entries : List (κ × α) := []
  deriving DecidableEq, Inhabited, Repr

namespace Table

variable {κ α : Type} [DecidableEq κ]

def lookup (key : κ) : List (κ × α) → Option α
  | [] => none
  | (k, v) :: rest => if k = key then some v else lookup key rest

/-- The entries with the value for `key` replaced, or a new entry at the end. -/
def put (key : κ) (value : α) : List (κ × α) → List (κ × α)
  | [] => [(key, value)]
  | (k, v) :: rest => if k = key then (key, value) :: rest else (k, v) :: put key value rest

def get? (t : Table κ α) (key : κ) : Option α := lookup key t.entries

def contains (t : Table κ α) (key : κ) : Bool := (t.get? key).isSome

def set (t : Table κ α) (key : κ) (value : α) : Table κ α := ⟨put key value t.entries⟩

def erase (t : Table κ α) (key : κ) : Table κ α := ⟨t.entries.filter fun e => e.1 ≠ key⟩

/-- Changes the value for a key, if there is one. -/
def update (t : Table κ α) (key : κ) (f : α → α) : Table κ α :=
  match t.get? key with
  | some v => t.set key (f v)
  | none => t

/-- The keys, in order. -/
def keys (t : Table κ α) : List κ := t.entries.map (·.1)

def values (t : Table κ α) : List α := t.entries.map (·.2)

def size (t : Table κ α) : Nat := t.entries.length

/-! ## Look-ups -/

/-- After `put` the key has the new value, and every other key what it had. -/
theorem lookup_put (key key' : κ) (value : α) (entries : List (κ × α)) :
    lookup key' (put key value entries) =
      if key = key' then some value else lookup key' entries := by
  induction entries with
  | nil => simp [put, lookup]
  | cons e rest ih =>
    obtain ⟨k, v⟩ := e
    by_cases hk : k = key
    · subst hk
      by_cases h : k = key' <;> simp [put, lookup, h]
    · by_cases h : k = key'
      · subst h
        have : ¬ key = k := fun e => hk e.symm
        simp [put, lookup, hk, this]
      · simp [put, lookup, hk, h, ih]

/-- Without the entries of a key, that key has none and every other what it had. -/
theorem lookup_filter (key key' : κ) (entries : List (κ × α)) :
    lookup key' (entries.filter fun e => e.1 ≠ key) =
      if key = key' then none else lookup key' entries := by
  induction entries with
  | nil => simp [lookup]
  | cons e rest ih =>
    obtain ⟨k, v⟩ := e
    by_cases hk : k = key
    · subst hk
      by_cases h : k = key' <;> simp_all [lookup]
    · by_cases h : k = key'
      · subst h
        have : ¬ key = k := fun e => hk e.symm
        simp [lookup, hk, this]
      · simp_all [lookup]

@[simp] theorem get?_empty (key : κ) : ({} : Table κ α).get? key = none := rfl

/-- Setting a key is seen at that key alone. -/
theorem get?_set (t : Table κ α) (key key' : κ) (value : α) :
    (t.set key value).get? key' = if key = key' then some value else t.get? key' :=
  lookup_put key key' value t.entries

/-- Erasing a key is seen at that key alone. -/
theorem get?_erase (t : Table κ α) (key key' : κ) :
    (t.erase key).get? key' = if key = key' then none else t.get? key' :=
  lookup_filter key key' t.entries

/-- Updating a key changes the value that is there, and adds none where there was none. -/
theorem get?_update (t : Table κ α) (key key' : κ) (f : α → α) :
    (t.update key f).get? key' = if key = key' then (t.get? key').map f else t.get? key' := by
  unfold update
  split
  · rename_i v hv
    rw [get?_set]
    split
    · rename_i h; subst h; simp [hv]
    · rfl
  · rename_i hn
    split
    · rename_i h; subst h; simp [hn]
    · rfl

end Table

end EventFanout
