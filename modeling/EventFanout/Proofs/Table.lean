/-
EventFanout.Proofs.Table — tables as lists of entries.

The look-up laws beside the definition say what a key finds. The facts here say what
becomes of the entries: their keys in order (`keys_set_of_mem`, `keys_erase`), the
entry of a key as a member of the list (`mem_entries_of_get?`), and an erased entry as
the one by which the lists differ (`perm_erase`), which is what counting (`size_erase`) needs.
What is known of a part of every value is kept by whatever keeps that part (`sketch`), and changes
of different keys can be made in either order (`update_comm`, `updateAll_perm`).
-/
import EventFanout.Table
import Mathlib.Algebra.GroupWithZero.Nat
import Mathlib.Data.List.Nodup

namespace EventFanout.Table

variable {κ α : Type} [DecidableEq κ]

/-! ## Keys -/

omit [DecidableEq κ] in
theorem mem_keys_of_mem {t : Table κ α} {k : κ} {v : α} (h : (k, v) ∈ t.entries) : k ∈ t.keys :=
  List.mem_map.mpr ⟨(k, v), h, rfl⟩

theorem mem_entries_of_get? {t : Table κ α} {k : κ} {v : α} (h : t.get? k = some v) :
    (k, v) ∈ t.entries := by
  obtain ⟨es⟩ := t
  simp only [get?] at h
  induction es with
  | nil => simp [lookup] at h
  | cons e rest ih =>
    obtain ⟨k', v'⟩ := e
    simp only [lookup] at h
    split at h
    · rename_i hk
      simp only [Option.some.injEq] at h
      subst hk; subst h
      exact List.mem_cons_self
    · exact List.mem_cons_of_mem _ (ih h)

theorem mem_keys_of_get? {t : Table κ α} {k : κ} {v : α} (h : t.get? k = some v) : k ∈ t.keys :=
  mem_keys_of_mem (mem_entries_of_get? h)

theorem mem_values_of_get? {t : Table κ α} {k : κ} {v : α} (h : t.get? k = some v) :
    v ∈ t.values :=
  List.mem_map.mpr ⟨(k, v), mem_entries_of_get? h, rfl⟩

theorem get?_eq_none_iff (t : Table κ α) (k : κ) : t.get? k = none ↔ k ∉ t.keys := by
  obtain ⟨es⟩ := t
  simp only [get?, keys]
  induction es with
  | nil => simp [lookup]
  | cons e rest ih =>
    obtain ⟨k', v'⟩ := e
    simp only [lookup, List.map_cons, List.mem_cons, not_or]
    split
    · rename_i hk
      simp [hk]
    · rename_i hk
      rw [ih]
      exact ⟨fun h => ⟨fun e => hk e.symm, h⟩, fun h => h.2⟩

theorem get?_of_mem {t : Table κ α} {k : κ} {v : α} (hn : t.keys.Nodup) (h : (k, v) ∈ t.entries) :
    t.get? k = some v := by
  cases hget : t.get? k with
  | none => exact absurd (mem_keys_of_mem h) ((get?_eq_none_iff t k).mp hget)
  | some v' =>
    have he := List.inj_on_of_nodup_map hn (mem_entries_of_get? hget) h rfl
    rw [(Prod.mk.inj he).2]

theorem contains_iff_mem_keys (t : Table κ α) (k : κ) : t.contains k = true ↔ k ∈ t.keys := by
  rw [contains, Option.isSome_iff_ne_none, ne_eq, get?_eq_none_iff, not_not]

theorem exists_get?_of_mem_keys {t : Table κ α} {k : κ} (h : k ∈ t.keys) :
    ∃ v, t.get? k = some v :=
  Option.isSome_iff_exists.mp ((contains_iff_mem_keys t k).mpr h)

theorem contains_eq_false_iff (t : Table κ α) (k : κ) : t.contains k = false ↔ k ∉ t.keys := by
  rw [← contains_iff_mem_keys, Bool.not_eq_true]

/-! ## Setting and updating -/

theorem put_of_not_mem {k : κ} {v : α} {es : List (κ × α)} (h : k ∉ es.map (·.1)) :
    put k v es = es ++ [(k, v)] := by
  induction es with
  | nil => rfl
  | cons e rest ih =>
    obtain ⟨k', v'⟩ := e
    simp only [List.map_cons, List.mem_cons, not_or] at h
    simp only [put, if_neg (fun e => h.1 e.symm : ¬ k' = k), List.cons_append, ih h.2]

theorem entries_set_of_not_mem {t : Table κ α} {k : κ} (v : α) (h : k ∉ t.keys) :
    (t.set k v).entries = t.entries ++ [(k, v)] := put_of_not_mem h

theorem keys_set_of_not_mem {t : Table κ α} {k : κ} (v : α) (h : k ∉ t.keys) :
    (t.set k v).keys = t.keys ++ [k] := by
  simp [keys, entries_set_of_not_mem v h]

theorem mem_put {k k' : κ} {v v' : α} {es : List (κ × α)} (h : (k', v') ∈ put k v es) :
    (k', v') ∈ es ∨ (k' = k ∧ v' = v) := by
  induction es with
  | nil =>
    simp only [put, List.mem_singleton, Prod.mk.injEq] at h
    exact .inr h
  | cons e rest ih =>
    obtain ⟨k₀, v₀⟩ := e
    simp only [put] at h
    split at h
    · rcases List.mem_cons.mp h with h | h
      · exact .inr (Prod.mk.inj h)
      · exact .inl (List.mem_cons_of_mem _ h)
    · rcases List.mem_cons.mp h with h | h
      · exact .inl (h ▸ List.mem_cons_self)
      · exact (ih h).imp_left (List.mem_cons_of_mem _)

/-- An entry after setting a key was there before, or is the one that was set. -/
theorem mem_entries_set {t : Table κ α} {k k' : κ} {v v' : α}
    (h : (k', v') ∈ (t.set k v).entries) : (k', v') ∈ t.entries ∨ (k' = k ∧ v' = v) :=
  mem_put h

theorem keys_put_of_mem {k : κ} {v : α} {es : List (κ × α)} (h : k ∈ es.map (·.1)) :
    (put k v es).map (·.1) = es.map (·.1) := by
  induction es with
  | nil => simp at h
  | cons e rest ih =>
    obtain ⟨k', v'⟩ := e
    by_cases hk : k' = k
    · simp [put, hk]
    · simp only [put, if_neg hk, List.map_cons, List.cons.injEq, true_and]
      rcases List.mem_cons.mp h with h | h
      · exact absurd h.symm hk
      · exact ih h

theorem keys_set_of_mem {t : Table κ α} {k : κ} (v : α) (h : k ∈ t.keys) :
    (t.set k v).keys = t.keys := keys_put_of_mem h

@[simp] theorem keys_update (t : Table κ α) (k : κ) (f : α → α) :
    (t.update k f).keys = t.keys := by
  unfold update
  split
  · rename_i v hv
    exact keys_set_of_mem _ (mem_keys_of_get? hv)
  · rfl

/-! ## Erasing -/

theorem keys_erase (t : Table κ α) (k : κ) : (t.erase k).keys = t.keys.filter (· ≠ k) := by
  simp only [keys, erase, List.filter_map]
  rfl

theorem keys_erase_subset (t : Table κ α) (k : κ) : (t.erase k).keys ⊆ t.keys :=
  (List.filter_sublist.map _).subset

theorem values_erase_subset (t : Table κ α) (k : κ) : (t.erase k).values ⊆ t.values :=
  (List.filter_sublist.map _).subset

theorem nodup_keys_erase {t : Table κ α} (k : κ) (h : t.keys.Nodup) : (t.erase k).keys.Nodup := by
  rw [keys_erase]
  exact h.filter _

theorem erase_of_not_mem {t : Table κ α} {k : κ} (h : k ∉ t.keys) : t.erase k = t := by
  obtain ⟨es⟩ := t
  simp only [erase, mk.injEq, List.filter_eq_self]
  intro e he
  simp only [ne_eq, decide_eq_true_eq]
  rintro rfl
  exact h (List.mem_map.mpr ⟨e, he, rfl⟩)

theorem mem_entries_erase {t : Table κ α} {k k' : κ} {v : α} :
    (k', v) ∈ (t.erase k).entries ↔ (k', v) ∈ t.entries ∧ k' ≠ k := by
  simp [erase]

/-- An entry that is erased is the one by which the two lists of entries differ. -/
theorem perm_erase {t : Table κ α} {k : κ} {v : α} (hn : t.keys.Nodup) (h : (k, v) ∈ t.entries) :
    t.entries.Perm ((k, v) :: (t.erase k).entries) := by
  obtain ⟨es⟩ := t
  simp only [erase, keys] at hn h ⊢
  induction es with
  | nil => simp at h
  | cons e rest ih =>
    obtain ⟨k', v'⟩ := e
    simp only [List.map_cons, List.nodup_cons] at hn
    rcases List.mem_cons.mp h with h | h
    · cases h
      have hrest : (rest.filter fun e => e.1 ≠ k) = rest := by
        rw [List.filter_eq_self]
        intro e he
        simp only [ne_eq, decide_eq_true_eq]
        rintro rfl
        exact hn.1 (List.mem_map.mpr ⟨e, he, rfl⟩)
      rw [List.filter_cons_of_neg (by simp), hrest]
    · have hk : ¬ k' = k := by
        rintro rfl
        exact hn.1 (List.mem_map.mpr ⟨(k', v), h, rfl⟩)
      have hkeep : (((k', v') :: rest).filter fun e => e.1 ≠ k) =
          (k', v') :: rest.filter fun e => e.1 ≠ k := by simp [hk]
      rw [hkeep]
      exact ((ih hn.2 h).cons _).trans (List.Perm.swap _ _ _)

/-! ## Sizes -/

omit [DecidableEq κ] in
theorem length_keys (t : Table κ α) : t.keys.length = t.size := List.length_map _

omit [DecidableEq κ] in
theorem length_values (t : Table κ α) : t.values.length = t.size := List.length_map _

theorem size_set_of_not_mem {t : Table κ α} {k : κ} (v : α) (h : k ∉ t.keys) :
    (t.set k v).size = t.size + 1 := by
  rw [size, entries_set_of_not_mem v h, List.length_append]
  rfl

theorem size_set_of_mem {t : Table κ α} {k : κ} (v : α) (h : k ∈ t.keys) :
    (t.set k v).size = t.size := by
  rw [← length_keys, keys_set_of_mem v h, length_keys]

@[simp] theorem size_update (t : Table κ α) (k : κ) (f : α → α) : (t.update k f).size = t.size := by
  rw [← length_keys, keys_update, length_keys]

theorem size_erase {t : Table κ α} {k : κ} {v : α} (hn : t.keys.Nodup) (h : (k, v) ∈ t.entries) :
    t.size = (t.erase k).size + 1 := (perm_erase hn h).length_eq

/-! ## Parts of the values -/

section Sketch

variable {β : Type} {k : κ} {v v' : α}

/-- The keys, each with a part of its value. -/
def sketch (t : Table κ α) (g : α → β) : List (κ × β) := t.entries.map fun e => (e.1, g e.2)

theorem sketch_set (g : α → β) {t : Table κ α} (h : t.get? k = some v) (hg : g v' = g v) :
    (t.set k v').sketch g = t.sketch g := by
  obtain ⟨es⟩ := t
  simp only [sketch, set, get?] at h ⊢
  induction es with
  | nil => cases h
  | cons e rest ih =>
    obtain ⟨k₀, v₀⟩ := e
    simp only [lookup] at h
    split at h
    · rename_i hk
      subst hk
      cases h
      rw [put, if_pos rfl, List.map_cons, List.map_cons, hg]
    · rename_i hk
      rw [put, if_neg hk, List.map_cons, List.map_cons, ih h]

theorem sketch_update (g : α → β) {f : α → α} (hg : ∀ v, g (f v) = g v) (t : Table κ α) (k : κ) :
    (t.update k f).sketch g = t.sketch g := by
  unfold update
  split
  · rename_i v h
    exact sketch_set g h (hg v)
  · rfl

omit [DecidableEq κ] in
theorem keys_of_sketch {g : α → β} {t t' : Table κ α} (h : t'.sketch g = t.sketch g) :
    t'.keys = t.keys := by
  have hfst := congrArg (List.map Prod.fst) h
  rw [sketch, sketch, List.map_map, List.map_map] at hfst
  exact hfst

omit [DecidableEq κ] in
theorem values_of_sketch {g : α → β} {t t' : Table κ α} (h : t'.sketch g = t.sketch g) :
    t'.values.map g = t.values.map g := by
  have hsnd := congrArg (List.map Prod.snd) h
  rw [sketch, sketch, List.map_map, List.map_map] at hsnd
  rw [values, values, List.map_map, List.map_map]
  exact hsnd

theorem get?_of_sketch {g : α → β} {t t' : Table κ α} (h : t'.sketch g = t.sketch g) (k : κ) :
    (t'.get? k).map g = (t.get? k).map g := by
  have hlook : ∀ es : List (κ × α), (lookup k es).map g =
      lookup k (es.map fun e => (e.1, g e.2)) := by
    intro es
    induction es with
    | nil => rfl
    | cons e rest ih =>
      simp only [lookup, List.map_cons]
      split
      · rfl
      · exact ih
  rw [get?, get?, hlook, hlook]
  exact congrArg (lookup k) h

/-- Where a key has a value, the values add up as before but for that one. -/
theorem sum_values_set (g : α → Nat) {t : Table κ α} (h : t.get? k = some v) (v' : α) :
    ((t.set k v').values.map g).sum + g v = (t.values.map g).sum + g v' := by
  obtain ⟨es⟩ := t
  simp only [values, set, get?, List.map_map] at h ⊢
  induction es with
  | nil => cases h
  | cons e rest ih =>
    obtain ⟨k₀, v₀⟩ := e
    simp only [lookup] at h
    split at h
    · rename_i hk
      cases h
      simp only [put, if_pos hk, List.map_cons, List.sum_cons, Function.comp_apply]
      omega
    · rename_i hk
      have hrest := ih h
      simp only [put, if_neg hk, List.map_cons, List.sum_cons, Function.comp_apply]
      omega

end Sketch

/-! ## Changes of different keys -/

section Different

variable {k k' : κ} {v v' : α}

theorem put_put (hne : k ≠ k') {es : List (κ × α)} (hk : k ∈ es.map (·.1))
    (hk' : k' ∈ es.map (·.1)) : put k v (put k' v' es) = put k' v' (put k v es) := by
  induction es with
  | nil => cases hk
  | cons e rest ih =>
    obtain ⟨k₀, v₀⟩ := e
    rw [List.map_cons, List.mem_cons] at hk hk'
    by_cases h : k₀ = k
    · subst h
      simp [put, hne]
    · by_cases h' : k₀ = k'
      · subst h'
        simp [put, h]
      · have hrest := ih (hk.resolve_left fun e => h e.symm) (hk'.resolve_left fun e => h' e.symm)
        simp [put, h, h', hrest]

theorem filter_put (hne : k ≠ k') (es : List (κ × α)) :
    (put k v es).filter (fun e => e.1 ≠ k') = put k v (es.filter fun e => e.1 ≠ k') := by
  induction es with
  | nil => simp [put, hne]
  | cons e rest ih =>
    obtain ⟨k₀, v₀⟩ := e
    by_cases h : k₀ = k
    · subst h
      simp [put, hne]
    · by_cases h' : k₀ = k'
      · subst h'
        simp_all [put]
      · simp_all [put]

theorem put_put_same (es : List (κ × α)) : put k v' (put k v es) = put k v' es := by
  induction es with
  | nil => simp [put]
  | cons e rest ih =>
    obtain ⟨k₀, v₀⟩ := e
    by_cases h : k₀ = k <;> simp [put, h, ih]

theorem put_self {es : List (κ × α)} (h : lookup k es = some v) : put k v es = es := by
  induction es with
  | nil => cases h
  | cons e rest ih =>
    obtain ⟨k₀, v₀⟩ := e
    simp only [lookup] at h
    by_cases hk : k₀ = k
    · simp_all [put]
    · simp_all [put]

/-- Setting a key to the value it has changes nothing. -/
theorem set_self {t : Table κ α} (h : t.get? k = some v) : t.set k v = t :=
  congrArg Table.mk (put_self h)

theorem update_eq_set {t : Table κ α} (f : α → α) (h : t.get? k = some v) :
    t.update k f = t.set k (f v) := by simp only [update, h]

theorem update_eq_self {t : Table κ α} (f : α → α) (h : t.get? k = none) : t.update k f = t := by
  simp only [update, h]

/-- Updates of different keys can be made in either order. -/
theorem update_comm (t : Table κ α) (hne : k ≠ k') (f g : α → α) :
    (t.update k f).update k' g = (t.update k' g).update k f := by
  have hkept : (t.update k f).get? k' = t.get? k' := by rw [get?_update, if_neg hne]
  have hkept' : (t.update k' g).get? k = t.get? k := by rw [get?_update, if_neg hne.symm]
  cases h : t.get? k with
  | none => rw [update_eq_self f h, update_eq_self f (hkept'.trans h)]
  | some v =>
    cases h' : t.get? k' with
    | none => rw [update_eq_self g h', update_eq_self g (hkept.trans h')]
    | some v' =>
      rw [update_eq_set g (hkept.trans h'), update_eq_set f h, update_eq_set f (hkept'.trans h),
        update_eq_set g h']
      exact congrArg Table.mk (put_put hne.symm (mem_keys_of_get? h')
        (mem_keys_of_get? h))

theorem update_erase (t : Table κ α) (hne : k ≠ k') (f : α → α) :
    (t.update k f).erase k' = (t.erase k').update k f := by
  have hkept : (t.erase k').get? k = t.get? k := by rw [get?_erase, if_neg hne.symm]
  cases h : t.get? k with
  | none => rw [update_eq_self f h, update_eq_self f (hkept.trans h)]
  | some v =>
    rw [update_eq_set f h, update_eq_set f (hkept.trans h)]
    exact congrArg Table.mk (filter_put hne t.entries)

theorem set_erase (t : Table κ α) (hne : k ≠ k') (v : α) :
    (t.set k v).erase k' = (t.erase k').set k v := congrArg Table.mk (filter_put hne t.entries)

theorem erase_erase (t : Table κ α) (k : κ) : (t.erase k).erase k = t.erase k := by
  simp only [erase, List.filter_filter, Bool.and_self]

theorem erase_comm (t : Table κ α) (k k' : κ) : (t.erase k).erase k' = (t.erase k').erase k := by
  simp only [erase, List.filter_filter, mk.injEq]
  exact List.filter_congr fun e _ => Bool.and_comm _ _

/-- Two updates of one key are one. -/
theorem update_update (t : Table κ α) (k : κ) (f g : α → α) :
    (t.update k f).update k g = t.update k fun v => g (f v) := by
  cases h : t.get? k with
  | none => rw [update_eq_self f h, update_eq_self g h, update_eq_self _ h]
  | some v =>
    have h' : (t.update k f).get? k = some (f v) := by rw [get?_update, if_pos rfl, h]; rfl
    rw [update_eq_set g h', update_eq_set f h, update_eq_set _ h]
    exact congrArg Table.mk (put_put_same t.entries)

theorem filter_put_same (es : List (κ × α)) :
    (put k v es).filter (fun e => e.1 ≠ k) = es.filter fun e => e.1 ≠ k := by
  induction es with
  | nil => simp [put]
  | cons e rest ih =>
    obtain ⟨k₀, v₀⟩ := e
    by_cases h : k₀ = k <;> simp_all [put]

/-- A value that is set and then erased makes no difference. -/
theorem erase_set (t : Table κ α) (k : κ) (v : α) : (t.set k v).erase k = t.erase k :=
  congrArg Table.mk (filter_put_same t.entries)

/-- An update of a key that is then erased makes no difference. -/
theorem erase_update (t : Table κ α) (k : κ) (f : α → α) : (t.update k f).erase k = t.erase k := by
  cases h : t.get? k with
  | none => rw [update_eq_self f h]
  | some v =>
    rw [update_eq_set f h, erase_set]

theorem update_id (t : Table κ α) {f : α → α} (hf : ∀ v, f v = v) : t.update k f = t := by
  cases h : t.get? k with
  | none => exact update_eq_self f h
  | some v => rw [update_eq_set f h, hf, set_self h]

def updateAll (t : Table κ α) (changes : List (κ × (α → α))) : Table κ α :=
  changes.foldl (fun t c => t.update c.1 c.2) t

theorem updateAll_append (t : Table κ α) (changes changes' : List (κ × (α → α))) :
    t.updateAll (changes ++ changes') = (t.updateAll changes).updateAll changes' :=
  List.foldl_append

theorem get?_updateAll_of_not_mem (t : Table κ α) {changes : List (κ × (α → α))}
    (hk : k ∉ changes.map (·.1)) : (t.updateAll changes).get? k = t.get? k := by
  induction changes generalizing t with
  | nil => rfl
  | cons c rest ih =>
    rw [List.map_cons, List.mem_cons, not_or] at hk
    exact (ih (t.update c.1 c.2) hk.2).trans (by rw [get?_update, if_neg fun e => hk.1 e.symm])

/-- Where no key is changed twice the order of the changes makes no difference. -/
theorem updateAll_perm {changes changes' : List (κ × (α → α))} (h : changes.Perm changes')
    (hn : (changes.map (·.1)).Nodup) (t : Table κ α) : t.updateAll changes = t.updateAll changes' := by
  refine h.foldl_eq' (fun c hc c' hc' t => ?_) t
  by_cases hk : c.1 = c'.1
  · rw [List.inj_on_of_nodup_map hn hc hc' hk]
  · exact update_comm t hk c.2 c'.2

/-- Changes of different keys can be made in either order. -/
theorem updateAll_comm {changes changes' : List (κ × (α → α))}
    (hne : ∀ c ∈ changes, ∀ c' ∈ changes', c.1 ≠ c'.1) (t : Table κ α) :
    (t.updateAll changes).updateAll changes' = (t.updateAll changes').updateAll changes := by
  have hone : ∀ (c : κ × (α → α)) (t : Table κ α), (∀ c' ∈ changes', c.1 ≠ c'.1) →
      (t.update c.1 c.2).updateAll changes' = (t.updateAll changes').update c.1 c.2 := by
    intro c
    clear hne
    induction changes' with
    | nil => exact fun _ _ => rfl
    | cons c' rest ih =>
      intro t hc
      have hrest := ih (t.update c'.1 c'.2) fun c₀ hc₀ => hc c₀ (List.mem_cons_of_mem _ hc₀)
      rw [← update_comm t (hc c' List.mem_cons_self)] at hrest
      exact hrest
  induction changes generalizing t with
  | nil => rfl
  | cons c rest ih =>
    have hrest := ih (fun c₀ hc₀ => hne c₀ (List.mem_cons_of_mem _ hc₀)) (t.update c.1 c.2)
    rw [hone c t (hne c List.mem_cons_self)] at hrest
    exact hrest

end Different

end EventFanout.Table
