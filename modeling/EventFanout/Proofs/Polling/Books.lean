/-
EventFanout.Proofs.Polling.Books — the books of the polling filters.

The registry keeps three lists: creations under way, filters, and the tasks of filters, told
to stop or not. Everything that happens to it is one of a few changes of these lists: a
creation begins, and is entered or fails; a filter is polled or collects something; it is
removed by its client or by the sweeper, which tells its task to stop, or goes with its task
when its subscription has ended; a task that was told to stop leaves; the registry is given up.

The books are tidy (`Polling.Tidy`) when no identity is on the lists twice, the filters are
those whose task goes on, and the counter of slots is right: it is the number of filters and
of creations under way, and within the limit. Every change keeps them tidy under the condition
it is made on (`Changes.tidy`), and a slot is given back only where one is taken
(`Tidy.slots_pos_of_filter`, `Tidy.slots_pos_of_creation`).
-/
import EventFanout.Polling.Basic
import EventFanout.Proofs.Table
import Mathlib.Data.List.Perm.Basic

namespace EventFanout

/-! ## Counting -/

theorem toNat_add_one {a b : UInt64} (h : a < b) : (a + 1).toNat = a.toNat + 1 := by
  have hb := b.toNat_lt
  rw [UInt64.lt_iff_toNat_lt] at h
  rw [UInt64.toNat_add, UInt64.toNat_one]
  omega

theorem toNat_sub_one {a : UInt64} (h : 0 < a.toNat) : (a - 1).toNat + 1 = a.toNat := by
  have hle : 1 ≤ a := by
    rw [UInt64.le_iff_toNat_le, UInt64.toNat_one]
    exact h
  rw [UInt64.toNat_sub_of_le _ _ hle, UInt64.toNat_one]
  omega

/-- To leave out what has the key of an entry is to leave out that entry, if no key is there
twice. -/
theorem perm_filter_ne {α κ : Type} [DecidableEq α] [DecidableEq κ] {f : α → κ} {l : List α}
    (hn : (l.map f).Nodup) {a : α} (ha : a ∈ l) :
    l.Perm (a :: l.filter fun x => f x ≠ f a) := by
  have hsame : (l.filter fun x => f x ≠ f a) = l.erase a := by
    rw [hn.of_map.erase_eq_filter]
    apply List.filter_congr
    intro x hx
    have hiff : f x = f a ↔ x = a := ⟨List.inj_on_of_nodup_map hn hx ha, fun e => by rw [e]⟩
    rw [decide_eq_decide.mpr (not_congr hiff), decide_not]
    rfl
  rw [hsame]
  exact List.perm_cons_erase ha

/-- Whoever is looked for by its key is found, if no key is there twice. -/
theorem find?_of_mem {α κ : Type} [DecidableEq κ] {f : α → κ} {l : List α} (hn : (l.map f).Nodup)
    {a : α} (ha : a ∈ l) : l.find? (fun x => f x = f a) = some a := by
  have hsome : (l.find? fun x => f x = f a).isSome := List.find?_isSome.mpr ⟨a, ha, by simp⟩
  obtain ⟨a', ha'⟩ := Option.isSome_iff_exists.mp hsome
  have hkey : f a' = f a := by simpa using List.find?_some ha'
  rw [ha', List.inj_on_of_nodup_map hn (List.mem_of_find?_eq_some ha') ha hkey]

/-- What is left of some keys when those that are one key have been left out. -/
theorem mem_map_filter_ne {α κ : Type} [DecidableEq κ] {f : α → κ} {l : List α} {k k' : κ} :
    k ∈ (l.filter fun x => f x ≠ k').map f ↔ k ∈ l.map f ∧ k ≠ k' := by
  simp only [List.mem_map, List.mem_filter, decide_eq_true_eq]
  constructor
  · rintro ⟨x, ⟨hx, hne⟩, rfl⟩
    exact ⟨⟨x, hx, rfl⟩, hne⟩
  · rintro ⟨⟨x, hx, rfl⟩, hne⟩
    exact ⟨x, ⟨hx, hne⟩, rfl⟩

namespace Polling

variable {p : Polling} {limit : UInt64} {id : SubscriptionId} {c : Creation} {f : Filter}

/-! ## Changes of the books -/

def ids (p : Polling) : List SubscriptionId := p.creations.map Creation.id ++ p.drains.map Drain.id

def begun (p : Polling) (c : Creation) : Polling :=
  { p with slots := p.slots + 1, creations := p.creations ++ [c] }

def entered (p : Polling) (id : SubscriptionId) (f : Filter) : Polling :=
  { p with
    creations := p.creations.filter fun c => c.id ≠ id
    filters := p.filters.set id f
    drains := p.drains ++ [⟨id, false⟩] }

def failed (p : Polling) (id : SubscriptionId) : Polling :=
  { p with creations := p.creations.filter fun c => c.id ≠ id, slots := p.slots - 1 }

def changed (p : Polling) (id : SubscriptionId) (f : Filter) : Polling :=
  { p with filters := p.filters.set id f }

def removed (p : Polling) (id : SubscriptionId) : Polling :=
  { p with
    filters := p.filters.erase id
    slots := p.slots - 1
    drains := p.drains.map fun d => if d.id = id then d.cancel else d }

def left (p : Polling) (id : SubscriptionId) : Polling :=
  { p with drains := p.drains.filter fun d => d.id ≠ id }

def expired (p : Polling) (id : SubscriptionId) : Polling :=
  { p with filters := p.filters.erase id, slots := p.slots - 1 }.left id

def closed (p : Polling) : Polling :=
  { p with live := false, filters := {}, drains := p.drains.map Drain.cancel }

/-! ## Tidy books -/

/-- How the lists of the books belong together, and what the counter of slots says. -/
structure Tidy (limit : UInt64) (p : Polling) : Prop where
  /-- No identity is on the lists twice. -/
  once : p.ids.Nodup
  filed : p.filters.keys.Nodup
  /-- The filters are those whose task has not been told to stop. -/
  drained : ∀ id, id ∈ p.filters.keys ↔ ⟨id, false⟩ ∈ p.drains
  /-- Nothing is left of a registry that was given up but its tasks. -/
  shut : p.live = false → p.creations = [] ∧ p.filters.keys = []
  counted : p.live = true → p.slots.toNat = p.filters.size + p.creations.length
  bounded : p.live = true → p.slots ≤ limit

theorem mem_ids : id ∈ p.ids ↔ id ∈ p.creations.map Creation.id ∨ id ∈ p.drains.map Drain.id :=
  List.mem_append

@[simp] theorem cancel_id (d : Drain) : d.cancel.id = d.id := rfl

/-- Tasks that are told to stop are tasks still. -/
theorem drains_removed (p : Polling) (id : SubscriptionId) :
    (p.removed id).drains.map Drain.id = p.drains.map Drain.id := by
  simp only [removed, List.map_map]
  apply List.map_congr_left
  intro d _
  by_cases hd : d.id = id <;> simp [hd]

theorem drains_closed (p : Polling) : p.closed.drains.map Drain.id = p.drains.map Drain.id := by
  simp only [closed, List.map_map]
  rfl

theorem ids_removed (p : Polling) (id : SubscriptionId) : (p.removed id).ids = p.ids := by
  rw [ids, ids, drains_removed]
  rfl

theorem ids_closed (p : Polling) : p.closed.ids = p.ids := by
  rw [ids, ids, drains_closed]
  rfl

theorem ids_begun (p : Polling) (c : Creation) : (p.begun c).ids.Perm (c.id :: p.ids) := by
  simp only [ids, begun, List.map_append, List.map_cons, List.map_nil, List.append_assoc]
  exact List.perm_middle

namespace Tidy

/-- A creation under way has no task yet. -/
theorem not_drained (h : p.Tidy limit) (hc : id ∈ p.creations.map Creation.id) :
    id ∉ p.drains.map Drain.id := by
  have hn := h.once
  rw [ids, List.nodup_append] at hn
  exact fun hd => hn.2.2 id hc id hd rfl

theorem creations_once (h : p.Tidy limit) : (p.creations.map Creation.id).Nodup :=
  (List.nodup_append.mp h.once).1

theorem drains_once (h : p.Tidy limit) : (p.drains.map Drain.id).Nodup :=
  (List.nodup_append.mp h.once).2.1

/-- A filter has a task. -/
theorem mem_drains (h : p.Tidy limit) (hf : id ∈ p.filters.keys) :
    id ∈ p.drains.map Drain.id :=
  List.mem_map.mpr ⟨_, (h.drained id).mp hf, rfl⟩

/-- A creation under way is no filter yet. -/
theorem not_filed (h : p.Tidy limit) (hc : id ∈ p.creations.map Creation.id) :
    id ∉ p.filters.keys :=
  fun hf => h.not_drained hc (h.mem_drains hf)

/-- Who has failed is off the books. -/
theorem not_mem_ids_failed (h : p.Tidy limit) (hc : c ∈ p.creations) : c.id ∉ (p.failed c.id).ids := by
  rw [Polling.mem_ids]
  rintro (hm | hm)
  · exact (mem_map_filter_ne.mp hm).2 rfl
  · exact h.not_drained (List.mem_map_of_mem hc) hm

/-- Whose task has ended is off the books. -/
theorem not_mem_ids_left (h : p.Tidy limit) (hd : id ∈ p.drains.map Drain.id) :
    id ∉ (p.left id).ids := by
  rw [Polling.mem_ids]
  rintro (hm | hm)
  · exact h.not_drained hm hd
  · exact (mem_map_filter_ne.mp hm).2 rfl

/-- A task that was told to stop has no filter any more. -/
theorem not_filed_of_cancelled (h : p.Tidy limit) (hd : ⟨id, true⟩ ∈ p.drains) :
    id ∉ p.filters.keys := by
  intro hf
  have he := List.inj_on_of_nodup_map h.drains_once hd ((h.drained id).mp hf) rfl
  cases he

theorem live_of_creation (h : p.Tidy limit) (hc : c ∈ p.creations) : p.live = true := by
  cases hl : p.live with
  | true => rfl
  | false =>
    rw [(h.shut hl).1] at hc
    cases hc

theorem live_of_filter (h : p.Tidy limit) (hf : id ∈ p.filters.keys) : p.live = true := by
  cases hl : p.live with
  | true => rfl
  | false =>
    rw [(h.shut hl).2] at hf
    cases hf

/-- Where a filter goes, a slot is taken. -/
theorem slots_pos_of_filter (h : p.Tidy limit) (hf : id ∈ p.filters.keys) :
    0 < p.slots.toNat := by
  have hsize : 0 < p.filters.size := by
    rw [← Table.length_keys]
    exact List.length_pos_of_mem hf
  rw [h.counted (h.live_of_filter hf)]
  omega

/-- Where a creation comes to nothing, a slot is taken. -/
theorem slots_pos_of_creation (h : p.Tidy limit) (hc : c ∈ p.creations) : 0 < p.slots.toNat := by
  have hlen := List.length_pos_of_mem hc
  rw [h.counted (h.live_of_creation hc)]
  omega

/-- Nothing is on the books of a new registry. -/
theorem fresh (limit : UInt64) (due : Nat) : Tidy limit { live := true, sweepDue := due } where
  once := List.nodup_nil
  filed := List.nodup_nil
  drained := fun id => by simp [Table.keys]
  shut := by simp
  counted := fun _ => rfl
  bounded := fun _ => UInt64.zero_le

theorem begun (h : p.Tidy limit) (hlive : p.live = true) (hfree : p.slots < limit)
    (hnew : c.id ∉ p.ids) : (p.begun c).Tidy limit where
  once := (ids_begun p c).nodup_iff.mpr (List.nodup_cons.mpr ⟨hnew, h.once⟩)
  filed := h.filed
  drained := h.drained
  shut := fun hl => nomatch hlive.symm.trans hl
  counted := by
    intro _
    have hcount := h.counted hlive
    simp only [Polling.begun, toNat_add_one hfree, List.length_append, List.length_singleton]
    omega
  bounded := by
    intro _
    rw [UInt64.le_iff_toNat_le]
    simp only [Polling.begun, toNat_add_one hfree]
    exact UInt64.lt_iff_toNat_lt.mp hfree

/-- The creations under way are one and the others. -/
theorem creations_perm (h : p.Tidy limit) (hc : c ∈ p.creations) :
    p.creations.Perm (c :: p.creations.filter fun c' => c'.id ≠ c.id) :=
  perm_filter_ne h.creations_once hc

theorem entered (h : p.Tidy limit) (hc : c ∈ p.creations) : (p.entered c.id f).Tidy limit where
  once := by
    have hperm : (p.entered c.id f).ids.Perm p.ids := by
      have hmap := (h.creations_perm hc).map Creation.id
      simp only [ids, Polling.entered, List.map_append, List.map_cons, List.map_nil]
      rw [← List.append_assoc]
      exact (List.perm_append_singleton c.id _).trans (hmap.symm.append_right _)
    exact hperm.nodup_iff.mpr h.once
  filed := by
    have hnew := h.not_filed (List.mem_map_of_mem hc)
    simp only [Polling.entered, Table.keys_set_of_not_mem f hnew]
    exact List.nodup_append.mpr ⟨h.filed, List.nodup_singleton _, fun a ha b hb => by
      rw [List.mem_singleton.mp hb]
      rintro rfl
      exact hnew ha⟩
  drained := by
    intro id
    have hnew := h.not_filed (List.mem_map_of_mem hc)
    simp only [Polling.entered, Table.keys_set_of_not_mem f hnew, List.mem_append,
      List.mem_singleton, Drain.mk.injEq, and_true, h.drained]
  shut := fun hl => nomatch (h.live_of_creation hc).symm.trans hl
  counted := by
    intro hl
    have hnew := h.not_filed (List.mem_map_of_mem hc)
    have hlen := (h.creations_perm hc).length_eq
    have hcount := h.counted hl
    simp only [Polling.entered, Table.size_set_of_not_mem f hnew, List.length_cons] at hlen ⊢
    omega
  bounded := h.bounded

theorem failed (h : p.Tidy limit) (hc : c ∈ p.creations) : (p.failed c.id).Tidy limit where
  once := h.once.sublist ((List.filter_sublist.map _).append_right _)
  filed := h.filed
  drained := h.drained
  shut := fun hl => nomatch (h.live_of_creation hc).symm.trans hl
  counted := by
    intro hl
    have hlen := (h.creations_perm hc).length_eq
    have hcount := h.counted hl
    have hsub := toNat_sub_one (h.slots_pos_of_creation hc)
    simp only [Polling.failed, List.length_cons] at hlen ⊢
    omega
  bounded := by
    intro hl
    have hsub := toNat_sub_one (h.slots_pos_of_creation hc)
    have hle := UInt64.le_iff_toNat_le.mp (h.bounded hl)
    rw [UInt64.le_iff_toNat_le]
    simp only [Polling.failed]
    omega

theorem changed (h : p.Tidy limit) (hf : id ∈ p.filters.keys) : (p.changed id f).Tidy limit where
  once := h.once
  filed := by
    simp only [Polling.changed, Table.keys_set_of_mem f hf]
    exact h.filed
  drained := by
    simp only [Polling.changed, Table.keys_set_of_mem f hf]
    exact h.drained
  shut := by
    intro hl
    simp only [Polling.changed, Table.keys_set_of_mem f hf]
    exact h.shut hl
  counted := by
    intro hl
    simp only [Polling.changed, Table.size_set_of_mem f hf]
    exact h.counted hl
  bounded := h.bounded

/-- The books without a filter, its slot given back. -/
theorem erased (h : p.Tidy limit) (hf : id ∈ p.filters.keys) :
    (p.slots - 1).toNat = (p.filters.erase id).size + p.creations.length ∧ p.slots - 1 ≤ limit := by
  have hlive := h.live_of_filter hf
  have hcount := h.counted hlive
  have hle := UInt64.le_iff_toNat_le.mp (h.bounded hlive)
  have hsub := toNat_sub_one (h.slots_pos_of_filter hf)
  obtain ⟨⟨id, f⟩, hv, rfl⟩ := List.mem_map.mp hf
  have hsize := Table.size_erase h.filed hv
  simp only at hsub ⊢
  refine ⟨by omega, ?_⟩
  rw [UInt64.le_iff_toNat_le]
  omega

theorem removed (h : p.Tidy limit) (hf : id ∈ p.filters.keys) : (p.removed id).Tidy limit where
  once := by
    rw [ids_removed]
    exact h.once
  filed := Table.nodup_keys_erase id h.filed
  drained := by
    intro id'
    simp only [Polling.removed, Table.keys_erase, List.mem_filter, decide_eq_true_eq, h.drained,
      List.mem_map]
    constructor
    · rintro ⟨hd, hne⟩
      exact ⟨_, hd, if_neg hne⟩
    · rintro ⟨d, hd, he⟩
      split at he
      · cases he
      · rename_i hne
        subst he
        exact ⟨hd, hne⟩
  shut := fun hl => nomatch (h.live_of_filter hf).symm.trans hl
  counted := fun _ => (h.erased hf).1
  bounded := fun _ => (h.erased hf).2

theorem expired (h : p.Tidy limit) (hf : id ∈ p.filters.keys) : (p.expired id).Tidy limit where
  once := h.once.sublist ((List.filter_sublist.map _).append_left _)
  filed := Table.nodup_keys_erase id h.filed
  drained := by
    intro id'
    simp only [Polling.expired, left, Table.keys_erase, List.mem_filter, decide_eq_true_eq,
      h.drained]
  shut := fun hl => nomatch (h.live_of_filter hf).symm.trans hl
  counted := fun _ => (h.erased hf).1
  bounded := fun _ => (h.erased hf).2

theorem left (h : p.Tidy limit) (hf : id ∉ p.filters.keys) : (p.left id).Tidy limit where
  once := h.once.sublist ((List.filter_sublist.map _).append_left _)
  filed := h.filed
  drained := by
    intro id'
    simp only [Polling.left, List.mem_filter, decide_eq_true_eq, h.drained]
    refine ⟨fun hd => ⟨hd, ?_⟩, And.left⟩
    rintro rfl
    exact hf ((h.drained id').mpr hd)
  shut := h.shut
  counted := h.counted
  bounded := h.bounded

theorem closed (h : p.Tidy limit) (hc : p.creations = []) : p.closed.Tidy limit where
  once := by
    rw [ids_closed]
    exact h.once
  filed := List.nodup_nil
  drained := by
    intro id
    simp [Polling.closed, Table.keys, Drain.cancel]
  shut := fun _ => ⟨hc, rfl⟩
  counted := by simp [Polling.closed]
  bounded := by simp [Polling.closed]

end Tidy

/-! ## What leaves the books -/

/-- The lists of the books where no creation begins: nobody is new on them, and who becomes a filter
or gets a task was under way. -/
structure Shrinks (p p' : Polling) : Prop where
  creations : ∀ id ∈ p'.creations.map Creation.id, id ∈ p.creations.map Creation.id
  filters : ∀ id ∈ p'.filters.keys, id ∈ p.filters.keys ∨ id ∈ p.creations.map Creation.id
  drains : ∀ id ∈ p'.drains.map Drain.id,
    id ∈ p.drains.map Drain.id ∨ id ∈ p.creations.map Creation.id

namespace Shrinks

variable {p' p'' : Polling}

theorem refl (p : Polling) : p.Shrinks p := ⟨fun _ => id, fun _ => .inl, fun _ => .inl⟩

theorem trans (h : p.Shrinks p') (h' : p'.Shrinks p'') : p.Shrinks p'' where
  creations := fun id hm => h.creations id (h'.creations id hm)
  filters := fun id hm => (h'.filters id hm).elim (h.filters id) fun hc => .inr (h.creations id hc)
  drains := fun id hm => (h'.drains id hm).elim (h.drains id) fun hc => .inr (h.creations id hc)

theorem ids (h : p.Shrinks p') : ∀ id ∈ p'.ids, id ∈ p.ids := by
  intro id hm
  rw [mem_ids] at hm ⊢
  rcases hm with hm | hm
  · exact .inl (h.creations id hm)
  · exact (h.drains id hm).symm

theorem entered (hc : c ∈ p.creations) : p.Shrinks (p.entered c.id f) where
  creations := fun id hm => (mem_map_filter_ne.mp hm).1
  filters := by
    intro id hm
    obtain ⟨⟨id, f'⟩, he, rfl⟩ := List.mem_map.mp hm
    rcases Table.mem_entries_set he with hold | ⟨rfl, -⟩
    · exact .inl (Table.mem_keys_of_mem hold)
    · exact .inr (List.mem_map_of_mem hc)
  drains := by
    intro id hm
    simp only [Polling.entered, List.map_append, List.map_cons, List.map_nil, List.mem_append,
      List.mem_singleton] at hm
    rcases hm with hm | rfl
    · exact .inl hm
    · exact .inr (List.mem_map_of_mem hc)

theorem failed (p : Polling) (id : SubscriptionId) : p.Shrinks (p.failed id) where
  creations := fun _ hm => (mem_map_filter_ne.mp hm).1
  filters := fun _ => .inl
  drains := fun _ => .inl

theorem changed (hf : id ∈ p.filters.keys) : p.Shrinks (p.changed id f) where
  creations := fun _ hm => hm
  filters := by
    intro id' hm
    simp only [Polling.changed, Table.keys_set_of_mem f hf] at hm
    exact .inl hm
  drains := fun _ => .inl

theorem removed (p : Polling) (id : SubscriptionId) : p.Shrinks (p.removed id) where
  creations := fun _ hm => hm
  filters := by
    intro id' hm
    simp only [Polling.removed, Table.keys_erase] at hm
    exact .inl (List.mem_of_mem_filter hm)
  drains := by
    intro id' hm
    rw [drains_removed] at hm
    exact .inl hm

theorem left (p : Polling) (id : SubscriptionId) : p.Shrinks (p.left id) where
  creations := fun _ hm => hm
  filters := fun _ => .inl
  drains := fun _ hm => .inl (mem_map_filter_ne.mp hm).1

theorem expired (p : Polling) (id : SubscriptionId) : p.Shrinks (p.expired id) where
  creations := fun _ hm => hm
  filters := (removed p id).filters
  drains := (left p id).drains

theorem closed (p : Polling) : p.Shrinks p.closed where
  creations := fun _ hm => hm
  filters := by simp [Polling.closed, Table.keys]
  drains := by
    intro id hm
    rw [drains_closed] at hm
    exact .inl hm

end Shrinks

/-! ## One change after the other -/

/-- One change of the books that begins no creation, with what it is made on. -/
inductive Changes : Polling → Polling → Prop
  | same {p : Polling} : Changes p p
  | entered {p : Polling} {c : Creation} {f : Filter} : c ∈ p.creations → f.request = c.request →
      Changes p (p.entered c.id f)
  | failed {p : Polling} {c : Creation} : c ∈ p.creations → Changes p (p.failed c.id)
  | changed {p : Polling} {id : SubscriptionId} {f f' : Filter} : p.filters.get? id = some f →
      f'.request = f.request → Changes p (p.changed id f')
  | removed {p : Polling} {id : SubscriptionId} : id ∈ p.filters.keys → Changes p (p.removed id)
  | expired {p : Polling} {id : SubscriptionId} : id ∈ p.filters.keys → Changes p (p.expired id)
  | left {p : Polling} {id : SubscriptionId} : ⟨id, true⟩ ∈ p.drains ∨ id ∉ p.filters.keys →
      Changes p (p.left id)
  /-- The next sweep is due at another time. -/
  | due {p : Polling} (time : Nat) : Changes p { p with sweepDue := time }
  | closed {p : Polling} : p.creations = [] → Changes p p.closed

namespace Changes

variable {p' : Polling}

theorem tidy (h : p.Changes p') (ht : p.Tidy limit) : p'.Tidy limit := by
  cases h with
  | same => exact ht
  | entered hc _ => exact ht.entered hc
  | failed hc => exact ht.failed hc
  | changed hf _ => exact ht.changed (Table.mem_keys_of_get? hf)
  | removed hf => exact ht.removed hf
  | expired hf => exact ht.expired hf
  | left hd => exact ht.left (hd.elim ht.not_filed_of_cancelled id)
  | due time => exact ⟨ht.once, ht.filed, ht.drained, ht.shut, ht.counted, ht.bounded⟩
  | closed hc => exact ht.closed hc

theorem shrinks (h : p.Changes p') : p.Shrinks p' := by
  cases h with
  | same => exact .refl p
  | entered hc _ => exact .entered hc
  | failed _ => exact .failed _ _
  | changed hf _ => exact .changed (Table.mem_keys_of_get? hf)
  | removed _ => exact .removed _ _
  | expired _ => exact .expired _ _
  | left _ => exact .left _ _
  | due time => exact ⟨fun _ => id, fun _ => .inl, fun _ => .inl⟩
  | closed _ => exact .closed _

/-- A registry that was given up is not opened again. -/
theorem shut (h : p.Changes p') (hl : p.live = false) : p'.live = false := by
  cases h with
  | closed _ => rfl
  | _ => exact hl

end Changes

end Polling

end EventFanout
