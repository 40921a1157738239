/-
EventFanout.Proofs.Lifecycle.Roster — where every subscription is.

A subscription is held by a client, waits to be installed, is installed, or is gone;
`World.everyone` lists those that are not gone. `Roster` is the invariant that no
identity is on that list twice and that every identity on it has been issued: so a
subscription is in one place, and one that is gone cannot come back under its identity.

Main statement: every action keeps the roster (`act_roster`). A step of the hub moves
the subscription it is about and removes those that end; no other entry of the list
changes, which is a matter of permutations and sublists.
-/
import EventFanout.Proofs.Hub.Lines
import EventFanout.Proofs.Line
import EventFanout.Proofs.Run
import Mathlib.Data.List.Perm.Subperm

namespace EventFanout.World

def everyone (w : World) : List Subscription :=
  w.held.values ++ w.hub.installs ++ w.hub.index.values

def Issued (w : World) (id : SubscriptionId) : Prop := ∃ n, id = .issued n ∧ n < w.issued

inductive Place where
  | held
  | queued
  | indexed
  | gone
  deriving DecidableEq, Repr

def In (w : World) (s : Subscription) : Place → Prop
  | .held => s ∈ w.held.values
  | .queued => s ∈ w.hub.installs
  | .indexed => s ∈ w.hub.index.values
  | .gone => s.id ∉ w.everyone.map Subscription.id ∧ w.Issued s.id

/-- Every subscription is in one place, and every identity has been issued. -/
structure Roster (w : World) : Prop where
  sound : w.hub.Sound
  /-- A subscription is held under its own identity. -/
  own : ∀ id s, (id, s) ∈ w.held.entries → id = s.id
  once : (w.everyone.map Subscription.id).Nodup
  issued : ∀ s ∈ w.everyone, w.Issued s.id
  /-- What waits has passed the check that the hub makes again. -/
  admitted : ∀ s ∈ w.hub.installs,
    (w.hub.config.lightMode && s.kind.requiresFullNode) = false

theorem everyone_of_same {w w' : World} (hi : SameIntake w w')
    (hx : w'.hub.index = w.hub.index) : w'.everyone = w.everyone := by
  rw [everyone, everyone, hi.held, hi.installs, hx]

namespace Roster

variable {w w' : World}

theorem mem_everyone {s : Subscription} :
    s ∈ w.everyone ↔ s ∈ w.held.values ∨ s ∈ w.hub.installs ∨ s ∈ w.hub.index.values := by
  simp [everyone]

/-- An identity leads to one subscription. -/
theorem unique (h : w.Roster) {s s' : Subscription} (hs : s ∈ w.everyone) (hs' : s' ∈ w.everyone)
    (hid : s.id = s'.id) : s = s' :=
  List.inj_on_of_nodup_map h.once hs hs' hid

theorem mem_of_in {s : Subscription} {p : Place} (hp : p ≠ .gone) (hs : w.In s p) :
    s ∈ w.everyone := by
  rw [mem_everyone]
  cases p with
  | held => exact .inl hs
  | queued => exact .inr (.inl hs)
  | indexed => exact .inr (.inr hs)
  | gone => exact absurd rfl hp

theorem in_of_mem {s : Subscription} (hs : s ∈ w.everyone) : ∃ p, p ≠ .gone ∧ w.In s p := by
  rcases mem_everyone.mp hs with hs | hs | hs
  · exact ⟨.held, by simp, hs⟩
  · exact ⟨.queued, by simp, hs⟩
  · exact ⟨.indexed, by simp, hs⟩

/-- Whoever has the identity of a subscription that is on the roster is that subscription. -/
theorem eq_of_in (h : w.Roster) {s s' : Subscription} {p : Place} (hs : w.In s p)
    (hs' : s' ∈ w.everyone) (hid : s'.id = s.id) : s' = s ∧ p ≠ .gone := by
  have hp : p ≠ .gone := by
    rintro rfl
    exact hs.1 (hid ▸ List.mem_map.mpr ⟨s', hs', rfl⟩)
  exact ⟨h.unique hs' (mem_of_in hp hs) hid, hp⟩

theorem issued_of_in (h : w.Roster) {s : Subscription} {p : Place} (hs : w.In s p) :
    w.Issued s.id := by
  by_cases hp : p = .gone
  · subst hp
    exact hs.2
  · exact h.issued s (mem_of_in hp hs)

/-- The three lists have no subscription in common. -/
theorem parts (h : w.Roster) : w.held.values.Nodup ∧ w.hub.installs.Nodup ∧
    (∀ s ∈ w.held.values, s ∉ w.hub.installs) ∧ (∀ s ∈ w.held.values, s ∉ w.hub.index.values) ∧
    (∀ s ∈ w.hub.installs, s ∉ w.hub.index.values) := by
  have hn := h.once.of_map
  rw [everyone, List.nodup_append, List.nodup_append] at hn
  obtain ⟨⟨hh, hq, hhq⟩, -, hx⟩ := hn
  refine ⟨hh, hq, ?_, ?_, ?_⟩
  · exact fun s hs hs' => hhq s hs s hs' rfl
  · exact fun s hs hs' => hx s (List.mem_append_left _ hs) s hs' rfl
  · exact fun s hs hs' => hx s (List.mem_append_right _ hs) s hs' rfl

/-- A subscription is in one place only. -/
theorem place_unique (h : w.Roster) {s : Subscription} {p q : Place} (hp : w.In s p)
    (hq : w.In s q) : p = q := by
  obtain ⟨-, -, hhq, hhx, hqx⟩ := h.parts
  have hgone : ∀ {p}, w.In s p → p ≠ .gone → ¬ w.In s .gone := by
    intro p hs hp hg
    exact hg.1 (List.mem_map.mpr ⟨s, mem_of_in hp hs, rfl⟩)
  cases p with
  | held =>
    cases q with
    | held => rfl
    | queued => exact absurd hq (hhq s hp)
    | indexed => exact absurd hq (hhx s hp)
    | gone => exact absurd hq (hgone hp (by simp))
  | queued =>
    cases q with
    | held => exact absurd hp (hhq s hq)
    | queued => rfl
    | indexed => exact absurd hq (hqx s hp)
    | gone => exact absurd hq (hgone hp (by simp))
  | indexed =>
    cases q with
    | held => exact absurd hp (hhx s hq)
    | queued => exact absurd hp (hqx s hq)
    | indexed => rfl
    | gone => exact absurd hq (hgone hp (by simp))
  | gone =>
    cases q with
    | gone => rfl
    | held => exact absurd hp (hgone hq (by simp))
    | queued => exact absurd hp (hgone hq (by simp))
    | indexed => exact absurd hp (hgone hq (by simp))

/-- The hub installs under the key that a subscription of the index is filed under. -/
theorem contains_eq_false (h : w.Roster) {s : Subscription} (hs : s ∈ w.hub.installs) :
    w.hub.contains s.id = false := by
  rw [Hub.contains_eq_false_iff, ← h.sound.consistent.values_ids]
  intro hm
  obtain ⟨s', hs', hid⟩ := List.mem_map.mp hm
  have he := h.unique (mem_everyone.mpr (.inr (.inr hs'))) (mem_everyone.mpr (.inr (.inl hs))) hid
  subst he
  exact h.parts.2.2.2.2 s' hs hs'

/-! ## What keeps the roster -/

/-- Fewer on the list, in another order: nothing to check but what waits. -/
theorem of_subperm (h : w.Roster) (hs : w'.hub.Sound)
    (hown : ∀ id s, (id, s) ∈ w'.held.entries → id = s.id)
    (hsub : w'.everyone.Subperm w.everyone) (hi : w'.issued = w.issued)
    (hadm : ∀ s ∈ w'.hub.installs, (w'.hub.config.lightMode && s.kind.requiresFullNode) = false) :
    w'.Roster where
  sound := hs
  own := hown
  once := by
    obtain ⟨l, hp, hl⟩ := hsub
    have hn : (l.map Subscription.id).Nodup := h.once.sublist (hl.map _)
    exact (hp.map _).nodup_iff.mp hn
  issued := by
    intro s hm
    obtain ⟨n, hid, hlt⟩ := h.issued s (hsub.subset hm)
    exact ⟨n, hid, hi ▸ hlt⟩
  admitted := hadm

theorem of_same (h : w.Roster) (hl : w.hub.SameLoop w'.hub) (hi : SameIntake w w') :
    w'.Roster := by
  refine h.of_subperm (h.sound.of_sameLoop hl) ?_ ?_ hi.issued ?_
  · rw [hi.held]
    exact h.own
  · rw [everyone_of_same hi hl.index]
  · rw [hi.installs, hi.config]
    exact h.admitted

/-- The next identity is not on the list. -/
theorem fresh (h : w.Roster) {s : Subscription} (hid : s.id = .issued w.issued) :
    s.id ∉ w.everyone.map Subscription.id := by
  intro hm
  obtain ⟨s', hs', hid'⟩ := List.mem_map.mp hm
  obtain ⟨n, hn, hlt⟩ := h.issued s' hs'
  rw [hid', hid, SubscriptionId.issued.injEq] at hn
  omega

theorem values_made (h : w.Roster) {s : Subscription} (hid : s.id = .issued w.issued) :
    (w.held.set s.id s).values = w.held.values ++ [s] := by
  have hkey : s.id ∉ w.held.keys := by
    intro hm
    obtain ⟨e, he, hk⟩ := List.mem_map.mp hm
    refine h.fresh hid (List.mem_map.mpr ⟨e.2, mem_everyone.mpr (.inl ?_), ?_⟩)
    · exact List.mem_map.mpr ⟨e, he, rfl⟩
    · rw [← h.own e.1 e.2 he]
      exact hk
  rw [Table.values, Table.entries_set_of_not_mem s hkey, List.map_append]
  rfl

theorem everyone_made (h : w.Roster) {s : Subscription} (hid : s.id = .issued w.issued)
    (buffer : Nat) (attached : Bool) :
    (w.made s buffer attached).everyone.Perm (s :: w.everyone) := by
  show ((w.held.set s.id s).values ++ w.hub.installs ++ w.hub.index.values).Perm _
  rw [h.values_made hid, everyone]
  simp only [List.append_assoc, List.singleton_append]
  exact List.perm_middle

theorem made (h : w.Roster) {s : Subscription} (hid : s.id = .issued w.issued) (buffer : Nat)
    (attached : Bool) : (w.made s buffer attached).Roster := by
  have hperm := h.everyone_made hid buffer attached
  constructor
  · exact h.sound.of_sameLoop (.refl _)
  · intro id s' hm
    have hget := Table.mem_entries_set hm
    rcases hget with hm | ⟨rfl, rfl⟩
    · exact h.own id s' hm
    · rfl
  · rw [(hperm.map _).nodup_iff, List.map_cons, List.nodup_cons]
    exact ⟨h.fresh hid, h.once⟩
  · intro s' hm
    rcases List.mem_cons.mp (hperm.mem_iff.mp hm) with rfl | hm
    · exact ⟨w.issued, hid, Nat.lt_succ_self _⟩
    · obtain ⟨n, hn, hlt⟩ := h.issued s' hm
      exact ⟨n, hn, Nat.lt_succ_of_lt hlt⟩
  · exact h.admitted

/-- What is held under an identity is the subscription of that identity. -/
theorem id_of_held (h : w.Roster) {id : SubscriptionId} {s : Subscription}
    (hh : w.held.get? id = some s) : s.id = id ∧ s ∈ w.held.values := by
  have hm := Table.mem_entries_of_get? hh
  exact ⟨(h.own id s hm).symm, List.mem_map.mpr ⟨_, hm, rfl⟩⟩

theorem get?_of_held (h : w.Roster) {s : Subscription} (hs : s ∈ w.held.values) :
    w.held.get? s.id = some s := by
  obtain ⟨e, he, rfl⟩ := List.mem_map.mp hs
  have hk := Table.mem_keys_of_mem he
  rw [h.own e.1 e.2 he] at hk
  cases hget : w.held.get? e.2.id with
  | none => exact absurd hk ((Table.get?_eq_none_iff _ _).mp hget)
  | some s' =>
    obtain ⟨hid, hs'⟩ := h.id_of_held hget
    rw [h.unique (mem_everyone.mpr (.inl hs')) (mem_everyone.mpr (.inl hs)) hid]

theorem held_keys_once (h : w.Roster) : w.held.keys.Nodup := by
  have hk : w.held.keys = w.held.values.map Subscription.id := by
    simp only [Table.keys, Table.values, List.map_map]
    apply List.map_congr_left
    intro e he
    exact h.own e.1 e.2 he
  rw [hk]
  refine h.once.sublist (List.Sublist.map _ ?_)
  exact (List.sublist_append_left _ _).trans (List.sublist_append_left _ _)

theorem held_perm (h : w.Roster) {s : Subscription} (hh : w.held.get? s.id = some s) :
    w.held.values.Perm (s :: (w.held.erase s.id).values) :=
  (Table.perm_erase h.held_keys_once (Table.mem_entries_of_get? hh)).map _

theorem own_erase (h : w.Roster) (id' : SubscriptionId) :
    ∀ id s, (id, s) ∈ (w.held.erase id').entries → id = s.id :=
  fun id s hm => h.own id s (Table.mem_entries_erase.mp hm).1

/-- A subscription that is handed in goes from one list to the next. -/
theorem queued (h : w.Roster) {s : Subscription} (hh : w.held.get? s.id = some s)
    (hadm : (w.hub.config.lightMode && s.kind.requiresFullNode) = false) :
    Roster { w with held := w.held.erase s.id, hub.installs := w.hub.installs ++ [s] } := by
  refine h.of_subperm (h.sound.of_sameLoop ⟨rfl, rfl, rfl, rfl, rfl, rfl⟩) (h.own_erase _) ?_ rfl ?_
  · apply List.Perm.subperm
    show ((w.held.erase s.id).values ++ (w.hub.installs ++ [s]) ++ w.hub.index.values).Perm
      (w.held.values ++ w.hub.installs ++ w.hub.index.values)
    have hp := ((h.held_perm hh).append_right w.hub.installs).append_right w.hub.index.values
    refine List.Perm.trans ?_ hp.symm
    simp only [← List.append_assoc, List.cons_append]
    rw [List.append_assoc, List.singleton_append]
    exact List.perm_middle
  · intro s' hm
    rcases List.mem_append.mp hm with hm | hm
    · exact h.admitted s' hm
    · rw [List.mem_singleton.mp hm]
      exact hadm

/-- A subscription that is given up, or that the hub does not take, is off the list. -/
theorem unheld (h : w.Roster) (id : SubscriptionId) (hl : w.hub.SameLoop w'.hub)
    (hq : w'.hub.installs = w.hub.installs) (hc : w'.hub.config = w.hub.config)
    (hh : w'.held = w.held.erase id) (hi : w'.issued = w.issued) : w'.Roster := by
  refine h.of_subperm (h.sound.of_sameLoop hl) ?_ ?_ hi ?_
  · rw [hh]
    exact h.own_erase id
  · rw [everyone, everyone, hh, hq, hl.index]
    have hsub : (w.held.erase id).values.Sublist w.held.values := List.filter_sublist.map _
    exact ((hsub.append_right _).append_right _).subperm
  · rw [hq, hc]
    exact h.admitted

/-- The index with the first that waits filed in it. -/
theorem values_filed (h : w.Roster) {s : Subscription} (hs : s ∈ w.hub.installs) :
    (w.hub.index.set (s.kind, s.id) s).values = w.hub.index.values ++ [s] := by
  have hnew : (s.kind, s.id) ∉ w.hub.index.keys := by
    intro hm
    have := (Hub.contains_eq_false_iff _ _).mp (h.contains_eq_false hs)
    exact this (List.mem_map.mpr ⟨_, hm, rfl⟩)
  rw [Table.values, Table.entries_set_of_not_mem s hnew, List.map_append]
  rfl

/-- A subscription that is installed goes from one list to the next. -/
theorem filed (h : w.Roster) {s : Subscription} {rest : List Subscription}
    (hq : w.hub.installs = s :: rest) (hs : w'.hub.Sound)
    (hx : w'.hub.index = w.hub.index.set (s.kind, s.id) s) (hq' : w'.hub.installs = rest)
    (hc : w'.hub.config = w.hub.config) (hh : w'.held = w.held) (hi : w'.issued = w.issued) :
    w'.Roster := by
  have hmem : s ∈ w.hub.installs := hq ▸ List.mem_cons_self
  refine h.of_subperm hs ?_ ?_ hi ?_
  · rw [hh]
    exact h.own
  · apply List.Perm.subperm
    rw [everyone, everyone, hh, hq', hq, hx, h.values_filed hmem]
    simp only [List.append_assoc, List.cons_append]
    refine List.Perm.append_left _ ?_
    rw [← List.append_assoc]
    exact List.perm_append_singleton s _
  · rw [hq', hc]
    intro s' hm
    exact h.admitted s' (hq ▸ List.mem_cons_of_mem _ hm)

/-- Taking entries out of the index, or the first out of the queue, shortens the list. -/
theorem shrunk (h : w.Roster) (hs : w'.hub.Sound)
    (hq : w'.hub.installs.Sublist w.hub.installs)
    (hx : w'.hub.index.entries.Sublist w.hub.index.entries)
    (hc : w'.hub.config = w.hub.config) (hh : w'.held = w.held) (hi : w'.issued = w.issued) :
    w'.Roster := by
  refine h.of_subperm hs ?_ ?_ hi ?_
  · rw [hh]
    exact h.own
  · rw [everyone, everyone, hh]
    exact (((List.Sublist.refl _).append hq).append (hx.map _)).subperm
  · rw [hc]
    exact fun s hm => h.admitted s (hq.subset hm)

theorem removal (h : w.Roster) {r : SubscriptionError} {ids : List SubscriptionId}
    (hs : w'.hub.Sound) (hrem : Removal r ids w w') : w'.Roster := by
  refine h.shrunk hs ?_ ?_ hrem.intake.config hrem.intake.held hrem.intake.issued
  · rw [hrem.intake.installs]
  · rw [hrem.index]
    exact List.filter_sublist

end Roster

/-! ## Actions that move nobody -/

end World

/-- Whether an action leaves every subscription where it is, whatever it comes to. -/
def Action.movesNobody : Action → Bool
  | .make .. | .makeWithin .. | .submit _ | .discard _ | .turn _ => false
  | _ => true

namespace World

theorem requestRemoval_intake (w : World) (id : SubscriptionId) :
    SameIntake w (w.requestRemoval id) := by
  unfold requestRemoval
  split <;> exact ⟨rfl, rfl, rfl, rfl⟩

/-- Who is held, waits or was made is changed by few actions; here are all the others. -/
theorem act_intake (w : World) {a : Action} (ha : a.movesNobody = true) :
    SameIntake w (w.act a) := by
  cases a with
  | make kind criteria topic buffer => cases ha
  | makeWithin kind criteria => cases ha
  | submit id => cases ha
  | discard id => cases ha
  | turn t => cases ha
  | requestRemoval id => exact requestRemoval_intake w id
  | dropReceiver id =>
    simp only [act, dropReceiver]
    split
    · exact ⟨rfl, rfl, rfl, rfl⟩
    · split
      · have hdrop : SameIntake w { w with lines := w.lines.update id Line.dropReceiver } :=
          ⟨rfl, rfl, rfl, rfl⟩
        exact hdrop.trans (requestRemoval_intake _ id)
      · exact ⟨rfl, rfl, rfl, rfl⟩
  | askInstalled id =>
    simp only [act, askInstalled]
    cases w.receiver? id <;> exact ⟨rfl, rfl, rfl, rfl⟩
  | tryError id =>
    simp only [act, tryError]
    cases w.receiver? id <;> exact ⟨rfl, rfl, rfl, rfl⟩
  | receive id =>
    simp only [act, receive]
    cases w.receiver? id <;> exact ⟨rfl, rfl, rfl, rfl⟩
  | signal cancelled =>
    simp only [act, signal]
    split <;> exact ⟨rfl, rfl, rfl, rfl⟩
  | busReceive hd =>
    simp only [act]
    split <;> exact ⟨rfl, rfl, rfl, rfl⟩
  | busDrop hd =>
    simp only [act]
    split <;> exact ⟨rfl, rfl, rfl, rfl⟩
  | _ => exact ⟨rfl, rfl, rfl, rfl⟩

/-! ## Every action keeps the roster -/

/-- What installing comes to for the queues and the index. -/
theorem install_roster {w : World} (h : w.Roster) {s : Subscription} {rest : List Subscription}
    (hq : w.hub.installs = s :: rest) (hs : (w.perform .install).hub.Sound) :
    (w.perform .install).Roster := by
  have hp : w.perform .install = { w with hub.installs := rest }.install s := by
    simp only [perform, hq]
  have hrest : rest.Sublist w.hub.installs := hq ▸ List.sublist_cons_self s rest
  rw [hp] at hs ⊢
  rcases install_cases { w with hub.installs := rest } s with
    ⟨_, _, he⟩ | ⟨_, he⟩ | ⟨e, _, _, _, he⟩ | ⟨w', _, hreg, he⟩
  · rw [he] at hs ⊢
    exact h.shrunk hs hrest (List.Sublist.refl _) rfl rfl rfl
  · rw [he] at hs ⊢
    exact h.shrunk hs hrest (List.Sublist.refl _) rfl rfl rfl
  · rw [he] at hs ⊢
    exact h.shrunk hs hrest (List.Sublist.refl _) rfl rfl rfl
  · rw [he] at hs ⊢
    rcases register_cases hreg with ⟨_, rfl⟩ | ⟨_, hd, bus, _, rfl⟩
    · exact h.filed hq hs rfl rfl rfl rfl rfl
    · exact h.filed hq hs rfl rfl rfl rfl rfl

/-- A step of the hub moves subscriptions from one place to the next, and never into two. -/
theorem perform_roster {w : World} (h : w.Roster) (hr : w.hub.running = true) (t : Turn) :
    (w.perform t).Roster := by
  have hs : (w.perform t).hub.Sound := (perform_evolves hr t).sound h.sound
  have hn := h.sound.consistent.ids_once
  cases t with
  | stop =>
    obtain ⟨m, hhub⟩ := shutdown_hub w
    obtain ⟨hheld, hissued⟩ := shutdown_intake w
    refine h.shrunk hs ?_ ?_ ?_ hheld hissued
    · show w.shutdown.hub.installs.Sublist _
      rw [hhub]
      exact List.nil_sublist _
    · show w.shutdown.hub.index.entries.Sublist _
      rw [hhub]
      exact List.nil_sublist _
    · show w.shutdown.hub.config = _
      rw [hhub]
  | install =>
    cases hq : w.hub.installs with
    | nil =>
      simp only [perform, hq]
      exact h
    | cons s rest => exact install_roster h hq hs
  | remove =>
    simp only [perform] at hs ⊢
    split
    · exact h
    · rename_i id rest hq
      simp only [hq] at hs
      have h₀ : Roster { w with hub.removals := rest } :=
        h.of_same ⟨rfl, rfl, rfl, rfl, rfl, rfl⟩ ⟨rfl, rfl, rfl, rfl⟩
      exact h₀.removal hs (uninstall_removal (w := { w with hub.removals := rest }) hn id _)
  | read topic =>
    simp only [perform] at hs ⊢
    split
    · exact h
    · rename_i item bus hread
      simp only [hread] at hs
      have h₀ : Roster { w with bus } := h.of_same (.refl _) ⟨rfl, rfl, rfl, rfl⟩
      cases item with
      | lagged n => exact h₀
      | entry e =>
        have hd : (delivered { w with bus } topic e.payload).Roster :=
          h₀.of_same (delivered_sameLoop _ topic e.payload) (delivered_sameIntake _ topic e.payload)
        exact hd.removal hs (fanOut_removal (w := { w with bus }) hn topic e.payload)
      | ended =>
        by_cases ht : w.hub.topics.contains topic = true
        · exact h₀.removal hs (closeTopic_removal (w := { w with bus }) hn ht)
        · have he : closeTopic { w with bus } topic = { w with bus } := if_neg ht
          show (closeTopic { w with bus } topic).Roster
          rw [he]
          exact h₀

theorem act_roster {w : World} (h : w.Roster) (a : Action) : (w.act a).Roster := by
  cases a with
  | make kind criteria topic buffer =>
    rcases make_cases w kind criteria topic buffer with he | ⟨s, hid, he⟩ <;> rw [he]
    · exact h
    · exact h.made hid _ _
  | makeWithin kind criteria =>
    rcases makeWithin_cases w kind criteria with he | ⟨s, buffer, hid, he⟩ <;> rw [he]
    · exact h
    · exact h.made hid _ _
  | submit id =>
    simp only [act]
    split
    · rename_i s hget
      obtain ⟨rfl, -⟩ := h.id_of_held hget
      rcases submit_cases w s with ⟨hadm, _, he⟩ | ⟨_, he⟩ | ⟨_, _, he⟩ <;> rw [he]
      · exact h.queued hget hadm
      · exact h.unheld s.id ⟨rfl, rfl, rfl, rfl, rfl, rfl⟩ rfl rfl rfl rfl
      · exact h.unheld s.id ⟨rfl, rfl, rfl, rfl, rfl, rfl⟩ rfl rfl rfl rfl
    · exact h
  | discard id =>
    rcases discard_cases w id with ⟨_, he⟩ | ⟨_, he⟩ <;> simp only [act, he]
    · exact h
    · exact h.unheld id (.refl _) rfl rfl rfl rfl
  | turn t =>
    simp only [act]
    split
    · rename_i hr
      exact perform_roster h hr t
    · exact h
  | _ => exact h.of_same (act_sameLoop w (by simp)) (act_intake w rfl)

/-- Nothing has been made yet where a run starts. -/
theorem start_roster (bus : Bus) (config : Config) (governor : Governor) :
    (start bus config governor).Roster where
  sound := start_sound bus config governor
  own := by simp [start]
  once := by simp [everyone, start, Table.values]
  issued := by simp [everyone, start, Table.values]
  admitted := by simp [start]

theorem after_roster {w : World} (h : w.Roster) (run : List Action) : (w.after run).Roster := by
  induction run generalizing w with
  | nil => exact h
  | cons a rest ih => exact ih (act_roster h a)

end EventFanout.World
