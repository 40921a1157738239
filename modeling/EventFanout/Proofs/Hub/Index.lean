/-
EventFanout.Proofs.Hub.Index — the index of a hub, and its tables kept in step.

`Hub.Consistent` says how the four tables of a hub belong together: the index of
subscriptions, the topics with their counts of subscribers, the feeds, and the view.
Filing a subscription, removing one, ending all those of a topic and clearing
everything each change several of the tables; the lemmas here say, table by table,
that what results is consistent again. They speak of a hub before and after and of
nothing else in the world, so a change of the order in which the work is done leaves
them alone.
-/
import EventFanout.Hub.Basic
import EventFanout.Proofs.Table

namespace EventFanout.Hub

def ids (h : Hub) : List SubscriptionId := h.index.keys.map (·.2)

/-- How the tables of a hub belong together. -/
structure Consistent (h : Hub) : Prop where
  /-- A topic is registered if and only if some installed subscription listens to it. -/
  registered_iff : ∀ t, h.topics.contains t = true ↔ ∃ s ∈ h.index.values, s.topic = t
  /-- The count kept for a topic is that of the installed subscriptions that listen to it. -/
  subscribers_eq : ∀ t r, h.topics.get? t = some r → r.subscribers = (h.listeners t).length
  /-- There is one feed for every registered topic, and no other. -/
  feeds_eq : h.feeds.keys = h.topics.keys
  /-- No topic is registered twice. -/
  topics_once : h.topics.keys.Nodup
  /-- A subscription is filed under its own kind and its own identity. -/
  filed : ∀ key s, (key, s) ∈ h.index.entries → key = (s.kind, s.id)
  /-- No identity is filed twice, under one kind or under two. -/
  ids_once : h.ids.Nodup
  /-- The published view shows the registered topics. -/
  view_eq : h.view = h.topics

/-! ## Looking into the index -/

theorem mem_ids {h : Hub} {id : SubscriptionId} :
    id ∈ h.ids ↔ ∃ k s, ((k, id), s) ∈ h.index.entries := by
  simp only [ids, Table.keys, List.map_map, List.mem_map, Function.comp_apply]
  constructor
  · rintro ⟨⟨⟨k, id'⟩, s⟩, hm, rfl⟩
    exact ⟨k, s, hm⟩
  · rintro ⟨k, s, hm⟩
    exact ⟨((k, id), s), hm, rfl⟩

theorem contains_eq_true_iff (h : Hub) (id : SubscriptionId) :
    h.contains id = true ↔ id ∈ h.ids := by
  simp [contains, ids]

theorem contains_eq_false_iff (h : Hub) (id : SubscriptionId) :
    h.contains id = false ↔ id ∉ h.ids := by
  rw [← contains_eq_true_iff, Bool.not_eq_true]

theorem mem_of_find? {h : Hub} {id : SubscriptionId} {e : (Kind × SubscriptionId) × Subscription}
    (hf : h.find? id = some e) : e ∈ h.index.entries ∧ e.1.2 = id :=
  ⟨List.mem_of_find?_eq_some hf, by simpa using List.find?_some hf⟩

theorem find?_eq_none_iff (h : Hub) (id : SubscriptionId) :
    h.find? id = none ↔ id ∉ h.ids := by
  rw [mem_ids, find?, List.find?_eq_none]
  constructor
  · rintro hf ⟨k, s, hm⟩
    exact hf _ hm (by simp)
  · intro hn e he
    simp only [decide_eq_true_eq]
    rintro rfl
    exact hn ⟨e.1.1, e.2, he⟩

theorem exists_find?_of_mem_ids {h : Hub} {id : SubscriptionId} (hid : id ∈ h.ids) :
    ∃ k s, h.find? id = some ((k, id), s) := by
  cases hf : h.find? id with
  | none => exact absurd hid ((find?_eq_none_iff h id).mp hf)
  | some e =>
    obtain ⟨⟨k, id'⟩, s⟩ := e
    obtain rfl : id' = id := (mem_of_find? hf).2
    exact ⟨k, s, rfl⟩

/-- The subscriptions in the index, as the second halves of its entries. -/
theorem mem_values {h : Hub} {s : Subscription} :
    s ∈ h.index.values ↔ ∃ key, (key, s) ∈ h.index.entries := by
  simp [Table.values]

theorem mem_listeners {h : Hub} {t : Topic} {s : Subscription} :
    s ∈ h.listeners t ↔ s ∈ h.index.values ∧ s.topic = t := by
  simp [listeners]

theorem exists_listener_iff (h : Hub) (t : Topic) :
    (∃ s ∈ h.index.values, s.topic = t) ↔ 0 < (h.listeners t).length := by
  rw [List.length_pos_iff_exists_mem]
  exact exists_congr fun s => mem_listeners.symm

/-- Where no identity is filed twice, an identity leads to one entry only. -/
theorem entry_unique {h : Hub} (hn : h.ids.Nodup) {e e' : (Kind × SubscriptionId) × Subscription}
    (he : e ∈ h.index.entries) (he' : e' ∈ h.index.entries) (hid : e.1.2 = e'.1.2) : e = e' := by
  have hn' : (h.index.entries.map fun e => e.1.2).Nodup := by
    rwa [ids, Table.keys, List.map_map] at hn
  exact List.inj_on_of_nodup_map hn' he he' hid

/-- Erasing the entry of an identity erases what is filed under that identity. -/
theorem erase_eq_filter {h : Hub} (hn : h.ids.Nodup) {e : (Kind × SubscriptionId) × Subscription}
    (he : e ∈ h.index.entries) :
    h.index.erase e.1 = ⟨h.index.entries.filter fun e' => e'.1.2 ≠ e.1.2⟩ := by
  rw [Table.erase, Table.mk.injEq]
  apply List.filter_congr
  intro e' he'
  simp only [ne_eq, decide_not, Bool.not_eq_eq_eq_not, Bool.not_not, decide_eq_decide]
  exact ⟨fun hk => by rw [hk], fun hid => by rw [entry_unique hn he' he hid]⟩

namespace Consistent

variable {h h' : Hub}

theorem keys_once (hc : h.Consistent) : h.index.keys.Nodup := hc.ids_once.of_map

/-- The identities filed are those of the subscriptions. -/
theorem values_ids (hc : h.Consistent) : h.index.values.map Subscription.id = h.ids := by
  simp only [ids, Table.keys, Table.values, List.map_map]
  apply List.map_congr_left
  intro e he
  simp [hc.filed e.1 e.2 he]

theorem listeners_ids_once (hc : h.Consistent) (t : Topic) :
    ((h.listeners t).map Subscription.id).Nodup := by
  have hn := hc.ids_once
  rw [← hc.values_ids] at hn
  exact hn.sublist (List.filter_sublist.map _)

/-- An identity leads to one installed subscription. -/
theorem value_unique (hc : h.Consistent) {s s' : Subscription} (hs : s ∈ h.index.values)
    (hs' : s' ∈ h.index.values) (hid : s.id = s'.id) : s = s' :=
  List.inj_on_of_nodup_map (hc.values_ids ▸ hc.ids_once) hs hs' hid

theorem listener_unique (hc : h.Consistent) {t : Topic} {s s' : Subscription}
    (hs : s ∈ h.listeners t) (hs' : s' ∈ h.listeners t) (hid : s.id = s'.id) : s = s' :=
  hc.value_unique (mem_listeners.mp hs).1 (mem_listeners.mp hs').1 hid

/-- A topic with a listener is registered, and counts it. -/
theorem get?_topic (hc : h.Consistent) {s : Subscription} (hs : s ∈ h.index.values) :
    ∃ r, h.topics.get? s.topic = some r ∧ r.subscribers = (h.listeners s.topic).length := by
  have := (hc.registered_iff s.topic).mpr ⟨s, hs, rfl⟩
  rw [Table.contains, Option.isSome_iff_exists] at this
  obtain ⟨r, hr⟩ := this
  exact ⟨r, hr, hc.subscribers_eq _ r hr⟩

/-- A registered topic has a feed. -/
theorem get?_feed (hc : h.Consistent) {t : Topic} {r : Registration}
    (hr : h.topics.get? t = some r) : ∃ hd, h.feeds.get? t = some hd := by
  refine Table.exists_get?_of_mem_keys ?_
  rw [hc.feeds_eq]
  exact Table.mem_keys_of_get? hr

/-- A topic that is read is registered. -/
theorem contains_of_feed (hc : h.Consistent) {t : Topic} {hd : Handle}
    (ht : h.feeds.get? t = some hd) : h.topics.contains t = true := by
  rw [Table.contains_iff_mem_keys, ← hc.feeds_eq]
  exact Table.mem_keys_of_get? ht

/-- A topic that is not registered is not read, and no other. -/
theorem feed_eq_none_iff (hc : h.Consistent) {t : Topic} :
    h.feeds.get? t = none ↔ h.topics.contains t = false := by
  rw [Table.get?_eq_none_iff, hc.feeds_eq, Table.contains_eq_false_iff]

/-- On a topic that is not registered nobody listens. -/
theorem listeners_eq_nil (hc : h.Consistent) {t : Topic} (ht : h.topics.contains t = false) :
    h.listeners t = [] := by
  rw [← List.length_eq_zero_iff]
  by_contra hne
  have := (hc.registered_iff t).mpr ((exists_listener_iff h t).mpr (Nat.pos_of_ne_zero hne))
  rw [ht] at this
  exact Bool.false_ne_true this

/-- Nothing but the four tables matters. -/
theorem of_eq (hc : h.Consistent) (hi : h'.index = h.index) (ht : h'.topics = h.topics)
    (hf : h'.feeds = h.feeds) (hv : h'.view = h.view) : h'.Consistent where
  registered_iff := by rw [ht, hi]; exact hc.registered_iff
  subscribers_eq := by
    simp only [listeners, ht, hi]
    exact hc.subscribers_eq
  feeds_eq := by rw [hf, ht]; exact hc.feeds_eq
  topics_once := by rw [ht]; exact hc.topics_once
  filed := by rw [hi]; exact hc.filed
  ids_once := by rw [ids, hi]; exact hc.ids_once
  view_eq := by rw [hv, ht]; exact hc.view_eq

end Consistent

theorem consistent_empty {h : Hub} (hi : h.index = {}) (ht : h.topics = {}) (hf : h.feeds = {})
    (hv : h.view = {}) : h.Consistent where
  registered_iff := by
    intro t
    simp [ht, hi, Table.contains, Table.values]
  subscribers_eq := by
    intro t r hr
    simp [ht] at hr
  feeds_eq := by rw [hf, ht]; rfl
  topics_once := by rw [ht]; exact List.nodup_nil
  filed := by
    intro key s hm
    simp [hi] at hm
  ids_once := by rw [ids, hi]; exact List.nodup_nil
  view_eq := by rw [hv, ht]

/-! ## Filing a subscription -/

/-- Under a key that is new, a subscription comes to the end of the index. -/
theorem listeners_file {h h' : Hub} {key : Kind × SubscriptionId} {s : Subscription}
    (hk : key ∉ h.index.keys) (hi : h'.index = h.index.set key s) (t : Topic) :
    h'.listeners t = h.listeners t ++ if s.topic = t then [s] else [] := by
  have hv : h'.index.values = h.index.values ++ [s] := by
    rw [Table.values, hi, Table.entries_set_of_not_mem s hk, List.map_append]
    rfl
  rw [listeners, hv, List.filter_append]
  congr 1
  by_cases ht : s.topic = t <;> simp [ht]

/--
Filing keeps the tables in step. Here `b` is the table of topics on which the subscription is
counted: that of the hub, or that with the topic come in anew, which has no subscriber yet.
-/
theorem Consistent.file {h h' : Hub} (hc : h.Consistent) {s : Subscription}
    {b : Table Topic Registration} (hnew : h.contains s.id = false)
    (hother : ∀ t, t ≠ s.topic → b.get? t = h.topics.get? t)
    (hown : (b.get? s.topic).map Registration.subscribers = some (h.listeners s.topic).length)
    (hbase : b.keys.Nodup) (hi : h'.index = h.index.set (s.kind, s.id) s)
    (ht : h'.topics = b.update s.topic Registration.grow)
    (hf : h'.feeds.keys = b.keys) (hv : h'.view = h'.topics) : h'.Consistent := by
  have hid : s.id ∉ h.ids := (contains_eq_false_iff h s.id).mp hnew
  have hk : (s.kind, s.id) ∉ h.index.keys := fun hm => hid (List.mem_map.mpr ⟨_, hm, rfl⟩)
  have hl := listeners_file hk hi
  have hentries : h'.index.entries = h.index.entries ++ [((s.kind, s.id), s)] := by
    rw [hi, Table.entries_set_of_not_mem s hk]
  have hget : ∀ t, h'.topics.get? t =
      if s.topic = t then (b.get? t).map Registration.grow else h.topics.get? t := by
    intro t
    rw [ht, Table.get?_update]
    split
    · rfl
    · rename_i hne
      exact hother t fun e => hne e.symm
  constructor
  · intro t
    rw [exists_listener_iff, hl, Table.contains, hget]
    by_cases hst : s.topic = t
    · subst hst
      have hsome : (b.get? s.topic).isSome = true := by
        cases hb : b.get? s.topic with
        | none => simp [hb] at hown
        | some r => rfl
      simp [hsome]
    · have := hc.registered_iff t
      rw [exists_listener_iff, Table.contains] at this
      simpa [hst] using this
  · intro t r hr
    rw [hget] at hr
    rw [hl, List.length_append]
    by_cases hst : s.topic = t
    · subst hst
      rw [if_pos rfl, Option.map_eq_some_iff] at hr
      obtain ⟨r₀, hr₀, rfl⟩ := hr
      rw [hr₀, Option.map_some, Option.some.injEq] at hown
      simp [Registration.grow, hown]
    · rw [if_neg hst] at hr
      simp [hst, hc.subscribers_eq t r hr]
  · rw [hf, ht, Table.keys_update]
  · rw [ht, Table.keys_update]
    exact hbase
  · intro key s' hm
    rw [hentries, List.mem_append] at hm
    rcases hm with hm | hm
    · exact hc.filed key s' hm
    · simp only [List.mem_singleton, Prod.mk.injEq] at hm
      rw [hm.1, hm.2]
  · rw [ids, hi, Table.keys_set_of_not_mem s hk, List.map_append]
    exact List.Nodup.append hc.ids_once (List.nodup_singleton _) (by simpa [ids] using hid)
  · exact hv

/-! ## Removing a subscription -/

/-- What is counted before counts the removed entry once. -/
theorem Consistent.length_listeners_erase {h h' : Hub} (hc : h.Consistent)
    {key : Kind × SubscriptionId} {s : Subscription} (hm : (key, s) ∈ h.index.entries)
    (hi : h'.index = h.index.erase key) (t : Topic) :
    (h.listeners t).length = (h'.listeners t).length + if s.topic = t then 1 else 0 := by
  have hp : h.index.values.Perm (s :: h'.index.values) := by
    rw [Table.values, Table.values, hi]
    exact (Table.perm_erase hc.keys_once hm).map _
  rw [listeners, listeners, (hp.filter _).length_eq]
  by_cases hst : s.topic = t <;> simp [hst]

/-- Erasing from the index touches neither where the others are filed nor that they are once. -/
theorem Consistent.filed_erase {h h' : Hub} (hc : h.Consistent) {key : Kind × SubscriptionId}
    (hi : h'.index = h.index.erase key) :
    (∀ key' s', (key', s') ∈ h'.index.entries → key' = (s'.kind, s'.id)) ∧ h'.ids.Nodup := by
  constructor
  · intro key' s' hm
    rw [hi] at hm
    exact hc.filed key' s' (Table.mem_entries_erase.mp hm).1
  · rw [ids, hi, Table.keys_erase]
    exact hc.ids_once.sublist (List.filter_sublist.map _)

/-- A topic that keeps a subscriber counts one less. -/
theorem Consistent.remove_one {h h' : Hub} (hc : h.Consistent) {key : Kind × SubscriptionId}
    {s : Subscription} {r : Registration} (hm : (key, s) ∈ h.index.entries)
    (hr : h.topics.get? s.topic = some r) (hmore : 1 < r.subscribers)
    (hi : h'.index = h.index.erase key)
    (ht : h'.topics = h.topics.set s.topic { r with subscribers := r.subscribers - 1 })
    (hf : h'.feeds = h.feeds) (hv : h'.view = h'.topics) : h'.Consistent := by
  have hlen := hc.length_listeners_erase hm hi
  have hkeys : h'.topics.keys = h.topics.keys := by
    rw [ht, Table.keys_set_of_mem _ (Table.mem_keys_of_get? hr)]
  have hcount := hc.subscribers_eq _ r hr
  constructor
  · intro t
    have := hc.registered_iff t
    rw [Table.contains_iff_mem_keys, exists_listener_iff, hlen] at this
    rw [Table.contains_iff_mem_keys, exists_listener_iff, hkeys, this]
    have hown := hlen s.topic
    rw [if_pos rfl] at hown
    by_cases hst : s.topic = t
    · subst hst
      rw [if_pos rfl]
      omega
    · simp [hst]
  · intro t r' hr'
    rw [ht, Table.get?_set] at hr'
    have hown := hlen t
    split at hr'
    · rename_i hst
      subst hst
      simp only [if_pos, Option.some.injEq] at hown hr'
      subst hr'
      show r.subscribers - 1 = _
      omega
    · rename_i hst
      rw [if_neg hst] at hown
      have := hc.subscribers_eq t r' hr'
      omega
  · rw [hf, hkeys]
    exact hc.feeds_eq
  · rw [hkeys]
    exact hc.topics_once
  · exact (hc.filed_erase hi).1
  · exact (hc.filed_erase hi).2
  · exact hv

/-- With its last subscriber a topic goes from the topics and from the feeds. -/
theorem Consistent.remove_last {h h' : Hub} (hc : h.Consistent) {key : Kind × SubscriptionId}
    {s : Subscription} {r : Registration} (hm : (key, s) ∈ h.index.entries)
    (hr : h.topics.get? s.topic = some r) (hlast : r.subscribers ≤ 1)
    (hi : h'.index = h.index.erase key) (ht : h'.topics = h.topics.erase s.topic)
    (hf : h'.feeds = h.feeds.erase s.topic) (hv : h'.view = h'.topics) : h'.Consistent := by
  have hlen := hc.length_listeners_erase hm hi
  have hcount := hc.subscribers_eq _ r hr
  constructor
  · intro t
    have := hc.registered_iff t
    rw [Table.contains_iff_mem_keys, exists_listener_iff, hlen] at this
    rw [Table.contains_iff_mem_keys, exists_listener_iff, ht, Table.keys_erase, List.mem_filter,
      this]
    have hown := hlen s.topic
    rw [if_pos rfl] at hown
    by_cases hst : s.topic = t
    · subst hst
      simp only [ne_eq, not_true_eq_false, decide_false, Bool.false_eq_true, and_false, false_iff]
      omega
    · have hts : t ≠ s.topic := fun e => hst e.symm
      simp [hst, hts]
  · intro t r' hr'
    rw [ht, Table.get?_erase] at hr'
    have hown := hlen t
    split at hr'
    · simp at hr'
    · rename_i hst
      rw [if_neg hst] at hown
      have := hc.subscribers_eq t r' hr'
      omega
  · rw [hf, ht, Table.keys_erase, Table.keys_erase, hc.feeds_eq]
  · rw [ht]
    exact Table.nodup_keys_erase _ hc.topics_once
  · exact (hc.filed_erase hi).1
  · exact (hc.filed_erase hi).2
  · exact hv

/-! ## Ending a topic -/

/-- All subscriptions of a topic go at once, and the topic with them. -/
theorem Consistent.end_topic {h h' : Hub} (hc : h.Consistent) {t : Topic}
    (hi : h'.index.entries = h.index.entries.filter fun e => e.2.topic ≠ t)
    (ht : h'.topics = h.topics.erase t) (hf : h'.feeds = h.feeds.erase t)
    (hv : h'.view = h'.topics) : h'.Consistent := by
  have hl : ∀ t', h'.listeners t' = if t' = t then [] else h.listeners t' := by
    intro t'
    rw [listeners, listeners, Table.values, Table.values, hi, List.filter_map, List.filter_map,
      List.filter_filter]
    split
    · rename_i htt
      subst htt
      simp
    · rename_i htt
      congr 1
      apply List.filter_congr
      intro e _
      by_cases he : e.2.topic = t' <;> simp [he, htt]
  constructor
  · intro t'
    have := hc.registered_iff t'
    rw [Table.contains_iff_mem_keys, exists_listener_iff] at this
    rw [Table.contains_iff_mem_keys, exists_listener_iff, ht, Table.keys_erase, List.mem_filter,
      this, hl]
    by_cases htt : t' = t <;> simp [htt]
  · intro t' r hr
    rw [ht, Table.get?_erase] at hr
    split at hr
    · simp at hr
    · rename_i htt
      rw [hl, if_neg fun e => htt e.symm]
      exact hc.subscribers_eq t' r hr
  · rw [hf, ht, Table.keys_erase, Table.keys_erase, hc.feeds_eq]
  · rw [ht]
    exact Table.nodup_keys_erase _ hc.topics_once
  · intro key s hm
    rw [hi, List.mem_filter] at hm
    exact hc.filed key s hm.1
  · rw [ids, Table.keys, hi]
    exact hc.ids_once.sublist ((List.filter_sublist.map _).map _)
  · exact hv

end EventFanout.Hub
