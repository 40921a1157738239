/-
EventFanout.Proofs.Dispatch.Removals — requests for removal can be handled in any order, any number
of times.

Several of the subscriptions that are to be removed may share a topic, and then the one that goes
last takes the registration with it, whichever that is. Main statement: `removals_order_free`. Two
lists of requests with the same members come to the same world. All that may differ is the ledger,
and there only how the entries of different topics are interleaved: every topic has the same entries
in the same order, and a topic that has lost its last subscription has one release more.

## How the proof goes

Worlds that differ in no more than that are the same `Topicwise`. A request changes nothing where
nobody of its identity is installed (`uninstall_of_not_mem`), so a repeated one does not either. Two
requests can be swapped (`uninstall_swap`): on one topic their effects are carried out together, and
on two topics they have nothing to do with each other. The rest is induction on a permutation
(`uninstallAll_perm`), once the repetitions have been taken out (`uninstallAll_dedup`).
-/
import EventFanout.Proofs.Dispatch.Commuting
import EventFanout.Proofs.Hub.Upstream
import EventFanout.Proofs.Run
import Mathlib.Data.List.Dedup

namespace EventFanout

/-- What is noted of a topic is about that topic. -/
theorem Effect.filter_entries (e : Effect) {t t' : Topic} (hne : t ≠ t') :
    (e.entries t).filter (·.topic = t') = [] := by
  unfold Effect.entries
  cases e.fate <;> simp [Entry.topic, hne]

namespace World

variable {w w' : World} {t : Topic} {id id' : SubscriptionId} {ids ids' : List SubscriptionId}

/-! ## The same, topic by topic -/

/-- The worlds are the same, but for how the ledger interleaves the entries of different topics. -/
def Topicwise (w w' : World) : Prop :=
  ∃ ledger : List Entry,
    (∀ t, ledger.filter (·.topic = t) = w.hub.ledger.filter (·.topic = t)) ∧
    w' = { w with hub.ledger := ledger }

namespace Topicwise

theorem refl (w : World) : w.Topicwise w := ⟨w.hub.ledger, fun _ => rfl, rfl⟩

theorem symm (h : w.Topicwise w') : w'.Topicwise w := by
  obtain ⟨ledger, hl, rfl⟩ := h
  exact ⟨w.hub.ledger, fun t => (hl t).symm, rfl⟩

theorem trans {w'' : World} (h : w.Topicwise w') (h' : w'.Topicwise w'') : w.Topicwise w'' := by
  obtain ⟨ledger, hl, rfl⟩ := h
  obtain ⟨ledger', hl', rfl⟩ := h'
  exact ⟨ledger', fun t => (hl' t).trans (hl t), rfl⟩

theorem carryOut (h : w.Topicwise w') (t : Topic) (e : Effect) :
    (w.carryOut t e).Topicwise (w'.carryOut t e) := by
  obtain ⟨ledger, hl, rfl⟩ := h
  refine ⟨ledger ++ e.entries t, fun t' => ?_, rfl⟩
  simp only [World.carryOut, List.filter_append, hl]

end Topicwise

/-! ## One request -/

/-- Who is installed listens to some topic. -/
theorem exists_topic_of_mem_ids (hc : w.hub.Consistent) (h : id ∈ w.hub.ids) :
    ∃ t, id ∈ (w.hub.listeners t).map Subscription.id := by
  rw [← hc.values_ids] at h
  obtain ⟨s, hs, rfl⟩ := List.mem_map.mp h
  exact ⟨s.topic, List.mem_map_of_mem (Hub.mem_listeners.mpr ⟨hs, rfl⟩)⟩

theorem uninstall_topicwise (hc : w.hub.Consistent) (h : w.Topicwise w') (id : SubscriptionId)
    (r : SubscriptionError) : (w.uninstall id r).Topicwise (w'.uninstall id r) := by
  obtain ⟨ledger, hl, rfl⟩ := h
  have hc' : Hub.Consistent { w.hub with ledger } := hc.of_eq rfl rfl rfl rfl
  by_cases hid : id ∈ w.hub.ids
  · obtain ⟨t, ht⟩ := exists_topic_of_mem_ids hc hid
    rw [uninstall_eq hc ht,
      uninstall_eq (w := { w with hub := { w.hub with ledger } }) (t := t) hc' ht]
    exact Topicwise.carryOut ⟨ledger, hl, rfl⟩ t _
  · rw [uninstall_of_not_mem hid,
      uninstall_of_not_mem (w := { w with hub := { w.hub with ledger } }) hid]
    exact ⟨ledger, hl, rfl⟩

/-- Of the listeners of any topic those are left that are not of that identity. -/
theorem listeners_uninstall (hc : w.hub.Consistent) (id : SubscriptionId) (r : SubscriptionError)
    (t : Topic) :
    (w.uninstall id r).hub.listeners t = (w.hub.listeners t).filter fun s => s.id ≠ id := by
  by_cases hid : id ∈ w.hub.ids
  · obtain ⟨t', ht'⟩ := exists_topic_of_mem_ids hc hid
    rw [uninstall_eq hc ht', listeners_carryOut hc]
    simp [Effect.removal]
  · rw [uninstall_of_not_mem hid, eq_comm, List.filter_eq_self]
    intro s hs
    have hin : s.id ∈ w.hub.ids := by
      rw [← hc.values_ids]
      exact List.mem_map_of_mem (Hub.mem_listeners.mp hs).1
    simp only [ne_eq, decide_eq_true_eq]
    exact fun he => hid (he ▸ hin)

/-- **Two requests can be handled in either order.** -/
theorem uninstall_swap (hs : w.hub.Sound) (hr : w.hub.running = true) (id id' : SubscriptionId)
    (r : SubscriptionError) :
    ((w.uninstall id r).uninstall id' r).Topicwise ((w.uninstall id' r).uninstall id r) := by
  have hc := hs.consistent
  rcases eq_or_ne id id' with rfl | hne
  · exact .refl _
  have hleft : ∀ {a b}, a ∉ w.hub.ids → a ∉ (w.uninstall b r).hub.ids := fun ha hm =>
    ha (((uninstall_removal hc.ids_once _ r).mem_ids _).mp hm).1
  by_cases hid : id ∈ w.hub.ids
  case neg =>
    rw [uninstall_of_not_mem hid, uninstall_of_not_mem (hleft hid)]
    exact .refl _
  by_cases hid' : id' ∈ w.hub.ids
  case neg =>
    rw [uninstall_of_not_mem hid', uninstall_of_not_mem (hleft hid')]
    exact .refl _
  obtain ⟨t, ht⟩ := exists_topic_of_mem_ids hc hid
  obtain ⟨t', ht'⟩ := exists_topic_of_mem_ids hc hid'
  by_cases htt : t = t'
  · -- both listen to one topic: who goes last makes no difference
    subst htt
    have hperm : [id, id'].Perm [id', id] := .swap id' id []
    have hn : [id, id'].Nodup := by simp [hne]
    have hids : ∀ a ∈ [id, id'], a ∈ (w.hub.listeners t).map Subscription.id :=
      List.forall_mem_cons.mpr ⟨ht, List.forall_mem_singleton.mpr ht'⟩
    have hboth := foldl_uninstall_eq hs hr hn hids r
    have hboth' := foldl_uninstall_eq hs hr (hperm.nodup_iff.mp hn)
      (fun a ha => hids a (hperm.mem_iff.mpr ha)) r
    have hsame := carryOut_congr w t (Effect.removal_same hperm hn (w.hub.listeners t).length r)
    have heq : (w.uninstall id' r).uninstall id r = (w.uninstall id r).uninstall id' r :=
      hboth'.trans (hsame.trans hboth.symm)
    rw [heq]
    exact .refl _
  · -- the two effects concern different topics and different lines
    have hstays : ∀ {a : SubscriptionId} {u v : Topic}, u ≠ v →
        a ∈ (w.hub.listeners u).map Subscription.id →
        (w.uninstall a r).hub.listeners v = w.hub.listeners v := by
      intro a u v huv ha
      rw [listeners_uninstall hc, List.filter_eq_self]
      intro s hs
      simp only [ne_eq, decide_eq_true_eq]
      rintro rfl
      exact huv (topic_of_listener hc ha (List.mem_map_of_mem hs))
    have hl' := hstays htt ht
    have hl := hstays (Ne.symm htt) ht'
    have hc₁ := (uninstall_sound hs hr id r).1.consistent
    have hc₁' := (uninstall_sound hs hr id' r).1.consistent
    rw [uninstall_eq hc₁ (hl'.symm ▸ ht'), uninstall_eq hc₁' (hl.symm ▸ ht), hl, hl',
      uninstall_eq hc ht, uninstall_eq hc ht']
    refine ⟨_, fun u => ?_, carryOut_swap w htt ?_⟩
    · simp only [World.carryOut, List.filter_append, List.append_assoc]
      by_cases hu : t = u
      · subst hu
        rw [Effect.filter_entries _ (Ne.symm htt), List.nil_append, List.append_nil]
      · rw [Effect.filter_entries _ hu, List.append_nil, List.nil_append]
    · simpa [Effect.removal] using hne

/-! ## A list of requests -/

def uninstallAll (w : World) (ids : List SubscriptionId) : World :=
  ids.foldl (fun w id => w.uninstall id .unsubscribed) w

theorem uninstallAll_cons (w : World) (id : SubscriptionId) (ids : List SubscriptionId) :
    w.uninstallAll (id :: ids) = (w.uninstall id .unsubscribed).uninstallAll ids := rfl

theorem uninstallAll_sound (hs : w.hub.Sound) (hr : w.hub.running = true)
    (ids : List SubscriptionId) :
    (w.uninstallAll ids).hub.Sound ∧ (w.uninstallAll ids).hub.running = true := by
  induction ids generalizing w with
  | nil => exact ⟨hs, hr⟩
  | cons id ids ih =>
    obtain ⟨hs', hr'⟩ := uninstall_sound hs hr id .unsubscribed
    exact ih hs' hr'

theorem uninstallAll_topicwise (hs : w.hub.Sound) (hr : w.hub.running = true) (h : w.Topicwise w')
    (ids : List SubscriptionId) : (w.uninstallAll ids).Topicwise (w'.uninstallAll ids) := by
  induction ids generalizing w w' with
  | nil => exact h
  | cons id ids ih =>
    obtain ⟨hs', hr'⟩ := uninstall_sound hs hr id .unsubscribed
    exact ih hs' hr' (uninstall_topicwise hs.consistent h id .unsubscribed)

/-- Requests can be handled in any order. -/
theorem uninstallAll_perm (hs : w.hub.Sound) (hr : w.hub.running = true) (h : ids.Perm ids') :
    (w.uninstallAll ids).Topicwise (w.uninstallAll ids') := by
  induction h generalizing w with
  | nil => exact .refl w
  | cons id _ ih =>
    obtain ⟨hs', hr'⟩ := uninstall_sound hs hr id .unsubscribed
    exact ih hs' hr'
  | swap a b ids =>
    obtain ⟨hs₁, hr₁⟩ := uninstall_sound hs hr b .unsubscribed
    obtain ⟨hs₂, hr₂⟩ := uninstall_sound hs₁ hr₁ a .unsubscribed
    exact uninstallAll_topicwise hs₂ hr₂ (uninstall_swap hs hr b a .unsubscribed) ids
  | trans _ _ ih ih' => exact (ih hs hr).trans (ih' hs hr)

/-- A request that is repeated, or that nobody is installed for, changes nothing. -/
theorem uninstall_uninstallAll (hc : w.hub.Consistent) (h : id ∈ ids ∨ id ∉ w.hub.ids) :
    (w.uninstallAll ids).uninstall id .unsubscribed = w.uninstallAll ids := by
  refine uninstall_of_not_mem (fun hm => ?_) _
  obtain ⟨hin, hnot⟩ := ((foldl_uninstall_removal hc.ids_once ids .unsubscribed).mem_ids id).mp hm
  exact h.elim hnot (absurd hin)

theorem uninstallAll_append (w : World) (ids ids' : List SubscriptionId) :
    w.uninstallAll (ids ++ ids') = (w.uninstallAll ids).uninstallAll ids' := List.foldl_append

/-- Requests can be repeated. -/
theorem uninstallAll_dedup (hs : w.hub.Sound) (hr : w.hub.running = true)
    (ids : List SubscriptionId) : (w.uninstallAll ids).Topicwise (w.uninstallAll ids.dedup) := by
  induction ids generalizing w with
  | nil => exact .refl w
  | cons id ids ih =>
    by_cases hid : id ∈ ids
    · rw [List.dedup_cons_of_mem hid]
      -- handled last, the first of several requests is one too many
      have hlast : (w.uninstallAll (id :: ids)).Topicwise (w.uninstallAll (ids ++ [id])) :=
        uninstallAll_perm hs hr (List.perm_append_singleton id ids).symm
      have hvoid : w.uninstallAll (ids ++ [id]) = w.uninstallAll ids := by
        rw [uninstallAll_append]
        exact uninstall_uninstallAll hs.consistent (.inl hid)
      exact (hvoid ▸ hlast).trans (ih hs hr)
    · rw [List.dedup_cons_of_notMem hid]
      obtain ⟨hs', hr'⟩ := uninstall_sound hs hr id .unsubscribed
      exact ih hs' hr'

theorem uninstallAll_same (hs : w.hub.Sound) (hr : w.hub.running = true)
    (h : ∀ id, id ∈ ids ↔ id ∈ ids') : (w.uninstallAll ids).Topicwise (w.uninstallAll ids') := by
  have hperm : ids.dedup.Perm ids'.dedup :=
    (List.perm_ext_iff_of_nodup ids.nodup_dedup ids'.nodup_dedup).mpr fun id => by
      rw [List.mem_dedup, List.mem_dedup, h id]
  exact ((uninstallAll_dedup hs hr ids).trans (uninstallAll_perm hs hr hperm)).trans
    (uninstallAll_dedup hs hr ids').symm

/-! ## What becomes of the topics -/

/-- A topic stays registered while one of its subscriptions is left. -/
theorem contains_uninstallAll (hs : w.hub.Sound) (hr : w.hub.running = true)
    (ids : List SubscriptionId) (t : Topic) :
    (w.uninstallAll ids).hub.topics.contains t = true ↔ ∃ s ∈ w.hub.listeners t, s.id ∉ ids := by
  have hc := hs.consistent
  have hindex := (foldl_uninstall_removal hc.ids_once ids .unsubscribed).index
  rw [(uninstallAll_sound hs hr ids).1.consistent.registered_iff t]
  constructor
  · rintro ⟨s, hv, ht⟩
    obtain ⟨key, hkey⟩ := Hub.mem_values.mp hv
    rw [uninstallAll, hindex, List.mem_filter, decide_eq_true_eq] at hkey
    obtain ⟨hm, hnot⟩ := hkey
    rw [hc.filed key s hm] at hnot
    exact ⟨s, Hub.mem_listeners.mpr ⟨Hub.mem_values.mpr ⟨key, hm⟩, ht⟩, hnot⟩
  · rintro ⟨s, hl, hnot⟩
    obtain ⟨hv, ht⟩ := Hub.mem_listeners.mp hl
    obtain ⟨key, hm⟩ := Hub.mem_values.mp hv
    refine ⟨s, Hub.mem_values.mpr ⟨key, ?_⟩, ht⟩
    rw [uninstallAll, hindex, List.mem_filter, decide_eq_true_eq, hc.filed key s hm]
    exact ⟨hc.filed key s hm ▸ hm, hnot⟩

/-- For each topic that was registered and is no more the ledger has a release, and nothing else
that is new. -/
def Released (w w' : World) : Prop := ∀ t,
  w'.hub.ledger.filter (·.topic = t) = w.hub.ledger.filter (·.topic = t) ++
    if w.hub.topics.contains t = true ∧ w'.hub.topics.contains t = false then [.released t] else []

theorem Released.refl (w : World) : w.Released w := by
  intro t
  rw [if_neg (by simp), List.append_nil]

theorem carryOut_released {e : Effect} (hfate : e.fate ≠ .ended)
    (hin : w.hub.topics.contains t = true) : w.Released (w.carryOut t e) := by
  have hledger : (w.carryOut t e).hub.ledger = w.hub.ledger ++ e.entries t := rfl
  have htopics : (w.carryOut t e).hub.topics = e.topics t w.hub.topics := rfl
  intro u
  rw [hledger, htopics, List.filter_append, List.append_cancel_left_eq]
  by_cases hu : t = u
  · subst hu
    cases hf : e.fate with
    | kept =>
      have hstill : (e.topics t w.hub.topics).contains t = true := by
        rw [Effect.topics_kept hf, Table.contains_iff_mem_keys, Table.keys_update,
          ← Table.contains_iff_mem_keys]
        exact hin
      rw [if_neg (by simp [hstill])]
      simp [Effect.entries, hf]
    | released =>
      have hgone : (e.topics t w.hub.topics).contains t = false := by
        rw [Effect.topics_erased (by simp [hf]), Table.contains, Table.get?_erase, if_pos rfl]
        rfl
      rw [if_pos ⟨hin, hgone⟩]
      simp [Effect.entries, hf, Entry.topic]
    | ended => exact absurd hf hfate
  · have hother : (e.topics t w.hub.topics).contains u = w.hub.topics.contains u := by
      rw [Table.contains, Table.contains, Effect.get?_topics e hu]
    rw [Effect.filter_entries e hu, hother, if_neg (by simp)]

theorem uninstall_released (hc : w.hub.Consistent) (id : SubscriptionId) (r : SubscriptionError) :
    w.Released (w.uninstall id r) := by
  by_cases hid : id ∈ w.hub.ids
  · obtain ⟨t, ht⟩ := exists_topic_of_mem_ids hc hid
    have hfate : (Effect.removal (w.hub.listeners t).length r [id]).fate ≠ .ended := by
      rw [Effect.removal]
      split <;> simp
    obtain ⟨s, hs, -⟩ := List.mem_map.mp ht
    obtain ⟨hv, hst⟩ := Hub.mem_listeners.mp hs
    rw [uninstall_eq hc ht]
    exact carryOut_released hfate ((hc.registered_iff t).mpr ⟨s, hv, hst⟩)
  · rw [uninstall_of_not_mem hid]
    exact .refl w

theorem uninstallAll_released (hs : w.hub.Sound) (hr : w.hub.running = true)
    (ids : List SubscriptionId) : w.Released (w.uninstallAll ids) := by
  induction ids generalizing w with
  | nil => exact .refl w
  | cons id ids ih =>
    obtain ⟨hs', hr'⟩ := uninstall_sound hs hr id .unsubscribed
    have hfirst := uninstall_released hs.consistent id .unsubscribed
    have hrest := ih hs' hr'
    -- a topic that has gone does not come back
    have hleft : ∀ {u : World} (l : List SubscriptionId) {t : Topic}, u.hub.Sound →
        u.hub.running = true → (u.uninstallAll l).hub.topics.contains t = true →
        u.hub.topics.contains t = true := by
      intro u l t hu hru hin
      obtain ⟨s, hl, -⟩ := (contains_uninstallAll hu hru l t).mp hin
      obtain ⟨hv, ht⟩ := Hub.mem_listeners.mp hl
      exact (hu.consistent.registered_iff t).mpr ⟨s, hv, ht⟩
    intro t
    have h₁ := hleft [id] (t := t) hs hr
    have h₂ := hleft ids (t := t) hs' hr'
    rw [uninstallAll_cons, hrest t, hfirst t, List.append_assoc]
    rw [show w.uninstallAll [id] = w.uninstall id .unsubscribed from rfl] at h₁
    congr 1
    cases h : w.hub.topics.contains t <;>
      cases h' : (w.uninstall id .unsubscribed).hub.topics.contains t <;> simp_all

/-- What is noted when the requests are handled is what the bus is called for: a topic that has lost
its last subscription is released once, and the hub makes no other call. -/
theorem uninstallAll_calls (hs : w.hub.Sound) (hr : w.hub.running = true)
    (ids : List SubscriptionId) :
    ∃ ts : List Topic, w.Calls (ts.map .released) (w.uninstallAll ids) ∧
      ∀ t, ts.count t = if w.hub.topics.contains t = true ∧
        (w.uninstallAll ids).hub.topics.contains t = false then 1 else 0 := by
  obtain ⟨ts, hcalls⟩ := foldl_uninstall_calls ids .unsubscribed w
  refine ⟨ts, hcalls, fun t => ?_⟩
  have hnoted := uninstallAll_released hs hr ids t
  rw [uninstallAll, hcalls.ledger, List.filter_append, List.append_cancel_left_eq] at hnoted
  have hcount : ts.count t = ((ts.map Entry.released).filter (·.topic = t)).length := by
    rw [← List.countP_eq_length_filter, List.countP_map]
    rfl
  rw [hcount, hnoted, uninstallAll]
  split <;> rfl

/-! ## Requests that wait -/

def afterRemovals (w : World) (n : Nat) : World := w.after (List.replicate n (.turn .remove))

/-- What else waits to be removed is no matter. -/
theorem uninstall_queued (hc : w.hub.Consistent) (id : SubscriptionId) (r : SubscriptionError)
    (queue : List SubscriptionId) :
    ({ w with hub.removals := queue } : World).uninstall id r =
      { w.uninstall id r with hub.removals := queue } := by
  have hc' : Hub.Consistent { w.hub with removals := queue } := hc.of_eq rfl rfl rfl rfl
  by_cases hid : id ∈ w.hub.ids
  · obtain ⟨t, ht⟩ := exists_topic_of_mem_ids hc hid
    rw [uninstall_eq hc ht,
      uninstall_eq (w := { w with hub := { w.hub with removals := queue } }) (t := t) hc' ht]
    rfl
  · rw [uninstall_of_not_mem hid,
      uninstall_of_not_mem (w := { w with hub := { w.hub with removals := queue } }) hid]

/-- The requests at the front of the queue are handled in their order, and leave it. -/
theorem afterRemovals_eq (hs : w.hub.Sound) (hr : w.hub.running = true)
    (ids rest : List SubscriptionId) :
    ({ w with hub.removals := ids ++ rest } : World).afterRemovals ids.length =
      { w.uninstallAll ids with hub.removals := rest } := by
  induction ids generalizing w with
  | nil => rfl
  | cons id ids ih =>
    obtain ⟨hs', hr'⟩ := uninstall_sound hs hr id .unsubscribed
    have hfirst : ({ w with hub.removals := id :: ids ++ rest } : World).act (.turn .remove) =
        { w.uninstall id .unsubscribed with hub.removals := ids ++ rest } := by
      rw [← uninstall_queued hs.consistent]
      exact if_pos hr
    calc ({ w with hub.removals := id :: ids ++ rest } : World).afterRemovals (ids.length + 1)
      _ = (({ w with hub.removals := id :: ids ++ rest } : World).act
            (.turn .remove)).afterRemovals ids.length := rfl
      _ = { (w.uninstall id .unsubscribed).uninstallAll ids with hub.removals := rest } := by
          rw [hfirst]
          exact ih hs' hr'

/--
**Requests for removal are handled alike in every order and however often.** In any world that a hub
comes to and works in, let two lists of identities have the same members, known or not, and let each
of them be what is first in the queue. When the hub has handled either list,

* the two worlds are the same topic by topic: the tables, the counters, the lines and the bus are
  the same, and so is what the ledger has of each topic;
* the index has lost the identities of the list, and nothing else;
* a topic that was registered still is if one of its subscriptions is left, and otherwise it has
  been released once; nothing else has been noted of any topic, and what has been noted is what the
  bus was called for (`uninstallAll_calls`);
* a request that had been made before in the list, or that nobody was installed for, has changed
  nothing but the queue.
-/
theorem removals_order_free {bus : Bus} {config : Config} {governor : Governor}
    (h : Evolves (start bus config governor) w) (hr : w.hub.running = true)
    (hsame : ∀ id, id ∈ ids ↔ id ∈ ids') (rest : List SubscriptionId) :
    let queued (ids : List SubscriptionId) : World := { w with hub.removals := ids ++ rest }
    let v := (queued ids).afterRemovals ids.length
    v.Topicwise ((queued ids').afterRemovals ids'.length) ∧
    v.hub.index.entries = w.hub.index.entries.filter (fun e => e.1.2 ∉ ids) ∧
    (∀ t, v.hub.topics.contains t = true ↔ ∃ s ∈ w.hub.listeners t, s.id ∉ ids) ∧
    w.Released v ∧
    ∀ before id after, ids = before ++ id :: after → id ∈ before ∨ id ∉ w.hub.ids →
      let u := (queued ids).afterRemovals before.length
      u.hub.removals = id :: after ++ rest ∧
        u.act (.turn .remove) = { u with hub.removals := after ++ rest } := by
  intro queued v
  have hs : w.hub.Sound := h.sound (start_sound bus config governor)
  have hc := hs.consistent
  have hv : v = { w.uninstallAll ids with hub.removals := rest } := afterRemovals_eq hs hr ids rest
  refine ⟨?_, ?_, fun t => ?_, ?_, ?_⟩
  · obtain ⟨ledger, hl, he⟩ := uninstallAll_same hs hr hsame
    rw [hv, show (queued ids').afterRemovals ids'.length =
      { w.uninstallAll ids' with hub.removals := rest } from afterRemovals_eq hs hr ids' rest, he]
    exact ⟨ledger, hl, rfl⟩
  · rw [hv]
    exact (foldl_uninstall_removal hc.ids_once ids .unsubscribed).index
  · rw [hv]
    exact contains_uninstallAll hs hr ids t
  · rw [hv]
    exact uninstallAll_released hs hr ids
  · rintro before id after rfl hvoid u
    have hu : u = { w.uninstallAll before with hub.removals := id :: after ++ rest } := by
      rw [← afterRemovals_eq hs hr before (id :: after ++ rest), ← List.append_assoc]
    have hrun := (uninstallAll_sound hs hr before).2
    have hact : u.act (.turn .remove) =
        { (w.uninstallAll before).uninstall id .unsubscribed with
          hub.removals := after ++ rest } := by
      rw [hu, ← uninstall_queued (uninstallAll_sound hs hr before).1.consistent]
      exact if_pos hrun
    rw [hact, uninstall_uninstallAll hc hvoid, hu]
    exact ⟨rfl, rfl⟩

/-- Two subscriptions share a topic and a third has one of its own. The two are removed in either
order, with a repeated request and one for somebody unknown. -/
theorem removals_order_free_shared :
    let s₁ : Subscription := ⟨.issued 0, .logs, transactionTopic, none⟩
    let s₂ : Subscription := ⟨.issued 1, .pendingTransactions, transactionTopic, none⟩
    let s₃ : Subscription := ⟨.issued 2, .newHeads, headerTopic, none⟩
    let w := (((start (Bus.sized 4) {} .absent).install s₁).install s₂).install s₃
    let ids : List SubscriptionId := [s₁.id, .issued 7, s₁.id, s₂.id]
    let ids' : List SubscriptionId := [s₂.id, s₁.id, .issued 7]
    let v := ({ w with hub.removals := ids ++ [s₃.id] } : World).afterRemovals 4
    let v' := ({ w with hub.removals := ids' ++ [s₃.id] } : World).afterRemovals 3
    w.hub.topics.keys = [transactionTopic, headerTopic] ∧
      (∀ id, id ∈ ids ↔ id ∈ ids') ∧ v.Topicwise v' ∧ v.hub.topics.keys = [headerTopic] ∧
      v'.hub.ledger.filter (·.topic = transactionTopic) =
        [.requested transactionTopic true, .released transactionTopic] := by
  intro s₁ s₂ s₃ w ids ids' v v'
  have hrun : Evolves (start (Bus.sized 4) {} .absent) w :=
    ((Relation.ReflTransGen.refl.tail (.install s₁ rfl)).tail (.install s₂ (by decide))).tail
      (.install s₃ (by decide))
  have hsame : ∀ id, id ∈ ids ↔ id ∈ ids' := by
    intro id
    simp only [ids, ids', List.mem_cons, List.not_mem_nil, or_false]
    tauto
  exact ⟨by decide, hsame, (removals_order_free hrun (by decide) hsame [s₃.id]).1, by decide,
    by decide⟩

end World

end EventFanout
