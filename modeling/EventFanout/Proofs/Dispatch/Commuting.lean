/-
EventFanout.Proofs.Dispatch.Commuting — items of two topics can be handled in either order.

The effect of an item touches the listeners of its topic, their lines and the registration, and it is
worked out from these alone. So an item of one topic leaves the effects of the items of other topics
as they are (`effect_carryOut`), and effects on two topics commute (`carryOut_comm`). What is left of
the order in which the work was done is the order of the ledger, and the order in which the index
keeps what is in it; worlds that are the same but for these two agree (`World.Agrees`).

Main statements: `dispatch_agrees`, worlds that agree still do when they are given the same item, and
`dispatch_comm`.
-/
import EventFanout.Proofs.Dispatch.Effect

namespace EventFanout

/-! ## Effects on two topics -/

namespace Effect

variable {e e' : Effect} {t t' : Topic}

theorem topics_kept (h : e.fate = .kept) (t : Topic) (topics : Table Topic Registration) :
    e.topics t topics =
      topics.update t fun r => { r with subscribers := r.subscribers - e.gone.length } := by
  simp only [Effect.topics, h]

theorem topics_erased (h : e.fate ≠ .kept) (t : Topic) (topics : Table Topic Registration) :
    e.topics t topics = topics.erase t := by
  cases hf : e.fate with
  | kept => exact absurd hf h
  | _ => simp only [Effect.topics, hf]

theorem feeds_kept (h : e.fate = .kept) (t : Topic) (feeds : Table Topic Handle) :
    e.feeds t feeds = feeds := by
  simp only [Effect.feeds, h]

theorem feeds_erased (h : e.fate ≠ .kept) (t : Topic) (feeds : Table Topic Handle) :
    e.feeds t feeds = feeds.erase t := by
  cases hf : e.fate with
  | kept => exact absurd hf h
  | _ => simp only [Effect.feeds, hf]

theorem topics_comm (e e' : Effect) (hne : t ≠ t') (topics : Table Topic Registration) :
    e'.topics t' (e.topics t topics) = e.topics t (e'.topics t' topics) := by
  by_cases h : e.fate = .kept <;> by_cases h' : e'.fate = .kept
  · simp only [topics_kept h, topics_kept h', Table.update_comm _ hne]
  · simp only [topics_kept h, topics_erased h', Table.update_erase _ hne]
  · simp only [topics_erased h, topics_kept h', Table.update_erase _ hne.symm]
  · simp only [topics_erased h, topics_erased h', Table.erase_comm _ t]

theorem feeds_comm (e e' : Effect) (t t' : Topic) (feeds : Table Topic Handle) :
    e'.feeds t' (e.feeds t feeds) = e.feeds t (e'.feeds t' feeds) := by
  by_cases h : e.fate = .kept <;> by_cases h' : e'.fate = .kept
  · simp only [feeds_kept h, feeds_kept h']
  · simp only [feeds_kept h, feeds_erased h']
  · simp only [feeds_erased h, feeds_kept h']
  · simp only [feeds_erased h, feeds_erased h', Table.erase_comm _ t]

theorem get?_topics (e : Effect) (hne : t ≠ t') (topics : Table Topic Registration) :
    (e.topics t topics).get? t' = topics.get? t' := by
  by_cases h : e.fate = .kept
  · rw [topics_kept h, Table.get?_update, if_neg hne]
  · rw [topics_erased h, Table.get?_erase, if_neg hne]

theorem get?_feeds (e : Effect) (hne : t ≠ t') (feeds : Table Topic Handle) :
    (e.feeds t feeds).get? t' = feeds.get? t' := by
  by_cases h : e.fate = .kept
  · rw [feeds_kept h]
  · rw [feeds_erased h, Table.get?_erase, if_neg hne]

theorem bus_comm (e e' : Effect) (hne : t ≠ t') (feed feed' : Option Handle) (b : Bus) :
    e'.bus t' feed' (e.bus t feed b) = e.bus t feed (e'.bus t' feed' b) := by
  simp only [Effect.bus]
  cases e.fate <;> cases e'.fate
  case released.released =>
    simp only [Bus.unsubscribe_dropped, Bus.unsubscribe_comm _ hne, Bus.dropped_comm _ feed]
  case released.ended => simp only [Bus.unsubscribe_dropped, Bus.dropped_comm _ feed]
  case ended.released => simp only [Bus.unsubscribe_dropped, Bus.dropped_comm _ feed]
  case ended.ended => exact Bus.dropped_comm b feed feed'
  all_goals rfl

end Effect

/-! ## Worlds that agree -/

namespace World

variable {w w' : World} {t t' : Topic}

/-- The worlds are the same, but for the order in which the index keeps the subscriptions and the order in
which the ledger has the entries. -/
def Agrees (w w' : World) : Prop :=
  ∃ entries ledger, w.hub.index.entries.Perm entries ∧ w.hub.ledger.Perm ledger ∧
    w' = { w with hub := { w.hub with index := ⟨entries⟩, ledger } }

namespace Agrees

theorem refl (w : World) : w.Agrees w := ⟨_, _, .rfl, .rfl, rfl⟩

theorem symm (h : w.Agrees w') : w'.Agrees w := by
  obtain ⟨entries, ledger, hi, hl, rfl⟩ := h
  exact ⟨_, _, hi.symm, hl.symm, rfl⟩

theorem trans {w'' : World} (h : w.Agrees w') (h' : w'.Agrees w'') : w.Agrees w'' := by
  obtain ⟨entries, ledger, hi, hl, rfl⟩ := h
  obtain ⟨entries', ledger', hi', hl', rfl⟩ := h'
  exact ⟨_, _, hi.trans hi', hl.trans hl', rfl⟩

end Agrees

/-- Effects on two topics can be carried out in either order; only the ledger tells which it was. -/
theorem carryOut_swap (w : World) (hne : t ≠ t') {e e' : Effect}
    (hlines : ∀ c ∈ e.lines, ∀ c' ∈ e'.lines, c.1 ≠ c'.1) :
    (w.carryOut t' e').carryOut t e = { (w.carryOut t e).carryOut t' e' with
      hub.ledger := (w.hub.ledger ++ e'.entries t') ++ e.entries t } := by
  have hfeeds := e.get?_feeds hne w.hub.feeds
  have hfeeds' := e'.get?_feeds hne.symm w.hub.feeds
  have hmetrics : (w.hub.metrics.recordAll e.tallies).recordAll e'.tallies =
      (w.hub.metrics.recordAll e'.tallies).recordAll e.tallies := by
    rw [← Metrics.recordAll_append, ← Metrics.recordAll_append]
    exact Metrics.recordAll_perm List.perm_append_comm _
  have hindex : ((w.hub.index.entries.filter fun x => x.1.2 ∉ e.gone).filter
      fun x => x.1.2 ∉ e'.gone) =
      (w.hub.index.entries.filter fun x => x.1.2 ∉ e'.gone).filter fun x => x.1.2 ∉ e.gone := by
    rw [List.filter_filter, List.filter_filter]
    exact List.filter_congr fun x _ => Bool.and_comm _ _
  simp only [carryOut, hfeeds, hfeeds', hmetrics, hindex, e.bus_comm e' hne,
    e.topics_comm e' hne, e.feeds_comm e' t t', Table.updateAll_comm hlines]

theorem carryOut_comm (w : World) (hne : t ≠ t') {e e' : Effect}
    (hlines : ∀ c ∈ e.lines, ∀ c' ∈ e'.lines, c.1 ≠ c'.1) :
    ((w.carryOut t e).carryOut t' e').Agrees ((w.carryOut t' e').carryOut t e) := by
  refine ⟨_, (w.hub.ledger ++ e'.entries t') ++ e.entries t, .rfl, ?_, carryOut_swap w hne hlines⟩
  simp only [carryOut, List.append_assoc]
  exact List.perm_append_comm.append_left _

end World

/-! ## The same effect in another order -/

/-- Two effects are the same, but for the order in which they list the subscriptions. -/
structure Effect.Same (e e' : Effect) : Prop where
  lines : ∀ lines : Lines, lines.updateAll e.lines = lines.updateAll e'.lines
  gone : e.gone.Perm e'.gone
  tallies : e.tallies = e'.tallies
  fate : e.fate = e'.fate

namespace Effect.Same

variable {e e' : Effect}

theorem refl (e : Effect) : e.Same e := ⟨fun _ => rfl, .rfl, rfl, rfl⟩

theorem andThen {e₁ e₁' : Effect} (h : e.Same e') (h₁ : e₁.Same e₁') :
    (e.andThen e₁).Same (e'.andThen e₁') where
  lines := fun lines => by
    simp only [Effect.andThen, Table.updateAll_append, h.lines, h₁.lines]
  gone := h.gone.append h₁.gone
  tallies := by simp only [Effect.andThen, h.tallies, h₁.tallies]
  fate := h₁.fate

end Effect.Same

theorem World.change?_keys (results : List (SubscriptionId × World.Outcome)) :
    ((results.filterMap World.Outcome.change?).map (·.1)).Sublist (results.map (·.1)) := by
  induction results with
  | nil => exact .slnil
  | cons result rest ih =>
    obtain ⟨id, o⟩ := result
    cases o with
    | delivered line => exact ih.cons_cons id
    | _ => exact ih.cons id

theorem Effect.delivery_same {results results' : List (SubscriptionId × World.Outcome)}
    (h : results.Perm results') (hn : (results.map (·.1)).Nodup) :
    (delivery results).Same (delivery results') where
  lines := Table.updateAll_perm (h.filterMap _) (hn.sublist (World.change?_keys results))
  gone := .rfl
  tallies := by simp only [delivery, h.countP_eq]
  fate := rfl

/-- Closing the lines of some subscriptions is the same in every order. -/
theorem World.updateAll_close_perm {ids ids' : List SubscriptionId} (h : ids.Perm ids')
    (hn : ids.Nodup) (reason : SubscriptionError) (lines : Lines) :
    lines.updateAll (ids.map fun id => (id, fun l => l.close reason)) =
      lines.updateAll (ids'.map fun id => (id, fun l => l.close reason)) := by
  have hkeys : (ids.map fun id => (id, fun l : Line => l.close reason)).map (·.1) = ids := by
    rw [List.map_map]
    exact List.map_id ids
  exact Table.updateAll_perm (h.map _) (hkeys.symm ▸ hn) lines

theorem Effect.removal_same {ids ids' : List SubscriptionId} (h : ids.Perm ids') (hn : ids.Nodup)
    (n : Nat) (reason : SubscriptionError) : (removal n reason ids).Same (removal n reason ids') where
  lines := World.updateAll_close_perm h hn reason
  gone := h
  tallies := by
    simp only [removal, List.map_const', h.length_eq, ne_eq, ← List.length_eq_zero_iff]
  fate := by simp only [removal, h.length_eq, ne_eq, ← List.length_eq_zero_iff]

theorem Effect.ending_same {ids ids' : List SubscriptionId} (h : ids.Perm ids') (hn : ids.Nodup)
    (t : Topic) : (ending t ids).Same (ending t ids') where
  lines := World.updateAll_close_perm h hn _
  gone := h
  tallies := by simp only [ending, List.map_const', h.length_eq]
  fate := rfl

namespace World

variable {w w' : World} {t t' : Topic}

/-- It makes no difference in which order an effect lists the subscriptions. -/
theorem carryOut_congr (w : World) (t : Topic) {e e' : Effect} (he : e.Same e') :
    w.carryOut t e' = w.carryOut t e := by
  have hgone : (w.hub.index.entries.filter fun x => x.1.2 ∉ e'.gone) =
      w.hub.index.entries.filter fun x => x.1.2 ∉ e.gone :=
    List.filter_congr fun x _ => by simp only [he.gone.mem_iff]
  simp only [carryOut, hgone, he.lines, Effect.topics, Effect.feeds, Effect.bus, Effect.entries,
    he.fate, he.tallies, he.gone.length_eq]

theorem carryOut_same (h : w.Agrees w') (t : Topic) {e e' : Effect} (he : e.Same e') :
    (w.carryOut t e).Agrees (w'.carryOut t e') := by
  obtain ⟨entries, ledger, hi, hl, rfl⟩ := h
  rw [carryOut_congr _ t he]
  exact ⟨entries.filter fun x => x.1.2 ∉ e.gone, ledger ++ e.entries t, hi.filter _,
    hl.append_right _, rfl⟩

/-- In worlds that agree an item has the same effect. -/
theorem effect_same (h : w.Agrees w') (hc : w.hub.Consistent) (t : Topic) (item : Item Event) :
    (w.effect t item).Same (w'.effect t item) := by
  obtain ⟨entries, ledger, hi, hl, rfl⟩ := h
  have hlisteners : (w.hub.listeners t).Perm
      (Hub.listeners { w.hub with index := ⟨entries⟩, ledger } t) := (hi.map _).filter _
  have hids := hc.listeners_ids_once t
  cases item with
  | entry e =>
    have houtcomes : (w.outcomes t e.payload).Perm
        (World.outcomes { w with hub := { w.hub with index := ⟨entries⟩, ledger } } t e.payload) :=
      hlisteners.map _
    refine (Effect.delivery_same houtcomes ((outcomes_ids w t e.payload).symm ▸ hids)).andThen ?_
    rw [hlisteners.length_eq]
    exact Effect.removal_same ((houtcomes.filter _).map _)
      (hids.sublist (goneFrom_sublist w t e.payload)) _ _
  | lagged n => exact .refl _
  | ended =>
    simp only [effect]
    split
    · exact Effect.ending_same (hlisteners.map _) hids t
    · exact .refl _

/-- **Worlds that agree still do when they are given the same item.** -/
theorem dispatch_agrees (h : w.Agrees w') (hs : w.hub.Sound) (hs' : w'.hub.Sound)
    (hr : w.hub.running = true) (t : Topic) (item : Item Event) :
    (w.dispatch t item).Agrees (w'.dispatch t item) := by
  have hr' : w'.hub.running = true := by
    obtain ⟨_, _, -, -, rfl⟩ := h
    exact hr
  rw [dispatch_eq hs hr, dispatch_eq hs' hr']
  exact carryOut_same h t (effect_same h hs.consistent t item)

/-! ## Items of two topics -/

/-- The identity of an installed subscription tells its topic. -/
theorem topic_of_listener (hc : w.hub.Consistent) {id : SubscriptionId}
    (h : id ∈ (w.hub.listeners t).map Subscription.id)
    (h' : id ∈ (w.hub.listeners t').map Subscription.id) : t = t' := by
  obtain ⟨k, s, hf, ht⟩ := find?_of_listener hc h
  obtain ⟨k', s', hf', ht'⟩ := find?_of_listener hc h'
  cases hf.symm.trans hf'
  exact ht.symm.trans ht'

/-- The effect of an item concerns the subscriptions of its topic. -/
theorem effect_lines (w : World) (t : Topic) (item : Item Event) :
    ∀ c ∈ (w.effect t item).lines, c.1 ∈ (w.hub.listeners t).map Subscription.id := by
  intro c hm
  cases item with
  | entry e =>
    rcases List.mem_append.mp hm with hm | hm
    · rw [← outcomes_ids w t e.payload]
      exact (change?_keys _).subset (List.mem_map_of_mem hm)
    · obtain ⟨id, hid, rfl⟩ := List.mem_map.mp hm
      exact (goneFrom_sublist w t e.payload).subset hid
  | lagged n => cases hm
  | ended =>
    simp only [effect] at hm
    split at hm
    · obtain ⟨id, hid, rfl⟩ := List.mem_map.mp hm
      exact hid
    · cases hm

theorem effect_gone (w : World) (t : Topic) (item : Item Event) :
    ∀ id ∈ (w.effect t item).gone, id ∈ (w.hub.listeners t).map Subscription.id := by
  intro id hm
  cases item with
  | entry e => exact (goneFrom_sublist w t e.payload).subset hm
  | lagged n => cases hm
  | ended =>
    simp only [effect] at hm
    split at hm
    · exact hm
    · cases hm

/-- What concerns the subscriptions of one topic leaves the effects on other topics as they are. -/
theorem effect_carryOut (hc : w.hub.Consistent) (hne : t ≠ t') {e : Effect}
    (hlines : ∀ c ∈ e.lines, c.1 ∈ (w.hub.listeners t).map Subscription.id)
    (hgone : ∀ id ∈ e.gone, id ∈ (w.hub.listeners t).map Subscription.id) (item : Item Event) :
    (w.carryOut t e).effect t' item = w.effect t' item := by
  have hstays : ∀ s ∈ w.hub.listeners t', s.id ∉ (w.hub.listeners t).map Subscription.id :=
    fun s hs h => hne (topic_of_listener hc h (List.mem_map_of_mem hs))
  have hlisteners : (w.carryOut t e).hub.listeners t' = w.hub.listeners t' := by
    rw [listeners_carryOut hc, List.filter_eq_self]
    intro s hs
    rw [decide_eq_true_eq]
    exact fun hm => hstays s hs (hgone s.id hm)
  have hline : ∀ s ∈ w.hub.listeners t', (w.carryOut t e).lines.get? s.id = w.lines.get? s.id := by
    intro s hs
    refine Table.get?_updateAll_of_not_mem _ fun hm => ?_
    obtain ⟨c, hcm, hid⟩ := List.mem_map.mp hm
    exact hstays s hs (hid ▸ hlines c hcm)
  have houtcomes : ∀ p, (w.carryOut t e).outcomes t' p = w.outcomes t' p := by
    intro p
    rw [outcomes, outcomes, hlisteners]
    exact List.map_congr_left fun s hs => by rw [outcome, outcome, hline s hs]
  have htopics : (w.carryOut t e).hub.topics.contains t' = w.hub.topics.contains t' := by
    rw [Table.contains, Table.contains]
    exact congrArg _ (e.get?_topics hne w.hub.topics)
  cases item with
  | entry e => simp only [effect, goneFrom, houtcomes, hlisteners]
  | lagged n => rfl
  | ended => simp only [effect, htopics, hlisteners]

/-- **Items of two topics can be handled in either order.** -/
theorem dispatch_comm (hs : w.hub.Sound) (hr : w.hub.running = true) (hne : t ≠ t')
    (item item' : Item Event) :
    ((w.dispatch t item).dispatch t' item').Agrees ((w.dispatch t' item').dispatch t item) := by
  have hc := hs.consistent
  have hfirst := dispatch_eq hs hr t item
  have hfirst' := dispatch_eq hs hr t' item'
  have hs₁ := dispatch_sound hs hr t item
  have hs₁' := dispatch_sound hs hr t' item'
  have hr₁ : (w.dispatch t item).hub.running = true := by rw [hfirst]; exact hr
  have hr₁' : (w.dispatch t' item').hub.running = true := by rw [hfirst']; exact hr
  have hlines := effect_lines w t item
  have hlines' := effect_lines w t' item'
  rw [dispatch_eq hs₁ hr₁, dispatch_eq hs₁' hr₁', hfirst, hfirst',
    effect_carryOut hc hne hlines (effect_gone w t item),
    effect_carryOut hc hne.symm hlines' (effect_gone w t' item')]
  exact carryOut_comm w hne fun c hm c' hm' hid =>
    hne (topic_of_listener hc (hlines c hm) (hid ▸ hlines' c' hm'))

end World

end EventFanout
