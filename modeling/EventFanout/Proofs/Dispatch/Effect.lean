/-
EventFanout.Proofs.Dispatch.Effect — what handling an item comes to, written down at once.

The hub handles an item step by step: it goes through the subscriptions of the topic, removes some of
them one by one, and may give the topic up over it. `Effect` lists what comes of all that: which lines
are changed and how, who is removed, what is counted, and what becomes of the registration.
`World.effect` reads the effect off the world beforehand, and `World.carryOut` makes the changes
table by table.

Main statement: `dispatch_eq`. To handle an item is to carry its effect out.
-/
import EventFanout.Proofs.Bus.Commuting
import EventFanout.Proofs.Hub.Lines
import Mathlib.Data.List.Perm.Subperm

namespace EventFanout

/-- The order in which things are counted makes no difference. -/
theorem Metrics.record_comm (m : Metrics) (a b : Metrics.Tally) :
    (m.record a).record b = (m.record b).record a := by
  have hswap : ∀ x y z : UInt64, x + y + z = x + z + y := fun x y z => by
    rw [UInt64.add_assoc, UInt64.add_comm y, UInt64.add_assoc]
  cases a <;> cases b <;> simp only [record, hswap]

def Metrics.recordAll (m : Metrics) (tallies : List Metrics.Tally) : Metrics :=
  tallies.foldl Metrics.record m

theorem Metrics.recordAll_append (m : Metrics) (tallies tallies' : List Metrics.Tally) :
    m.recordAll (tallies ++ tallies') = (m.recordAll tallies).recordAll tallies' :=
  List.foldl_append

theorem Metrics.recordAll_perm {tallies tallies' : List Metrics.Tally} (h : tallies.Perm tallies')
    (m : Metrics) : m.recordAll tallies = m.recordAll tallies' :=
  h.foldl_eq' (fun a _ b _ m => m.record_comm a b) m

/-- What becomes of the registration on a topic. -/
inductive Effect.Fate where
  /-- It is kept, for the subscriptions that are left. -/
  | kept
  /-- The hub gives it up on the bus. -/
  | released
  /-- The bus has ended it. -/
  | ended
  deriving DecidableEq

structure Effect where
  /-- The lines that are changed, one after the other. -/
  lines : List (SubscriptionId × (Line → Line)) := []
  /-- The subscriptions that are removed. -/
  gone : List SubscriptionId := []
  /-- What is counted. -/
  tallies : List Metrics.Tally := []
  fate : Effect.Fate := .kept

namespace Effect

def topics (e : Effect) (t : Topic) (topics : Table Topic Registration) :
    Table Topic Registration :=
  match e.fate with
  | .kept => topics.update t fun r => { r with subscribers := r.subscribers - e.gone.length }
  | _ => topics.erase t

def feeds (e : Effect) (t : Topic) (feeds : Table Topic Handle) : Table Topic Handle :=
  match e.fate with
  | .kept => feeds
  | _ => feeds.erase t

def bus (e : Effect) (t : Topic) (feed : Option Handle) (b : Bus) : Bus :=
  match e.fate with
  | .kept => b
  | .released => ((b.dropped feed).unsubscribe t).2
  | .ended => b.dropped feed

/-- What is noted of the registration. -/
def entries (e : Effect) (t : Topic) : List Entry :=
  match e.fate with
  | .kept => []
  | .released => [.released t]
  | .ended => [.ended t]

def andThen (e e' : Effect) : Effect where
  lines := e.lines ++ e'.lines
  gone := e.gone ++ e'.gone
  tallies := e.tallies ++ e'.tallies
  fate := e'.fate

end Effect

namespace World

def carryOut (w : World) (t : Topic) (e : Effect) : World :=
  { w with
    bus := e.bus t (w.hub.feeds.get? t) w.bus
    lines := w.lines.updateAll e.lines
    hub := { w.hub with
      index := ⟨w.hub.index.entries.filter fun x => x.1.2 ∉ e.gone⟩
      topics := e.topics t w.hub.topics
      feeds := e.feeds t w.hub.feeds
      view := e.topics t w.hub.topics
      metrics := w.hub.metrics.recordAll e.tallies
      ledger := w.hub.ledger ++ e.entries t } }

variable {w : World} {t : Topic}

/-- An effect under which the registration is kept. -/
theorem carryOut_kept (w : World) (t : Topic) {e : Effect} (hkept : e.fate = .kept) :
    w.carryOut t e = { w with
      lines := w.lines.updateAll e.lines
      hub := { w.hub with
        index := ⟨w.hub.index.entries.filter fun x => x.1.2 ∉ e.gone⟩
        topics := w.hub.topics.update t fun r =>
          { r with subscribers := r.subscribers - e.gone.length }
        view := w.hub.topics.update t fun r =>
          { r with subscribers := r.subscribers - e.gone.length }
        metrics := w.hub.metrics.recordAll e.tallies } } := by
  simp only [carryOut, Effect.topics, Effect.feeds, Effect.bus, Effect.entries, hkept,
    List.append_nil]

/-- Effects of one topic are carried out together, up to the one that the registration does not
outlive. -/
theorem carryOut_andThen (w : World) (t : Topic) {e e' : Effect} (hkept : e.fate = .kept) :
    (w.carryOut t e).carryOut t e' = w.carryOut t (e.andThen e') := by
  have hindex : ((w.hub.index.entries.filter fun x => x.1.2 ∉ e.gone).filter
      fun x => x.1.2 ∉ e'.gone) = w.hub.index.entries.filter fun x => x.1.2 ∉ e.gone ++ e'.gone := by
    rw [List.filter_filter]
    refine List.filter_congr fun x _ => ?_
    by_cases h : x.1.2 ∈ e.gone <;> by_cases h' : x.1.2 ∈ e'.gone <;> simp [h, h']
  have htopics : e'.topics t (e.topics t w.hub.topics) = (e.andThen e').topics t w.hub.topics := by
    simp only [Effect.topics, hkept, Effect.andThen, List.length_append]
    cases e'.fate with
    | kept => simp only [Table.update_update, Nat.sub_sub]
    | released => exact Table.erase_update _ _ _
    | ended => exact Table.erase_update _ _ _
  have hfeeds : e.feeds t w.hub.feeds = w.hub.feeds := by simp only [Effect.feeds, hkept]
  have hbus : e.bus t (w.hub.feeds.get? t) w.bus = w.bus := by simp only [Effect.bus, hkept]
  have hentries : e.entries t = [] := by simp only [Effect.entries, hkept]
  simp only [carryOut, hindex, htopics, hfeeds, hbus, hentries, List.append_nil,
    Table.updateAll_append, Metrics.recordAll_append, Effect.andThen]
  rfl

/-- To carry out that nothing comes of an item changes nothing. -/
theorem carryOut_nothing (hc : w.hub.Consistent) (t : Topic) : w.carryOut t {} = w := by
  have hindex : (⟨w.hub.index.entries.filter fun x => x.1.2 ∉ ([] : List SubscriptionId)⟩ :
      Table (Kind × SubscriptionId) Subscription) = w.hub.index := by
    rw [List.filter_eq_self.mpr (by simp)]
  have htopics : Effect.topics {} t w.hub.topics = w.hub.topics :=
    Table.update_id _ fun _ => rfl
  have hview : ({ w with hub := { w.hub with view := w.hub.topics } } : World) =
      { w with hub := { w.hub with view := w.hub.view } } := by rw [hc.view_eq]
  simp only [carryOut, hindex, htopics, Effect.feeds, Effect.bus, Effect.entries, List.append_nil]
  exact hview

/-! ## Delivering -/

/-- How the line of a subscription is changed by what an event comes to for it. -/
def Outcome.change? (result : SubscriptionId × Outcome) : Option (SubscriptionId × (Line → Line)) :=
  match result.2 with
  | .delivered line => some (result.1, fun _ => line)
  | _ => none

/-- Deliveries change lines that are there. -/
theorem foldl_apply_eq {results : List (SubscriptionId × Outcome)} {lines : Lines}
    (hknown : ∀ id line, (id, Outcome.delivered line) ∈ results → id ∈ lines.keys) :
    results.foldl Outcome.apply lines = lines.updateAll (results.filterMap Outcome.change?) := by
  induction results generalizing lines with
  | nil => rfl
  | cons result rest ih =>
    obtain ⟨id, o⟩ := result
    cases o with
    | delivered line =>
      have hid := hknown id line List.mem_cons_self
      obtain ⟨l, hl⟩ := Table.exists_get?_of_mem_keys hid
      have hone : Outcome.apply lines (id, .delivered line) = lines.update id fun _ => line :=
        (Table.update_eq_set (fun _ => line) hl).symm
      rw [List.foldl_cons, hone, ih]
      · rfl
      · intro id' line' hm
        rw [Table.keys_update]
        exact hknown id' line' (List.mem_cons_of_mem _ hm)
    | _ => exact ih fun id' line' hm => hknown id' line' (List.mem_cons_of_mem _ hm)

end World

namespace Effect

def delivery (results : List (SubscriptionId × World.Outcome)) : Effect where
  lines := results.filterMap World.Outcome.change?
  tallies := [.event,
    .transientErrors (.ofNat (results.countP fun r => r.2.isFailed)),
    .delivered (.ofNat (results.countP fun r => r.2.isDelivered))]

/-- What removing subscriptions of a topic comes to, which has so many. The last one takes the
registration with it. -/
def removal (subscribers : Nat) (reason : SubscriptionError) (ids : List SubscriptionId) :
    Effect where
  lines := ids.map fun id => (id, fun l => l.close reason)
  gone := ids
  tallies := ids.map (fun _ => .uninstall) ++
    if ids ≠ [] ∧ subscribers ≤ ids.length then [.topicReleased] else []
  fate := if ids ≠ [] ∧ subscribers ≤ ids.length then .released else .kept

/-- What the end of a topic comes to, which some subscriptions listen to. -/
def ending (t : Topic) (ids : List SubscriptionId) : Effect where
  lines := ids.map fun id => (id, fun l => l.close (.topicClosed t))
  gone := ids
  tallies := ids.map (fun _ => .uninstall) ++ [.topicReleased]
  fate := .ended

/-- To remove one of several subscriptions and then others is to remove them all. -/
theorem removal_andThen {n : Nat} (hn : 0 < n) (reason : SubscriptionError) (id : SubscriptionId)
    (rest : List SubscriptionId) :
    (removal (n + 1) reason [id]).andThen (removal n reason rest) =
      removal (n + 1) reason (id :: rest) := by
  have hone : ¬ ([id] ≠ [] ∧ n + 1 ≤ [id].length) := fun h =>
    Nat.not_le_of_lt (Nat.lt_add_of_pos_left hn) h.2
  have hlast : (rest ≠ [] ∧ n ≤ rest.length) = (id :: rest ≠ [] ∧ n + 1 ≤ (id :: rest).length) := by
    rw [eq_iff_iff, List.length_cons, Nat.add_le_add_iff_right, ← List.length_pos_iff]
    exact ⟨fun h => ⟨List.cons_ne_nil _ _, h.2⟩, fun h => ⟨Nat.lt_of_lt_of_le hn h.2, h.2⟩⟩
  simp only [andThen, removal, if_neg hone, hlast]
  rfl

end Effect

namespace World

variable {w : World} {t : Topic}

/-- To deliver an event is to carry out what that comes to. -/
theorem delivered_eq (hc : w.hub.Consistent) (t : Topic) (p : Payload) :
    w.delivered t p = w.carryOut t (.delivery (w.outcomes t p)) := by
  have hknown : ∀ id line, (id, Outcome.delivered line) ∈ w.outcomes t p → id ∈ w.lines.keys := by
    intro id line hm
    obtain ⟨s, -, he⟩ := List.mem_map.mp hm
    rw [Prod.mk.injEq] at he
    obtain ⟨l, -, hl, -⟩ := outcome_delivered he.2
    exact he.1 ▸ Table.mem_keys_of_get? hl
  have hcarry : w.carryOut t (.delivery (w.outcomes t p)) = { w.carryOut t {} with
      lines := w.lines.updateAll ((w.outcomes t p).filterMap Outcome.change?)
      hub.metrics := w.hub.metrics.recordAll (Effect.delivery (w.outcomes t p)).tallies } := rfl
  rw [hcarry, carryOut_nothing hc, ← foldl_apply_eq hknown]
  rfl

/-! ## Removing -/

theorem dropFeed_eq (w : World) (t : Topic) :
    w.dropFeed t = { w with
      bus := w.bus.dropped (w.hub.feeds.get? t)
      hub.feeds := w.hub.feeds.erase t } := by
  unfold dropFeed
  cases h : w.hub.feeds.get? t with
  | some hd => rfl
  | none =>
    rw [Table.erase_of_not_mem ((Table.get?_eq_none_iff _ _).mp h)]
    rfl

theorem releaseOnBus_eq (w : World) (t : Topic) :
    w.releaseOnBus t = { w with
      bus := ((w.bus.dropped (w.hub.feeds.get? t)).unsubscribe t).2
      hub := { w.hub with
        feeds := w.hub.feeds.erase t
        ledger := w.hub.ledger ++ [.released t]
        metrics := w.hub.metrics.record .topicReleased } } := by
  rw [releaseOnBus, dropFeed_eq]
  rfl

/-- To remove a subscription that is installed is to carry out what that comes to. -/
theorem removed_eq (hc : w.hub.Consistent) {key : Kind × SubscriptionId} {s : Subscription}
    (hs : (key, s) ∈ w.hub.index.entries) (reason : SubscriptionError) :
    w.removed key s reason =
      w.carryOut s.topic (.removal (w.hub.listeners s.topic).length reason [key.2]) := by
  obtain ⟨r, hr, hcount⟩ := hc.get?_topic (Hub.mem_values.mpr ⟨key, hs⟩)
  rw [← hcount]
  have hindex : w.hub.index.erase key =
      ⟨w.hub.index.entries.filter fun x => x.1.2 ∉ [key.2]⟩ := by
    rw [Hub.erase_eq_filter hc.ids_once hs, Table.mk.injEq]
    exact List.filter_congr fun x _ => by simp
  have hremoved : w.removed key s reason =
      ((({ w with hub.index := w.hub.index.erase key }.releaseTopic s.topic).record
        .uninstall).publishView).closeLine key.2 reason := rfl
  rcases releaseTopic_cases { w with hub.index := w.hub.index.erase key } s.topic with
    ⟨hnone, -⟩ | ⟨r', hr', hmore, hrel⟩ | ⟨r', hr', hlast, hrel⟩
  · rw [show w.hub.topics.get? s.topic = none from hnone] at hr
    cases hr
  · obtain rfl : r' = r := Option.some.inj (hr'.symm.trans hr)
    have hnot : ¬ ([key.2] ≠ [] ∧ r'.subscribers ≤ [key.2].length) := fun h =>
      Nat.not_le_of_lt hmore h.2
    have hkept : (Effect.removal r'.subscribers reason [key.2]).fate = .kept := if_neg hnot
    have htallies : (Effect.removal r'.subscribers reason [key.2]).tallies = [.uninstall] := by
      simp only [Effect.removal, if_neg hnot, List.append_nil, List.map_singleton]
    have hset := Table.update_eq_set (t := w.hub.topics) (k := s.topic)
      (fun r => { r with subscribers := r.subscribers - 1 }) hr'
    rw [carryOut_kept w s.topic hkept, htallies, hremoved, hrel, hindex]
    simp only [Effect.removal, List.length_singleton, hset]
    rfl
  · obtain rfl : r' = r := Option.some.inj (hr'.symm.trans hr)
    have hfate : (Effect.removal r'.subscribers reason [key.2]).fate = .released :=
      if_pos ⟨List.cons_ne_nil _ _, hlast⟩
    have htallies : (Effect.removal r'.subscribers reason [key.2]).tallies =
        [.uninstall, .topicReleased] := by
      simp [Effect.removal, hlast]
    have hmetrics : w.hub.metrics.recordAll [.uninstall, .topicReleased] =
        (w.hub.metrics.record .topicReleased).record .uninstall :=
      Metrics.record_comm w.hub.metrics .uninstall .topicReleased
    rw [hremoved, hrel, hindex, releaseOnBus_eq]
    simp only [carryOut, Effect.topics, Effect.feeds, Effect.bus, Effect.entries, hfate, htallies,
      hmetrics]
    rfl

/-- Of the subscriptions of a topic those are left that are not among the removed. -/
theorem listeners_carryOut (hc : w.hub.Consistent) (t : Topic) (e : Effect) (t' : Topic) :
    (w.carryOut t e).hub.listeners t' =
      (w.hub.listeners t').filter fun s => s.id ∉ e.gone := by
  have hvalues : (w.carryOut t e).hub.index.values =
      w.hub.index.values.filter fun s => s.id ∉ e.gone := by
    simp only [carryOut, Table.values, List.filter_map]
    refine congrArg (List.map _) (List.filter_congr fun x hx => ?_)
    simp only [Function.comp_apply, hc.filed x.1 x.2 hx]
  rw [Hub.listeners, hvalues, Hub.listeners, List.filter_filter, List.filter_filter]
  exact List.filter_congr fun s _ => Bool.and_comm _ _

/-- The entry that the identity of a listener leads to. -/
theorem find?_of_listener (hc : w.hub.Consistent) {id : SubscriptionId}
    (h : id ∈ (w.hub.listeners t).map Subscription.id) :
    ∃ k s, w.hub.find? id = some ((k, id), s) ∧ s.topic = t := by
  obtain ⟨s, hs, rfl⟩ := List.mem_map.mp h
  obtain ⟨hv, htopic⟩ := Hub.mem_listeners.mp hs
  have hid : s.id ∈ w.hub.ids := by
    rw [← hc.values_ids]
    exact List.mem_map_of_mem hv
  obtain ⟨k, s', hf⟩ := Hub.exists_find?_of_mem_ids hid
  obtain ⟨key, hkey⟩ := Hub.mem_values.mp hv
  have hsame := Hub.entry_unique hc.ids_once (Hub.mem_of_find? hf).1 hkey (by rw [hc.filed key s hkey])
  obtain rfl : s' = s := (Prod.mk.inj hsame).2
  exact ⟨k, s', hf, htopic⟩

theorem uninstall_eq (hc : w.hub.Consistent) {id : SubscriptionId}
    (h : id ∈ (w.hub.listeners t).map Subscription.id) (reason : SubscriptionError) :
    w.uninstall id reason = w.carryOut t (.removal (w.hub.listeners t).length reason [id]) := by
  obtain ⟨k, s, hf, rfl⟩ := find?_of_listener hc h
  rcases uninstall_cases w id reason with ⟨hnone, -⟩ | ⟨k', s', hf', hremoved⟩
  · cases hf.symm.trans hnone
  · cases hf.symm.trans hf'
    rw [hremoved, removed_eq hc (Hub.mem_of_find? hf).1]

theorem length_listeners_carryOut (hc : w.hub.Consistent) {id : SubscriptionId}
    (h : id ∈ (w.hub.listeners t).map Subscription.id) {e : Effect} (he : e.gone = [id]) :
    (w.hub.listeners t).length = ((w.carryOut t e).hub.listeners t).length + 1 := by
  obtain ⟨k, s, hf, rfl⟩ := find?_of_listener hc h
  have hm := (Hub.mem_of_find? hf).1
  have hindex : (w.carryOut s.topic e).hub.index = w.hub.index.erase (k, id) := by
    rw [Hub.erase_eq_filter hc.ids_once hm, carryOut, he, Table.mk.injEq]
    exact List.filter_congr fun x _ => by simp
  rw [hc.length_listeners_erase hm hindex, if_pos rfl]

/-- To remove some of the subscriptions of a topic one by one is to carry out what that comes to. -/
theorem foldl_uninstall_eq (hs : w.hub.Sound) (hr : w.hub.running = true)
    {ids : List SubscriptionId} (hn : ids.Nodup)
    (hids : ∀ id ∈ ids, id ∈ (w.hub.listeners t).map Subscription.id) (reason : SubscriptionError) :
    ids.foldl (fun w id => w.uninstall id reason) w =
      w.carryOut t (.removal (w.hub.listeners t).length reason ids) := by
  induction ids generalizing w with
  | nil => exact (carryOut_nothing hs.consistent t).symm
  | cons id rest ih =>
    have hc := hs.consistent
    have hone := hids id List.mem_cons_self
    have hfirst := uninstall_eq hc hone reason
    have hlength : (id :: rest).length ≤ (w.hub.listeners t).length := by
      have h := (hn.subperm hids).length_le
      rwa [List.length_map] at h
    obtain ⟨hs₁, hr₁⟩ := uninstall_sound hs hr id reason
    rw [List.foldl_cons]
    by_cases hlast : (w.hub.listeners t).length ≤ 1
    · obtain rfl : rest = [] :=
        List.eq_nil_of_length_eq_zero (Nat.le_zero.mp (Nat.le_of_succ_le_succ (hlength.trans hlast)))
      exact hfirst
    · -- the topic keeps a subscription, so the rest can be removed from it as well
      have hkept : (Effect.removal (w.hub.listeners t).length reason [id]).fate = .kept :=
        if_neg fun h => hlast h.2
      have hleft : ∀ id' ∈ rest,
          id' ∈ ((w.uninstall id reason).hub.listeners t).map Subscription.id := by
        intro id' hm
        obtain ⟨s, hs', rfl⟩ := List.mem_map.mp (hids id' (List.mem_cons_of_mem _ hm))
        rw [hfirst, listeners_carryOut hc]
        refine List.mem_map.mpr ⟨s, List.mem_filter.mpr ⟨hs', ?_⟩, rfl⟩
        have hne : s.id ≠ id := fun e => (List.nodup_cons.mp hn).1 (e ▸ hm)
        simpa [Effect.removal] using hne
      have hcount : (w.hub.listeners t).length =
          ((w.uninstall id reason).hub.listeners t).length + 1 := by
        rw [hfirst]
        exact length_listeners_carryOut hc hone rfl
      calc rest.foldl (fun w id => w.uninstall id reason) (w.uninstall id reason)
        _ = (w.uninstall id reason).carryOut t
              (.removal ((w.uninstall id reason).hub.listeners t).length reason rest) :=
            ih hs₁ hr₁ (List.nodup_cons.mp hn).2 hleft
        _ = w.carryOut t ((Effect.removal (w.hub.listeners t).length reason [id]).andThen
              (.removal ((w.uninstall id reason).hub.listeners t).length reason rest)) := by
            rw [← carryOut_andThen w t hkept, ← hfirst]
        _ = w.carryOut t (.removal (w.hub.listeners t).length reason (id :: rest)) := by
            rw [hcount, Effect.removal_andThen (by omega)]

/-! ## Ending -/

/-- Subscriptions that the end of a topic takes out of the index. -/
theorem foldl_endWithTopic_eq (hn : w.hub.ids.Nodup) (t : Topic) {l : List Subscription}
    (hl : (l.map Subscription.id).Nodup) (hids : ∀ s ∈ l, s.id ∈ w.hub.ids) :
    l.foldl (endWithTopic t) w = { w with
      lines := w.lines.updateAll (Effect.ending t (l.map Subscription.id)).lines
      hub := { w.hub with
        index := ⟨w.hub.index.entries.filter fun x => x.1.2 ∉ l.map Subscription.id⟩
        metrics := w.hub.metrics.recordAll (l.map fun _ => .uninstall) } } := by
  induction l generalizing w with
  | nil =>
    have hkeep : (w.hub.index.entries.filter fun x =>
        x.1.2 ∉ ([] : List Subscription).map Subscription.id) = w.hub.index.entries :=
      List.filter_eq_self.mpr (by simp)
    rw [hkeep]
    rfl
  | cons s rest ih =>
    obtain ⟨hnot, hrest⟩ := List.nodup_cons.mp hl
    obtain ⟨k, s', hf⟩ := Hub.exists_find?_of_mem_ids (hids s List.mem_cons_self)
    have hindex := Hub.erase_eq_filter hn (Hub.mem_of_find? hf).1
    have hone : endWithTopic t w s = { w with
        lines := w.lines.update s.id fun l => l.close (.topicClosed t)
        hub := { w.hub with
          index := ⟨w.hub.index.entries.filter fun x => x.1.2 ≠ s.id⟩
          metrics := w.hub.metrics.record .uninstall } } := by
      rw [← hindex]
      simp only [endWithTopic, hf]
      rfl
    have hn₁ : (endWithTopic t w s).hub.ids.Nodup :=
      (endWithTopic_removal hn t s).nodup hn
    have hids₁ : ∀ s' ∈ rest, s'.id ∈ (endWithTopic t w s).hub.ids := by
      intro s' hs'
      rw [(endWithTopic_removal hn t s).mem_ids]
      refine ⟨hids s' (List.mem_cons_of_mem _ hs'), fun h => hnot ?_⟩
      rw [← List.mem_singleton.mp h]
      exact List.mem_map_of_mem hs'
    have hfilter : ((w.hub.index.entries.filter fun x => x.1.2 ≠ s.id).filter fun x =>
        x.1.2 ∉ rest.map Subscription.id) = w.hub.index.entries.filter fun x =>
          x.1.2 ∉ (s :: rest).map Subscription.id := by
      rw [List.filter_filter]
      refine List.filter_congr fun x _ => ?_
      by_cases h : x.1.2 = s.id <;> simp [h]
    rw [List.foldl_cons, ih hn₁ hrest hids₁, hone, ← hfilter]
    rfl

/-- To end a topic is to carry out what that comes to. -/
theorem closeTopic_eq (hc : w.hub.Consistent) (ht : w.hub.topics.contains t = true) :
    w.closeTopic t = w.carryOut t (.ending t ((w.hub.listeners t).map Subscription.id)) := by
  have hids : ∀ s ∈ w.hub.listeners t, s.id ∈ w.hub.ids := by
    intro s hs
    rw [← hc.values_ids]
    exact List.mem_map_of_mem (Hub.mem_listeners.mp hs).1
  have hw : w.closeTopic t = (((w.hub.listeners t).foldl (endWithTopic t)
      ({ w with hub.topics := w.hub.topics.erase t }.dropFeed t)).note (.ended t)
        |>.record .topicReleased).publishView := if_pos ht
  have hmetrics : w.hub.metrics.recordAll
      (Effect.ending t ((w.hub.listeners t).map Subscription.id)).tallies =
        (w.hub.metrics.recordAll ((w.hub.listeners t).map fun _ => .uninstall)).record
          .topicReleased := by
    simp only [Effect.ending, Metrics.recordAll_append, List.map_map]
    rfl
  have hfold := foldl_endWithTopic_eq (w := { w with hub.topics := w.hub.topics.erase t }.dropFeed t)
    (by rw [dropFeed_hub]; exact hc.ids_once) t (hc.listeners_ids_once t)
    (by rw [dropFeed_hub]; exact hids)
  rw [hw, hfold, dropFeed_eq, carryOut, hmetrics]
  rfl

/-! ## Any item -/

def effect (w : World) (t : Topic) : Item Event → Effect
  | .entry e => (Effect.delivery (w.outcomes t e.payload)).andThen
      (.removal (w.hub.listeners t).length .closed (w.goneFrom t e.payload))
  | .lagged _ => {}
  | .ended =>
    if w.hub.topics.contains t then .ending t ((w.hub.listeners t).map Subscription.id) else {}

theorem outcomes_ids (w : World) (t : Topic) (p : Payload) :
    (w.outcomes t p).map (·.1) = (w.hub.listeners t).map Subscription.id := by
  rw [outcomes, List.map_map]
  rfl

theorem goneFrom_sublist (w : World) (t : Topic) (p : Payload) :
    (w.goneFrom t p).Sublist ((w.hub.listeners t).map Subscription.id) := by
  rw [← outcomes_ids w t p]
  exact List.filter_sublist.map _

/-- **To handle an item is to carry its effect out.** -/
theorem dispatch_eq (hs : w.hub.Sound) (hr : w.hub.running = true) (t : Topic)
    (item : Item Event) : w.dispatch t item = w.carryOut t (w.effect t item) := by
  have hc := hs.consistent
  cases item with
  | entry e =>
    have hsame := delivered_sameLoop w t e.payload
    have hlisteners : (w.delivered t e.payload).hub.listeners t = w.hub.listeners t := by
      rw [Hub.listeners, hsame.index, Hub.listeners]
    have hgone := goneFrom_sublist w t e.payload
    calc w.dispatch t (.entry e)
      _ = (w.goneFrom t e.payload).foldl (fun w id => w.uninstall id .closed)
            (w.delivered t e.payload) := fanOut_eq w t e.payload
      _ = (w.delivered t e.payload).carryOut t
            (.removal (w.hub.listeners t).length .closed (w.goneFrom t e.payload)) := by
          rw [← hlisteners]
          exact foldl_uninstall_eq (hs.of_sameLoop hsame) (hsame.running.trans hr)
            ((hc.listeners_ids_once t).sublist hgone)
            (fun id hid => hlisteners ▸ hgone.subset hid) .closed
      _ = w.carryOut t (w.effect t (.entry e)) := by
          rw [delivered_eq hc]
          exact carryOut_andThen w t rfl
  | lagged n => exact (carryOut_nothing hc t).symm
  | ended =>
    by_cases ht : w.hub.topics.contains t = true
    · rw [effect, if_pos ht]
      exact closeTopic_eq hc ht
    · rw [effect, if_neg ht, carryOut_nothing hc]
      exact if_neg ht

end World

end EventFanout
