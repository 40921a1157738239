/-
EventFanout.Proofs.Dispatch.FanOut — what giving an event out does, for any mixture of listeners.

Some listeners of a topic are deserted: their client has given its receiver up. The others are
attended, and the event may be something to tell them, be of no interest to them, or be unreadable
for them. `GivenOut` says of all tables what becomes of them when an event is given out: the
deserted go, whatever the event is, and the topic is released if all listeners were deserted; an
attended listener stays and gets the one notification that the event is to it, if it is one; nobody
else is touched.

Main statement: `givenOut_of_run`, for every run, every topic registered after it, and every event.
-/
import EventFanout.Proofs.Dispatch.Effect
import EventFanout.Proofs.Lifecycle.Stages

namespace EventFanout

/-! ## What an event is to a listener -/

def Subscription.isTold (s : Subscription) (p : Payload) : Bool :=
  match s.notification p with
  | .ok (some _) => true
  | _ => false

def Subscription.isUnreadable (s : Subscription) (p : Payload) : Bool :=
  match s.notification p with
  | .error _ => true
  | _ => false

/-- A line with what there is to tell appended to its buffer. -/
def Line.told (l : Line) : Except EventError (Option Notification) → Line
  | .ok (some n) => { l with buffer := l.buffer.push n }
  | _ => l

namespace World

variable {w w' : World} {t : Topic} {s : Subscription} {p : Payload} {l : Line}

def attended (w : World) (t : Topic) : List Subscription :=
  (w.hub.listeners t).filter fun s => w.listens s.id

def deserted (w : World) (t : Topic) : List Subscription :=
  (w.hub.listeners t).filter fun s => !w.listens s.id

def AllDeserted (w : World) (t : Topic) : Prop :=
  ∀ s ∈ w.hub.listeners t, w.listens s.id = false

instance (w : World) (t : Topic) : Decidable (w.AllDeserted t) :=
  inferInstanceAs (Decidable (∀ s ∈ w.hub.listeners t, w.listens s.id = false))

/-- The event of a payload has been given to the listeners of a topic. -/
structure GivenOut (w : World) (t : Topic) (p : Payload) (w' : World) : Prop where
  /-- The deserted listeners are removed, and nobody else. -/
  index : w'.hub.index.entries = w.hub.index.entries.filter fun e => e.2 ∉ w.deserted t
  closed : ∀ s ∈ w.deserted t,
    w'.lines.get? s.id = (w.lines.get? s.id).map fun l => l.close .closed
  /-- An attended listener gets the notification that the event is to it, and only that. -/
  told : ∀ s ∈ w.attended t,
    w'.lines.get? s.id = (w.lines.get? s.id).map fun l => l.told (s.notification p)
  elsewhere : ∀ id, id ∉ (w.hub.listeners t).map Subscription.id →
    w'.lines.get? id = w.lines.get? id
  topics : w'.hub.topics =
    if w.AllDeserted t then w.hub.topics.erase t
    else w.hub.topics.update t fun r => { r with subscribers := (w.attended t).length }
  view : w'.hub.view = w'.hub.topics
  feeds : w'.hub.feeds = if w.AllDeserted t then w.hub.feeds.erase t else w.hub.feeds
  /-- The topic is given up on the bus just when all its listeners were deserted. -/
  bus : w'.bus =
    if w.AllDeserted t then ((w.bus.dropped (w.hub.feeds.get? t)).unsubscribe t).2 else w.bus
  ledger : w'.hub.ledger = w.hub.ledger ++ if w.AllDeserted t then [.released t] else []
  metrics : w'.hub.metrics = { w.hub.metrics with
    eventsReceived := w.hub.metrics.eventsReceived + 1
    notificationsDelivered := w.hub.metrics.notificationsDelivered +
      .ofNat ((w.attended t).countP fun s => s.isTold p)
    transientErrors := w.hub.metrics.transientErrors +
      .ofNat ((w.attended t).countP fun s => s.isUnreadable p)
    uninstalls := w.hub.metrics.uninstalls + .ofNat (w.deserted t).length
    topicsReleased := w.hub.metrics.topicsReleased + if w.AllDeserted t then 1 else 0 }
  /-- Nothing else is changed. -/
  rest : w' = { w with
    bus := w'.bus
    lines := w'.lines
    hub := { w.hub with
      index := w'.hub.index
      topics := w'.hub.topics
      view := w'.hub.view
      feeds := w'.hub.feeds
      ledger := w'.hub.ledger
      metrics := w'.hub.metrics } }

/-! ## Outcomes -/

/-- Every listener of a topic has a line that carries its notifications. -/
def Lined (w : World) (t : Topic) : Prop :=
  ∀ s ∈ w.hub.listeners t, ∃ l, w.lines.get? s.id = some l ∧ l.kind = s.kind

theorem listens_eq (hl : w.lines.get? s.id = some l) : w.listens s.id = l.receiver.isSome := by
  cases h : l.receiver <;> simp [listens, receiver?, hl, h]

theorem outcome_of_deserted (hl : w.lines.get? s.id = some l) (h : w.listens s.id = false) :
    outcome w.lines p s = .gone := by
  rw [listens_eq hl] at h
  simp [outcome, hl, Line.isListening, h]

theorem outcome_of_attended (hl : w.lines.get? s.id = some l) (hk : l.kind = s.kind)
    (h : w.listens s.id = true) : outcome w.lines p s =
      match s.notification p with
      | .error _ => .failed
      | .ok none => .skipped
      | .ok (some n) => .delivered { l with buffer := l.buffer.push n } := by
  rw [listens_eq hl] at h
  simp only [outcome, hl, Line.isListening, h, Bool.not_true, Bool.false_eq_true, if_false]
  cases hs : s.notification p with
  | error e => rfl
  | ok o =>
    cases o with
    | none => rfl
    | some n =>
      have hkind : n.kind = l.kind := (Subscription.kind_of_notification hs).trans hk.symm
      simp only [Line.send, hkind, if_true, Line.isListening, h]

/-- What an event comes to for a listener, by whether its client listens and what it is to it. -/
theorem outcome_sorts (hw : w.Lined t) (p : Payload) (hs : s ∈ w.hub.listeners t) :
    (outcome w.lines p s).isGone = !w.listens s.id ∧
    (outcome w.lines p s).isDelivered = (s.isTold p && w.listens s.id) ∧
    (outcome w.lines p s).isFailed = (s.isUnreadable p && w.listens s.id) := by
  obtain ⟨l, hl, hk⟩ := hw s hs
  cases h : w.listens s.id with
  | false =>
    rw [outcome_of_deserted hl h, Bool.and_false, Bool.and_false]
    exact ⟨rfl, rfl, rfl⟩
  | true =>
    rw [outcome_of_attended hl hk h, Subscription.isTold, Subscription.isUnreadable]
    cases s.notification p with
    | error e => exact ⟨rfl, rfl, rfl⟩
    | ok o => cases o <;> exact ⟨rfl, rfl, rfl⟩

/-- Those who turn out to be gone are the deserted. -/
theorem goneFrom_eq (hw : w.Lined t) (p : Payload) :
    w.goneFrom t p = (w.deserted t).map Subscription.id := by
  rw [goneFrom, outcomes, List.filter_map, List.map_map, deserted]
  refine congrArg (List.map _) (List.filter_congr fun s hs => ?_)
  exact (outcome_sorts hw p hs).1

theorem countP_outcomes (test : Outcome → Bool) (told : Subscription → Bool)
    (h : ∀ s ∈ w.hub.listeners t, test (outcome w.lines p s) = (told s && w.listens s.id)) :
    (w.outcomes t p).countP (fun r => test r.2) = (w.attended t).countP told := by
  rw [outcomes, List.countP_map, attended, List.countP_filter]
  exact List.countP_congr fun s hs => by simp [h s hs]

/-! ## The tables -/

theorem mem_deserted : s ∈ w.deserted t ↔ s ∈ w.hub.listeners t ∧ w.listens s.id = false := by
  rw [deserted, List.mem_filter, Bool.not_eq_true']

theorem mem_attended : s ∈ w.attended t ↔ s ∈ w.hub.listeners t ∧ w.listens s.id = true := by
  rw [attended, List.mem_filter]

theorem length_listeners (w : World) (t : Topic) :
    (w.hub.listeners t).length = (w.attended t).length + (w.deserted t).length := by
  rw [attended, deserted, ← List.countP_eq_length_filter, ← List.countP_eq_length_filter,
    List.length_eq_countP_add_countP fun s => w.listens s.id]
  simp

/-- The last listener goes with the deserted just where all are deserted. -/
theorem allDeserted_iff (hn : w.hub.listeners t ≠ []) : w.AllDeserted t ↔
    (w.deserted t).map Subscription.id ≠ [] ∧
      (w.hub.listeners t).length ≤ ((w.deserted t).map Subscription.id).length := by
  have hall : w.AllDeserted t ↔ w.attended t = [] := by
    simp [AllDeserted, attended, List.filter_eq_nil_iff]
  have hlen := length_listeners w t
  have hpos := List.length_pos_iff.mpr hn
  rw [hall, ← List.length_eq_zero_iff, ← List.length_pos_iff, List.length_map]
  omega

theorem recordAll_uninstalls (m : Metrics) (ids : List SubscriptionId) :
    m.recordAll (ids.map fun _ => .uninstall) =
      { m with uninstalls := m.uninstalls + .ofNat ids.length } := by
  induction ids generalizing m with
  | nil => simp [Metrics.recordAll]
  | cons id rest ih =>
    have hone : m.recordAll ((id :: rest).map fun _ => .uninstall) =
        (m.record .uninstall).recordAll (rest.map fun _ => .uninstall) := rfl
    rw [hone, ih, List.length_cons, UInt64.ofNat_add]
    simp only [Metrics.record, UInt64.add_assoc, UInt64.add_comm 1]
    rfl

/-- What becomes of the registration when an event is given out, and what is counted. -/
theorem effect_entry (hw : w.Lined t) (hn : w.hub.listeners t ≠ []) (e : Event) :
    (w.effect t (.entry e)).fate = (if w.AllDeserted t then .released else .kept) ∧
    (w.effect t (.entry e)).tallies =
      [.event,
        .transientErrors (.ofNat ((w.attended t).countP fun s => s.isUnreadable e.payload)),
        .delivered (.ofNat ((w.attended t).countP fun s => s.isTold e.payload))] ++
      (((w.deserted t).map Subscription.id).map (fun _ => .uninstall) ++
        if w.AllDeserted t then [.topicReleased] else []) := by
  have htold := countP_outcomes (p := e.payload) Outcome.isDelivered (·.isTold e.payload)
    fun s hs => (outcome_sorts hw e.payload hs).2.1
  have hunreadable := countP_outcomes (p := e.payload) Outcome.isFailed (·.isUnreadable e.payload)
    fun s hs => (outcome_sorts hw e.payload hs).2.2
  have hlast : ((w.goneFrom t e.payload) ≠ [] ∧
      (w.hub.listeners t).length ≤ (w.goneFrom t e.payload).length) = w.AllDeserted t := by
    rw [eq_iff_iff, goneFrom_eq hw, allDeserted_iff hn]
  constructor
  · simp only [effect, Effect.andThen, Effect.removal, hlast]
  · simp only [effect, Effect.andThen, Effect.delivery, Effect.removal, hlast, htold, hunreadable]
    rw [goneFrom_eq hw]

theorem recordAll_effect (hw : w.Lined t) (hn : w.hub.listeners t ≠ []) (m : Metrics) (e : Event) :
    m.recordAll (w.effect t (.entry e)).tallies = { m with
      eventsReceived := m.eventsReceived + 1
      notificationsDelivered := m.notificationsDelivered +
        .ofNat ((w.attended t).countP fun s => s.isTold e.payload)
      transientErrors := m.transientErrors +
        .ofNat ((w.attended t).countP fun s => s.isUnreadable e.payload)
      uninstalls := m.uninstalls + .ofNat (w.deserted t).length
      topicsReleased := m.topicsReleased + if w.AllDeserted t then 1 else 0 } := by
  rw [(effect_entry hw hn e).2, Metrics.recordAll_append, Metrics.recordAll_append,
    recordAll_uninstalls, List.length_map]
  by_cases ha : w.AllDeserted t
  · simp only [if_pos ha]
    rfl
  · simp only [if_neg ha, UInt64.add_zero]
    rfl

/-! ## The lines -/

/-- In the index an identity is that of a deserted listener only where the subscription is one. -/
theorem mem_deserted_ids (hc : w.hub.Consistent) (hs : s ∈ w.hub.index.values) :
    s.id ∈ (w.deserted t).map Subscription.id ↔ s ∈ w.deserted t := by
  refine ⟨fun h => ?_, List.mem_map_of_mem⟩
  obtain ⟨s', hs', hid⟩ := List.mem_map.mp h
  have hv := (Hub.mem_listeners.mp (mem_deserted.mp hs').1).1
  exact hc.value_unique hv hs hid ▸ hs'

theorem closed_of_deserted (hc : w.hub.Consistent) (hw : w.Lined t) (e : Event)
    (hs : s ∈ w.deserted t) : (w.dispatch t (.entry e)).lines.get? s.id =
      (w.lines.get? s.id).map fun l => l.close .closed := by
  obtain ⟨hlistener, hgone⟩ := mem_deserted.mp hs
  obtain ⟨l, hl, -⟩ := hw s hlistener
  have hid : s.id ∈ w.goneFrom t e.payload := by
    rw [goneFrom_eq hw]
    exact List.mem_map_of_mem hs
  have hids : s.id ∈ w.hub.ids := by
    rw [← hc.values_ids]
    exact List.mem_map_of_mem (Hub.mem_listeners.mp hlistener).1
  have hlines := (fanOut_removal hc.ids_once t e.payload).lines s.id
  rw [if_pos ⟨hid, delivered_ids w t e.payload ▸ hids⟩,
    delivered_lines_of_mem hc e.payload hlistener, outcome_of_deserted hl hgone] at hlines
  exact hlines

theorem told_of_attended (hc : w.hub.Consistent) (hw : w.Lined t) (e : Event)
    (hs : s ∈ w.attended t) : (w.dispatch t (.entry e)).lines.get? s.id =
      (w.lines.get? s.id).map fun l => l.told (s.notification e.payload) := by
  obtain ⟨hlistener, hlistens⟩ := mem_attended.mp hs
  obtain ⟨l, hl, hk⟩ := hw s hlistener
  have hid : s.id ∉ w.goneFrom t e.payload := by
    rw [goneFrom_eq hw, mem_deserted_ids hc (Hub.mem_listeners.mp hlistener).1, mem_deserted,
      hlistens]
    simp
  have hlines := (fanOut_removal hc.ids_once t e.payload).lines s.id
  rw [if_neg fun h => hid h.1, delivered_lines_of_mem hc e.payload hlistener,
    outcome_of_attended hl hk hlistens] at hlines
  refine hlines.trans ?_
  rw [hl]
  cases s.notification e.payload with
  | error e => rfl
  | ok o => cases o <;> rfl

/-- The line of somebody who does not listen to the topic is not touched. -/
theorem lines_elsewhere (hc : w.hub.Consistent) (e : Event) {id : SubscriptionId}
    (hid : id ∉ (w.hub.listeners t).map Subscription.id) :
    (w.dispatch t (.entry e)).lines.get? id = w.lines.get? id := by
  have hlines := (fanOut_removal hc.ids_once t e.payload).lines id
  rw [if_neg fun h => not_mem_goneFrom e.payload hid h.1,
    delivered_lines_of_not_mem e.payload hid] at hlines
  exact hlines

/-! ## The whole -/

/-- Giving an event out where every listener has a line comes to what `GivenOut` says. -/
theorem givenOut_of_lined (hs : w.hub.Sound) (hw : w.Lined t)
    (ht : w.hub.topics.contains t = true) (e : Event) :
    GivenOut w t e.payload (w.dispatch t (.entry e)) := by
  have hc := hs.consistent
  have hr := hs.running ht
  have hn : w.hub.listeners t ≠ [] := by
    obtain ⟨s, hv, hst⟩ := (hc.registered_iff t).mp ht
    exact List.ne_nil_of_mem (Hub.mem_listeners.mpr ⟨hv, hst⟩)
  have heq := dispatch_eq hs hr t (.entry e)
  have hgone : (w.effect t (.entry e)).gone = (w.deserted t).map Subscription.id :=
    goneFrom_eq hw e.payload
  have hfate := (effect_entry hw hn e).1
  exact {
    index := by
      rw [heq]
      refine List.filter_congr fun x hx => ?_
      have hid : x.1.2 = x.2.id := congrArg Prod.snd (hc.filed x.1 x.2 hx)
      rw [hgone, hid, decide_eq_decide, mem_deserted_ids hc (Hub.mem_values.mpr ⟨x.1, hx⟩)]
    closed := fun s hs => closed_of_deserted hc hw e hs
    told := fun s hs => told_of_attended hc hw e hs
    elsewhere := fun id hid => lines_elsewhere hc e hid
    topics := by
      rw [heq]
      by_cases ha : w.AllDeserted t
      · simp [carryOut, Effect.topics, hfate, ha]
      · obtain ⟨r, hreg⟩ := Option.isSome_iff_exists.mp ht
        have hleft : r.subscribers - (w.deserted t).length = (w.attended t).length := by
          rw [hc.subscribers_eq t r hreg, length_listeners, Nat.add_sub_cancel]
        simp only [carryOut, Effect.topics, hfate, if_neg ha, hgone, List.length_map]
        rw [Table.update_eq_set _ hreg, Table.update_eq_set _ hreg, hleft]
    view := by rw [heq]; rfl
    feeds := by
      rw [heq]
      by_cases ha : w.AllDeserted t <;> simp [carryOut, Effect.feeds, hfate, ha]
    bus := by
      rw [heq]
      by_cases ha : w.AllDeserted t <;> simp [carryOut, Effect.bus, hfate, ha]
    ledger := by
      rw [heq]
      by_cases ha : w.AllDeserted t <;> simp [carryOut, Effect.entries, hfate, ha]
    metrics := by
      rw [heq]
      exact recordAll_effect hw hn _ e
    rest := by rw [heq]; rfl }

/-- Whoever listens to the topic afterwards listened to it before, and has its receiver still. -/
theorem GivenOut.listens (h : GivenOut w t p w') (hs : s ∈ w'.hub.listeners t) :
    w'.listens s.id = true := by
  obtain ⟨hv, hst⟩ := Hub.mem_listeners.mp hs
  obtain ⟨key, hkey⟩ := Hub.mem_values.mp hv
  rw [h.index, List.mem_filter, decide_eq_true_eq] at hkey
  have hlistener : s ∈ w.hub.listeners t :=
    Hub.mem_listeners.mpr ⟨Hub.mem_values.mpr ⟨key, hkey.1⟩, hst⟩
  have hlistens : w.listens s.id = true := by
    by_contra hno
    exact hkey.2 (mem_deserted.mpr ⟨hlistener, Bool.not_eq_true _ ▸ hno⟩)
  have htold := h.told s (mem_attended.mpr ⟨hlistener, hlistens⟩)
  cases hl : w.lines.get? s.id with
  | none => simp [World.listens, receiver?, hl] at hlistens
  | some l =>
    rw [hl, Option.map_some] at htold
    rw [listens_eq hl] at hlistens
    rw [listens_eq htold, ← hlistens]
    unfold Line.told
    split <;> rfl

theorem lined_of_allFit (hw : w.AllFit) (t : Topic) : w.Lined t := by
  intro s hs
  obtain ⟨l, hl, hf⟩ := hw s .indexed (by simp) (Hub.mem_listeners.mp hs).1
  exact ⟨l, hl, hf.kind⟩

/--
**What giving an event out comes to**, after any run, for any registered topic and any event, and
whatever has become of the bus since. Afterwards no deserted subscription is left on the topic.
-/
theorem givenOut_of_run {bus : Bus} {config : Config} {governor : Governor} {run : List Action}
    {current : Bus} {w : World}
    (hw : w = { (start bus config governor).after run with bus := current }) {t : Topic}
    (ht : w.hub.topics.contains t = true) (e : Event) :
    GivenOut w t e.payload (w.dispatch t (.entry e)) ∧
      ∀ s ∈ (w.dispatch t (.entry e)).hub.listeners t,
        (w.dispatch t (.entry e)).listens s.id = true := by
  have hroster := after_roster (start_roster bus config governor) run
  have hfit := after_allFit (start_roster bus config governor)
    (start_allFit bus config governor) run
  have hs : w.hub.Sound := hw ▸ hroster.sound
  have hlined : w.Lined t := by
    rw [hw]
    exact lined_of_allFit (w := (start bus config governor).after run) hfit t
  have hgiven := givenOut_of_lined hs hlined ht e
  exact ⟨hgiven, fun s hs => hgiven.listens hs⟩

/-- Three listen to the transactions: one is deserted, one is told the hash, and one is not
concerned, as there is no log. -/
theorem givenOut_of_run_mixed :
    let run : List Action := [
      .makeWithin .logs none, .submit (.issued 0), .turn .install,
      .makeWithin .pendingTransactions none, .submit (.issued 1), .turn .install,
      .makeWithin .logs none, .submit (.issued 2), .turn .install,
      .dropReceiver (.issued 0)]
    let w := (start (Bus.sized 4) {} .absent).after run
    let e : Event := ⟨transactionTopic, .transaction {}⟩
    w.hub.topics.contains transactionTopic = true ∧
      (w.deserted transactionTopic).map Subscription.id = [.issued 0] ∧
      (w.attended transactionTopic).map (fun s => (s.id, s.isTold e.payload)) =
        [(.issued 1, true), (.issued 2, false)] ∧
      ¬ w.AllDeserted transactionTopic ∧
      GivenOut w transactionTopic e.payload (w.dispatch transactionTopic (.entry e)) := by
  intro run w e
  have hw : w = { (start (Bus.sized 4) {} .absent).after run with bus := w.bus } := rfl
  have ht : w.hub.topics.contains transactionTopic = true := by decide
  exact ⟨ht, by decide, by decide, by decide, (givenOut_of_run hw ht e).1⟩

end World

end EventFanout
