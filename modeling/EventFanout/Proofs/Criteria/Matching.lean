/-
EventFanout.Proofs.Criteria.Matching — what criteria ask of a log, and what empty ones do.

Criteria look at a log bound by bound, and at its topics position by position. Said at once, they
want a log whose height is between the heights of the bounds, whose emitter is listed if any are,
and that has a topic for every position, one of the values of the position if it has any
(`matchesLog_iff`).

So a position that accepts everything is not nothing: it asks for a topic. Criteria that list
nothing but such positions pass for empty, and still turn away the logs with fewer topics. Main
statement: `notification_of_empty`, what a subscription with empty criteria hears of an event beside
one without criteria. The two agree just when there is no position at all.
-/
import EventFanout.Proofs.Admission.Making

namespace EventFanout

namespace Criteria

/-! ## What is asked of a log -/

theorem reaches_iff {bound : Option BlockSpec} {n : UInt64} :
    reaches bound n = true ↔ ∀ h ∈ bound.bind BlockSpec.height, h ≤ n := by
  unfold reaches
  cases bound.bind BlockSpec.height <;> simp

theorem within_iff {bound : Option BlockSpec} {n : UInt64} :
    within bound n = true ↔ ∀ h ∈ bound.bind BlockSpec.height, n ≤ h := by
  unfold within
  cases bound.bind BlockSpec.height <;> simp

theorem acceptsAddress_iff {accepted : List Address} {a : Address} :
    acceptsAddress accepted a = true ↔ accepted = [] ∨ a ∈ accepted := by
  simp [acceptsAddress]

/-- A topic is accepted in a position. -/
def Accepts (values : List Hash) (topic : Option Hash) : Prop :=
  values = [] ∨ ∃ h ∈ topic, h ∈ values

instance (values : List Hash) : (topic : Option Hash) → Decidable (Accepts values topic)
  | none => decidable_of_iff (values = []) (by simp [Accepts])
  | some h => decidable_of_iff (values = [] ∨ h ∈ values) (by simp [Accepts])

theorem acceptsTopics_cons (slot : List Hash) (slots : List (List Hash)) (topic : Hash)
    (topics : List Hash) : acceptsTopics (slot :: slots) (topic :: topics) =
      ((slot.isEmpty || slot.contains topic) && acceptsTopics slots topics) := by
  simp only [acceptsTopics, List.length_cons, Nat.add_le_add_iff_right, List.zip_cons_cons,
    List.all_cons]
  exact Bool.and_left_comm _ _ _

theorem acceptsTopics_iff {slots : List (List Hash)} {topics : List Hash} :
    acceptsTopics slots topics = true ↔
      slots.length ≤ topics.length ∧ ∀ p < slots.length, Accepts (slots.getD p []) topics[p]? := by
  induction slots generalizing topics with
  | nil => simp [acceptsTopics]
  | cons slot rest ih =>
    cases topics with
    | nil => simp [acceptsTopics]
    | cons topic topics =>
      have hfirst : (slot.isEmpty || slot.contains topic) = true ↔ Accepts slot (some topic) := by
        simp [Accepts]
      rw [acceptsTopics_cons, Bool.and_eq_true, hfirst, ih, List.length_cons, List.length_cons,
        Nat.add_le_add_iff_right, Nat.forall_lt_succ_left]
      exact and_left_comm

/-- What criteria ask of a log. -/
theorem matchesLog_iff {c : Criteria} {log : Log} : c.matchesLog log = true ↔
    (∀ h ∈ c.fromBlock.bind BlockSpec.height, h ≤ log.blockNumber) ∧
    (∀ h ∈ c.toBlock.bind BlockSpec.height, log.blockNumber ≤ h) ∧
    (c.addresses = [] ∨ log.address ∈ c.addresses) ∧
    c.topics.length ≤ log.topics.length ∧
    ∀ p < c.topics.length, Accepts (c.topics.getD p []) log.topics[p]? := by
  simp only [matchesLog, Bool.and_eq_true, reaches_iff, within_iff, acceptsAddress_iff,
    acceptsTopics_iff, and_assoc]

/-! ## Empty criteria -/

theorem isEmpty_iff {c : Criteria} : c.isEmpty = true ↔
    c.fromBlock = none ∧ c.toBlock = none ∧ c.addresses = [] ∧ ∀ slot ∈ c.topics, slot = [] := by
  simp [isEmpty, and_assoc]

/-- All that empty criteria ask of a log is a topic for every position. -/
theorem matchesLog_of_empty {c : Criteria} (h : c.isEmpty = true) (log : Log) :
    c.matchesLog log = decide (c.topics.length ≤ log.topics.length) := by
  obtain ⟨hlower, hupper, hemitters, hslots⟩ := isEmpty_iff.mp h
  have hfree : ∀ p < c.topics.length, Accepts (c.topics.getD p []) log.topics[p]? := by
    intro p hp
    rw [List.getD_eq_getElem?_getD, List.getElem?_eq_getElem hp, Option.getD_some]
    exact .inl (hslots _ (List.getElem_mem hp))
  rw [Bool.eq_iff_iff, matchesLog_iff, decide_eq_true_iff]
  simp only [hlower, hupper, hemitters, Option.bind_none, Option.not_mem_none, false_implies,
    implies_true, true_or, true_and]
  exact and_iff_left hfree

end Criteria

/-- What is left of a notification to somebody who wants only logs with so many topics: nothing,
where no log is left. -/
def Notification.withTopics (count : Nat) : Notification → Option Notification
  | .logs ls =>
    let left := ls.filter fun l => count ≤ l.topics.length
    if left.isEmpty then none else some (.logs left)
  | n => some n

namespace Subscription

variable {s s₀ : Subscription} {c : Criteria}

/-- What a payload is to a subscription to logs. -/
theorem notification_logs (hk : s.kind = .logs) (p : Payload) :
    s.notification p = (s.transaction p).map fun t =>
      if (s.wanted t).isEmpty then none else some (.logs (s.wanted t)) := by
  simp only [notification, hk]
  cases s.transaction p <;> rfl

theorem wanted_of_empty (hs : s.criteria = some c) (h : c.isEmpty = true) (t : Transaction) :
    s.wanted t = t.logs.filter fun l => c.topics.length ≤ l.topics.length := by
  simp only [wanted, hs, Criteria.filterLogs]
  exact List.filter_congr fun l _ => Criteria.matchesLog_of_empty h l

/-- A subscription to logs keeps the criteria it was made with, empty ones too. -/
theorem criteria_of_make {id : SubscriptionId} {topic : Topic}
    (h : make id .logs (some c) topic = .ok s) : s.criteria = some c := by
  have hadmitted : (c.validate maxTopicSlots (UInt64.size - 1)).map (fun _ => some c) =
      .ok s.criteria := World.admitCriteria_of_make h
  cases hv : c.validate maxTopicSlots (UInt64.size - 1) with
  | error e =>
    rw [hv] at hadmitted
    cases hadmitted
  | ok u =>
    rw [hv] at hadmitted
    exact (Except.ok.inj hadmitted).symm

/-- Subscriptions of one kind read one transaction in a payload. -/
theorem transaction_of_kind (h : s.kind = s₀.kind) (p : Payload) :
    s.transaction p = s₀.transaction p := by
  cases p <;> simp only [transaction, h]

/-- With empty criteria a subscription to logs hears what it would hear without, less the logs
that have no topic for some position. -/
theorem notification_narrowed (hk : s.kind = .logs) (hk₀ : s₀.kind = .logs)
    (hs : s.criteria = some c) (hs₀ : s₀.criteria = none) (h : c.isEmpty = true) (p : Payload) :
    s.notification p =
      (s₀.notification p).map fun o => o.bind (Notification.withTopics c.topics.length) := by
  rw [notification_logs hk, notification_logs hk₀, transaction_of_kind (hk.trans hk₀.symm)]
  cases s₀.transaction p with
  | error e => rfl
  | ok t =>
    have hall : s₀.wanted t = t.logs := by simp only [wanted, hs₀]
    simp only [Except.map, wanted_of_empty hs h, hall]
    cases t.logs with
    | nil => rfl
    | cons l rest => rfl

/-- Without a position, empty criteria change nothing. -/
theorem notification_unchanged (hk : s.kind = .logs) (hk₀ : s₀.kind = .logs)
    (hs : s.criteria = some c) (hs₀ : s₀.criteria = none) (h : c.isEmpty = true)
    (hnone : c.topics = []) (p : Payload) : s.notification p = s₀.notification p := by
  have hwanted : ∀ t, s.wanted t = s₀.wanted t := by
    intro t
    rw [wanted_of_empty hs h, hnone]
    simp [wanted, hs₀]
  rw [notification_logs hk, notification_logs hk₀, transaction_of_kind (hk.trans hk₀.symm)]
  simp only [hwanted]

/-- With a position, they turn away a log that has no topics. -/
theorem notification_of_bare (hk : s.kind = .logs) (hk₀ : s₀.kind = .logs)
    (hs : s.criteria = some c) (hs₀ : s₀.criteria = none) (h : c.isEmpty = true)
    (hsome : c.topics ≠ []) {t : Transaction} {l : Log} (ht : t.logs = [l]) (hl : l.topics = []) :
    s.notification (.transaction t) = .ok none ∧
      s₀.notification (.transaction t) = .ok (some (.logs [l])) := by
  have hnobody : s.wanted t = [] := by
    rw [wanted_of_empty hs h, ht]
    simp [hl, hsome]
  have hall : s₀.wanted t = [l] := by simp only [wanted, hs₀, ht]
  simp [notification_logs hk, notification_logs hk₀, transaction, Except.map, hnobody, hall]

end Subscription

/-! ## Subscriptions with empty criteria -/

namespace Criteria

open Subscription

/--
What empty criteria are to a log and to a subscription: they ask for as many topics as they have
positions, and for nothing else. A subscription to logs made with them hears what one made without
criteria hears, less the logs with fewer topics; it hears the same of every payload just when there
is no position.
-/
theorem notification_of_empty {c : Criteria} (h : c.isEmpty = true) :
    (∀ log : Log, c.matchesLog log = true ↔ c.topics.length ≤ log.topics.length) ∧
    ∀ {id id₀ : SubscriptionId} {topic topic₀ : Topic} {s s₀ : Subscription},
      make id .logs (some c) topic = .ok s → make id₀ .logs none topic₀ = .ok s₀ →
      (∀ p : Payload, s.notification p =
        (s₀.notification p).map fun o => o.bind (Notification.withTopics c.topics.length)) ∧
      ((∀ p : Payload, s.notification p = s₀.notification p) ↔ c.topics = []) := by
  refine ⟨fun log => by rw [matchesLog_of_empty h, decide_eq_true_iff], ?_⟩
  intro id id₀ topic topic₀ s s₀ hs hs₀
  have hk : s.kind = .logs := (World.make_eq hs).2.1
  have hk₀ : s₀.kind = .logs := (World.make_eq hs₀).2.1
  have hkept : s.criteria = some c := criteria_of_make hs
  have hkept₀ : s₀.criteria = none := (Except.ok.inj (World.admitCriteria_of_make hs₀)).symm
  refine ⟨notification_narrowed hk hk₀ hkept hkept₀ h, fun hsame => ?_,
    notification_unchanged hk hk₀ hkept hkept₀ h⟩
  by_contra hsome
  obtain ⟨hnothing, hlog⟩ := notification_of_bare hk hk₀ hkept hkept₀ h hsome
    (t := { logs := [{}] }) rfl rfl
  rw [hsame, hlog] at hnothing
  cases hnothing

/-- Two positions that accept everything, beside no criteria. -/
theorem notification_of_empty_two :
    isEmpty { topics := [[], []] } = true ∧
    make (.issued 0) .logs (some { topics := [[], []] }) "t" =
      .ok ⟨.issued 0, .logs, "t", some { topics := [[], []] }⟩ ∧
    make (.issued 1) .logs none "t" = .ok ⟨.issued 1, .logs, "t", none⟩ ∧
    ∀ p : Payload, notification ⟨.issued 0, .logs, "t", some { topics := [[], []] }⟩ p =
      (notification ⟨.issued 1, .logs, "t", none⟩ p).map
        fun o => o.bind (Notification.withTopics 2) :=
  have hempty : isEmpty { topics := [[], []] } = true := by decide
  have hs : make (.issued 0) .logs (some { topics := [[], []] }) "t" =
    .ok ⟨.issued 0, .logs, "t", some { topics := [[], []] }⟩ := by decide
  have hs₀ : make (.issued 1) .logs none "t" = .ok ⟨.issued 1, .logs, "t", none⟩ := by decide
  ⟨hempty, hs, hs₀, ((notification_of_empty hempty).2 hs hs₀).1⟩

/-- These criteria pass for empty and turn away a log with one topic, of which the subscription
without criteria tells. -/
theorem empty_criteria_refuse :
    isEmpty { topics := [[], []] } = true ∧
    matchesLog { topics := [[], []] } { topics := [.zero] } = false ∧
    notification ⟨.issued 0, .logs, "t", some { topics := [[], []] }⟩
      (.transaction { logs := [{ topics := [.zero] }] }) = .ok none ∧
    notification ⟨.issued 1, .logs, "t", none⟩ (.transaction { logs := [{ topics := [.zero] }] }) =
      .ok (some (.logs [{ topics := [.zero] }])) := by
  decide

end Criteria

end EventFanout
