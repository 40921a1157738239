/-
EventFanout.Subscription — what a client asked for, and what an event means to it.

A subscription is made once, with its criteria checked (`make`), and never changes.
`notification` turns the payload of an event into the notification of the subscription's
kind: nothing where the event is of no interest, an error where it cannot be read.
-/
import EventFanout.Criteria.Basic

namespace EventFanout

inductive Notification where
  /-- The logs of one transaction that the criteria want. -/
  | logs (logs : List Log)
  /-- A committed header. -/
  | header (header : Header)
  /-- Hashes of executed transactions. -/
  | hashes (hashes : List Hash)
  deriving DecidableEq

namespace Notification

def name : Notification → String
  | .logs _ => "logs"
  | .header _ => "header"
  | .hashes _ => "hashes"

/-- The kind of subscription that gets notifications of this form. -/
def kind : Notification → Kind
  | .logs _ => .logs
  | .header _ => .newHeads
  | .hashes _ => .pendingTransactions

def toJson : Notification → Json
  | .logs ls => .ofList Log.toJson ls
  | .header h => h.toJson
  | .hashes hs => .ofList Word.toJson hs

end Notification

/-- A subscription, as the hub holds it. -/
structure Subscription where
  id : SubscriptionId
  kind : Kind
  topic : Topic
  criteria : Option Criteria
  deriving DecidableEq

namespace Subscription

/--
The criteria that a subscription of a kind keeps. A kind without criteria takes empty ones and keeps
none; for the others they have to be valid with any number of emitters.
-/
def admitCriteria (kind : Kind) (criteria : Option Criteria) : Except FilterError (Option Criteria) :=
  match criteria with
  | none => .ok none
  | some c =>
    if kind.acceptsCriteria then (c.validate maxTopicSlots (UInt64.size - 1)).map fun _ => some c
    else if c.isEmpty then .ok none
    else .error (.criteriaNotAllowed kind)

/-- Makes a subscription on a topic, which must not be blank. -/
def make (id : SubscriptionId) (kind : Kind) (criteria : Option Criteria) (topic : Topic) :
    Except FilterError Subscription := do
  let criteria ← admitCriteria kind criteria
  if Text.isBlank topic then .error .emptyTopic
  else .ok { id, kind, topic, criteria }

/-- The transaction in a payload: typed, or decoded from raw JSON. -/
def transaction (s : Subscription) : Payload → Except EventError Transaction
  | .transaction t => .ok t
  | .raw value => (Transaction.ofJson value).mapError .decode
  | p => .error (.payloadMismatch s.kind p.name)

/-- The header in a payload: typed, or decoded from raw JSON. -/
def header (s : Subscription) : Payload → Except EventError Header
  | .header h => .ok h
  | .raw value => (Header.ofJson value).mapError .decode
  | p => .error (.payloadMismatch s.kind p.name)

/-- The logs of a transaction that a subscription wants; without criteria all of them. -/
def wanted (s : Subscription) (t : Transaction) : List Log :=
  match s.criteria with
  | some c => c.filterLogs t.logs
  | none => t.logs

/-- The notification that a payload is to a subscription, if it is of interest. -/
def notification (s : Subscription) (p : Payload) : Except EventError (Option Notification) :=
  match s.kind with
  | .logs => do
    let logs := s.wanted (← s.transaction p)
    return if logs.isEmpty then none else some (.logs logs)
  | .pendingTransactions => do return some (.hashes [(← s.transaction p).hash])
  | .newHeads => do return some (.header (← s.header p))

end Subscription

end EventFanout
