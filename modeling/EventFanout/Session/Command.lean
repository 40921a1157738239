/-
EventFanout.Session.Command — what a script can ask for, and what it is answered.

A script gives names to what it creates and refers to it by name. Criteria and
events stand in it as JSON, kinds by their name; they are decoded when the command
is carried out (`Request.decode`), so a bad one is an answer like any other.
-/
import EventFanout.Criteria.Wire
import EventFanout.Polling.Calls
import EventFanout.Session.Sparse

namespace EventFanout.Session

abbrev Name := String

inductive Refusal where
  | malformed (fault : Fault)
  | refused (error : FilterError)
  deriving DecidableEq

/-- What a subscription is asked for with. -/
structure Request where
  kind : String
  criteria : Option Json

namespace Request

def readKind (name : String) : Except Refusal Kind :=
  match Kind.read? name with
  | some k => .ok k
  | none => .error (.refused (.unknownKind name))

/-- Criteria, absent ones and `null` being none. -/
def readCriteria : Option Json → Except Refusal (Option Criteria)
  | none | some .null => .ok none
  | some value => ((Criteria.ofJson value).map some).mapError .malformed

def decode (r : Request) : Except Refusal (Kind × Option Criteria) := do
  let kind ← readKind r.kind
  return (kind, ← readCriteria r.criteria)

/-- The polling filter that a request asks for: only logs have criteria, absent ones are empty.
Criteria of the other kinds are ignored, but have to be readable. -/
def filter (r : Request) : Except Refusal FilterRequest := do
  let (kind, criteria) ← r.decode
  return match kind with
    | .logs => .logs (criteria.getD {})
    | .newHeads => .blocks
    | .pendingTransactions => .pendingTransactions

end Request

/-- Where a new subscription gets its topic and its buffer from. -/
inductive Source where
  | topic (topic : Topic) (buffer : Nat)
  | buffer (buffer : Nat)
  /-- The hub sets the buffer and checks its limits. -/
  | hub

inductive Command where
  -- the bus
  | publish (form : Payload.Form) (event : Json) (topic : Option Topic) (times : Nat)
  | publishHeaders (first count : Nat) (topic : Option Topic)
  | busSubscribe (name : Name) (topic : Topic)
  | busUnsubscribe (topic : Topic)
  | busClose
  | busDrop (handle : Name)
  | busInfo (topic : Topic)
  | busReceive (handle : Name) (count : Nat)
  -- the hub
  | subscribe (name : Name) (request : Request)
  | create (name : Name) (request : Request) (source : Source)
  | submit (name : Name)
  | discard (name : Name)
  | askInstalled (name : Name)
  | tryError (name : Name)
  | receive (name : Name) (count : Nat)
  | drop (name : Name)
  | unsubscribe (name : Name)
  | shutdown
  | stopped
  | signal (cancelled : Bool)
  | dropSignal
  | dropHub
  | info
  -- the polling filters
  | newFilter (name : Name) (request : Request)
  | newFilters (requests : List (Name × Request))
  | changes (filter : Name)
  | filterCriteria (filter : Name)
  | filterKind (filter : Name)
  | filterAge (filter : Name)
  | uninstall (filter : Name)
  | sweep
  | dropPolling
  -- the clock
  | advance (milliseconds : Nat)

/-- Why a run of receives stopped before its count was reached. -/
inductive Stop (ε : Type) where
  | pending
  | ended (reason : ε)

inductive Reply where
  | ok
  /-- What the command refers to does not exist. -/
  | absent
  | nothing
  | pending
  | flag (value : Bool)
  | count (n : Nat)
  | malformed (fault : Fault)
  | refused (error : FilterError)
  | ended (error : SubscriptionError)
  | busRefused (error : BusError)
  /-- The readers reached by each event published, equal neighbours merged. -/
  | reached (counts : List Nat)
  | registered (topic : Topic) (registration : UInt64)
  | busInfo (registration : Option UInt64) (receivers capacity : Nat)
  | events (items : List Event) (stop : Option (Stop Unit))
  | notifications (items : List Notification) (stop : Option (Stop SubscriptionError))
  | changes (c : Changes)
  | criteria (c : Option Criteria)
  | kind (k : Kind)
  | info (config : Config)
  | each (replies : List Reply)

def Refusal.reply : Refusal → Reply
  | .malformed fault => .malformed fault
  | .refused error => .refused error

/-- What is visible between two steps of a script. -/
structure Snapshot where
  topicCount : Nat
  published : UInt64
  /-- The counters and the registration calls of the hub, if there is or was one. -/
  counters : Option (Metrics × List (Topic × Nat × Nat))
  /-- Whether the hub runs, its subscriptions, and its topics in order, while it is held. -/
  hub : Option (Bool × Nat × List (Topic × Registration))
  /-- The number of polling filters, while the registry is held. -/
  filters : Option Nat

end EventFanout.Session
