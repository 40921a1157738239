/-
EventFanout.Polling.Basic — filters that are polled instead of listened to.

A polling filter is a subscription whose receiver belongs to a task of the filter:
the task drains what is delivered into the filter's changes, and a poll takes the
changes out. `Polling` is the registry of the filters and the state of their tasks.
-/
import EventFanout.Subscription
import EventFanout.Table

namespace EventFanout

/-- What has accumulated in a filter since it was polled last. -/
inductive Changes where
  | logs (logs : List Log)
  /-- Hashes of blocks or of transactions. -/
  | hashes (hashes : List Hash)
  deriving DecidableEq

namespace Changes

def empty : Kind → Changes
  | .logs => .logs []
  | .newHeads | .pendingTransactions => .hashes []

/-- Adds what a notification tells; one of another form is ignored. -/
def append : Changes → Notification → Changes
  | .logs ls, .logs new => .logs (ls ++ new)
  | .hashes hs, .header h => .hashes (hs ++ [h.hash])
  | .hashes hs, .hashes new => .hashes (hs ++ new)
  | c, _ => c

def size : Changes → Nat
  | .logs ls => ls.length
  | .hashes hs => hs.length

def toJson : Changes → Json
  | .logs ls => .ofList Log.toJson ls
  | .hashes hs => .ofList Word.toJson hs

end Changes

inductive FilterRequest where
  | logs (criteria : Criteria)
  | blocks
  | pendingTransactions
  deriving DecidableEq

namespace FilterRequest

/-- The kind of subscription that serves a request. -/
def kind : FilterRequest → Kind
  | .logs _ => .logs
  | .blocks => .newHeads
  | .pendingTransactions => .pendingTransactions

def criteria : FilterRequest → Option Criteria
  | .logs c => some c
  | _ => none

end FilterRequest

/-- A registered polling filter; times are in milliseconds. -/
structure Filter where
  request : FilterRequest
  created : Nat
  lastPoll : Nat
  changes : Changes
  deriving DecidableEq

/-- A task that drains the line of a filter. -/
structure Drain where
  id : SubscriptionId
  /-- The task has been told to stop and gives its receiver up when it gets to it. -/
  cancelled : Bool := false
  deriving DecidableEq, Repr

def Drain.cancel (d : Drain) : Drain := { d with cancelled := true }

def Filter.collect (f : Filter) (n : Notification) : Filter :=
  { f with changes := f.changes.append n }

/-- A filter whose subscription has been handed in but not been installed yet. -/
structure Creation where
  id : SubscriptionId
  request : FilterRequest
  deriving DecidableEq

/-- The registry of polling filters, and their tasks. -/
structure Polling where
  /-- Somebody holds the registry. -/
  live : Bool := false
  filters : Table SubscriptionId Filter := {}
  /-- The slots taken by filters and by creations under way. -/
  slots : UInt64 := 0
  creations : List Creation := []
  drains : List Drain := []
  /-- When the next sweep is due. -/
  sweepDue : Nat := 0
  deriving Inhabited

end EventFanout
