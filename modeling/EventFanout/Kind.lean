/-
EventFanout.Kind — what a client can subscribe to.

The kind of a subscription decides the topic it listens to and whether it takes
criteria. Log subscriptions and transaction subscriptions share one topic.
-/
import EventFanout.Event

namespace EventFanout

inductive Kind where
  /-- Logs of executed transactions. -/
  | logs
  /-- Headers of committed blocks. -/
  | newHeads
  /-- Hashes of executed transactions. -/
  | pendingTransactions
  deriving DecidableEq, Repr, Inhabited

namespace Kind

def all : List Kind := [.logs, .newHeads, .pendingTransactions]

def name : Kind → String
  | .logs => "logs"
  | .newHeads => "newHeads"
  | .pendingTransactions => "newPendingTransactions"

def read? (s : String) : Option Kind := all.find? (·.name = s)

def topic : Kind → Topic
  | .newHeads => headerTopic
  | .logs | .pendingTransactions => transactionTopic

def acceptsCriteria : Kind → Bool
  | .logs => true
  | _ => false

/-- Whether the kind needs the data of a full node, which light mode does not have. -/
def requiresFullNode : Kind → Bool
  | .logs => true
  | _ => false

def toJson (k : Kind) : Json := .text k.name

/-- Decodes a kind: its name, or an object with that one key and no value. -/
def ofJson : Json → Decoded Kind
  | .text s | .object [(s, .null)] =>
    match read? s with
    | some k => .ok k
    | none => .error .shape
  | _ => .error .shape

/-- The names of the kinds differ, and each is read as its kind. -/
@[simp] theorem read?_name (k : Kind) : read? k.name = some k := by cases k <;> decide

end Kind

end EventFanout
