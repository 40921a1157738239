/-
EventFanout.Event — the records that travel over the bus.

A payload is a header, a transaction, or raw JSON that its producer could not
type and that a consumer decodes on demand.
-/
import EventFanout.Chain.Header
import EventFanout.Chain.Log

namespace EventFanout

/-- The name that an event is routed by. -/
abbrev Topic := String

/-- The topic with one event for every committed header. -/
def headerTopic : Topic := "tm.event='NewBlockHeader'"

/-- The topic with one event for every executed transaction. -/
def transactionTopic : Topic := "tm.event='Tx' AND message.module='evm'"

inductive Payload where
  | header (header : Header)
  | transaction (transaction : Transaction)
  | raw (value : Json)
  deriving Inhabited

/-- A record published on the bus. -/
structure Event where
  topic : Topic
  payload : Payload
  deriving Inhabited

namespace Payload

def name : Payload → String
  | .header _ => "NewBlockHeader"
  | .transaction _ => "Tx"
  | .raw _ => "Raw"

/-- The topic that a payload goes to by default. -/
def topic : Payload → Topic
  | .header _ => headerTopic
  | .transaction _ | .raw _ => transactionTopic

/-- A payload as JSON: one member, named for its form. -/
def toJson : Payload → Json
  | .header h => .object [("NewBlockHeader", h.toJson)]
  | .transaction t => .object [("Tx", t.toJson)]
  | .raw value => .object [("Raw", value)]

/-- Decodes a payload: an object with exactly one member. -/
def ofJson : Json → Decoded Payload
  | .object [(name, value)] =>
    if name = "NewBlockHeader" then (Header.ofJson value).map .header
    else if name = "Tx" then (Transaction.ofJson value).map .transaction
    else if name = "Raw" then .ok (.raw value)
    else .error .shape
  | _ => .error .shape

end Payload

namespace Event

def toJson (e : Event) : Json := .object [("data", e.payload.toJson), ("topic", .text e.topic)]

def ofJson : Json → Decoded Event
  | .object m => do
    let payload ← Json.Members.field? m "data" Payload.ofJson
    let topic ← Json.Members.field? m "topic" Json.toText
    return { topic := ← Json.required topic, payload := ← Json.required payload }
  | .array items =>
    Json.Items.finish
      (do return { topic := ← Json.Items.next Json.toText
                   payload := ← Json.Items.next Payload.ofJson })
      items
  | _ => .error .shape

end Event

end EventFanout
