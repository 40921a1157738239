/-
EventFanout.Chain.Log — contract logs, executed transactions, and their JSON forms.
-/
import EventFanout.Chain.Bytes
import EventFanout.Chain.Word

namespace EventFanout

/-- A log that a contract emitted, with the place of its inclusion. -/
structure Log where
  address : Address := .zero
  topics : List Hash := []
  data : Bytes := {}
  blockNumber : UInt64 := 0
  blockHash : Hash := .zero
  transactionHash : Hash := .zero
  transactionIndex : UInt64 := 0
  logIndex : UInt64 := 0
  /-- The log was reverted by a reorganisation of the chain. -/
  removed : Bool := false
  deriving DecidableEq

/-- An executed transaction and the logs it emitted. -/
structure Transaction where
  hash : Hash := .zero
  height : UInt64 := 0
  index : UInt64 := 0
  logs : List Log := []
  deriving DecidableEq

namespace Log

def toJson (l : Log) : Json := .object
  [("address", l.address.toJson),
   ("blockHash", l.blockHash.toJson),
   ("blockNumber", .ofWord l.blockNumber),
   ("data", l.data.toJson),
   ("logIndex", .ofWord l.logIndex),
   ("removed", .bool l.removed),
   ("topics", .ofList Word.toJson l.topics),
   ("transactionHash", l.transactionHash.toJson),
   ("transactionIndex", .ofWord l.transactionIndex)]

def ofMembers (m : Json.Members) : Decoded Log := do
  let address ← m.field? "address" Word.ofJson
  let blockHash ← m.field? "blockHash" Word.ofJson
  let blockNumber ← m.field? "blockNumber" Json.toWord
  let data ← m.field? "data" Bytes.ofJson
  let logIndex ← m.field? "logIndex" Json.toWord
  let removed ← m.field? "removed" Json.toBool
  let topics ← m.field? "topics" (Json.toList Word.ofJson)
  let transactionHash ← m.field? "transactionHash" Word.ofJson
  let transactionIndex ← m.field? "transactionIndex" Json.toWord
  return {
    address := ← Json.required address
    topics := ← Json.required topics
    data := ← Json.required data
    blockNumber := ← Json.required blockNumber
    blockHash := ← Json.required blockHash
    transactionHash := ← Json.required transactionHash
    transactionIndex := ← Json.required transactionIndex
    logIndex := ← Json.required logIndex
    removed := removed.getD false }

def ofItems : Json.Items Log := do
  return {
    address := ← Json.Items.next Word.ofJson
    topics := ← Json.Items.next (Json.toList Word.ofJson)
    data := ← Json.Items.next Bytes.ofJson
    blockNumber := ← Json.Items.next Json.toWord
    blockHash := ← Json.Items.next Word.ofJson
    transactionHash := ← Json.Items.next Word.ofJson
    transactionIndex := ← Json.Items.next Json.toWord
    logIndex := ← Json.Items.next Json.toWord
    removed := ← Json.Items.nextOr false Json.toBool }

def ofJson : Json → Decoded Log
  | .object members => ofMembers members
  | .array items => ofItems.finish items
  | _ => .error .shape

end Log

namespace Transaction

def toJson (t : Transaction) : Json := .object
  [("hash", t.hash.toJson),
   ("height", .ofWord t.height),
   ("index", .ofWord t.index),
   ("logs", .ofList Log.toJson t.logs)]

/-- Decodes a transaction from its members; without logs it has none. -/
def ofMembers (m : Json.Members) : Decoded Transaction := do
  let hash ← m.field? "hash" Word.ofJson
  let height ← m.field? "height" Json.toWord
  let index ← m.field? "index" Json.toWord
  let logs ← m.field? "logs" (Json.toList Log.ofJson)
  return {
    hash := ← Json.required hash
    height := ← Json.required height
    index := ← Json.required index
    logs := logs.getD [] }

def ofItems : Json.Items Transaction := do
  return {
    hash := ← Json.Items.next Word.ofJson
    height := ← Json.Items.next Json.toWord
    index := ← Json.Items.next Json.toWord
    logs := ← Json.Items.nextOr [] (Json.toList Log.ofJson) }

def ofJson : Json → Decoded Transaction
  | .object members => ofMembers members
  | .array items => ofItems.finish items
  | _ => .error .shape

end Transaction

end EventFanout
