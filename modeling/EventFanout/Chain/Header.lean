/-
EventFanout.Chain.Header — block headers and their JSON form.

The base fee is optional: it is left out when absent, and `null` reads as absent.
-/
import EventFanout.Chain.Word

namespace EventFanout

/-- A block header. Every field of the header that is left open is zero. -/
structure Header where
  hash : Hash := .zero
  parentHash : Hash := .zero
  number : UInt64 := 0
  timestamp : UInt64 := 0
  miner : Address := .zero
  stateRoot : Hash := .zero
  transactionsRoot : Hash := .zero
  receiptsRoot : Hash := .zero
  gasLimit : UInt64 := 0
  gasUsed : UInt64 := 0
  baseFeePerGas : Option UInt64 := none
  deriving DecidableEq

namespace Header

def toJson (h : Header) : Json :=
  let fee := match h.baseFeePerGas with
    | some fee => [("baseFeePerGas", Json.ofWord fee)]
    | none => []
  .object (fee ++
    [("gasLimit", .ofWord h.gasLimit),
     ("gasUsed", .ofWord h.gasUsed),
     ("hash", h.hash.toJson),
     ("miner", h.miner.toJson),
     ("number", .ofWord h.number),
     ("parentHash", h.parentHash.toJson),
     ("receiptsRoot", h.receiptsRoot.toJson),
     ("stateRoot", h.stateRoot.toJson),
     ("timestamp", .ofWord h.timestamp),
     ("transactionsRoot", h.transactionsRoot.toJson)])

def ofMembers (m : Json.Members) : Decoded Header := do
  let fee ← m.field? "baseFeePerGas" (Json.toOption Json.toWord)
  let gasLimit ← m.field? "gasLimit" Json.toWord
  let gasUsed ← m.field? "gasUsed" Json.toWord
  let hash ← m.field? "hash" Word.ofJson
  let miner ← m.field? "miner" Word.ofJson
  let number ← m.field? "number" Json.toWord
  let parentHash ← m.field? "parentHash" Word.ofJson
  let receiptsRoot ← m.field? "receiptsRoot" Word.ofJson
  let stateRoot ← m.field? "stateRoot" Word.ofJson
  let timestamp ← m.field? "timestamp" Json.toWord
  let transactionsRoot ← m.field? "transactionsRoot" Word.ofJson
  return {
    hash := ← Json.required hash
    parentHash := ← Json.required parentHash
    number := ← Json.required number
    timestamp := ← Json.required timestamp
    miner := ← Json.required miner
    stateRoot := ← Json.required stateRoot
    transactionsRoot := ← Json.required transactionsRoot
    receiptsRoot := ← Json.required receiptsRoot
    gasLimit := ← Json.required gasLimit
    gasUsed := ← Json.required gasUsed
    baseFeePerGas := fee.getD none }

def ofItems : Json.Items Header := do
  return {
    hash := ← Json.Items.next Word.ofJson
    parentHash := ← Json.Items.next Word.ofJson
    number := ← Json.Items.next Json.toWord
    timestamp := ← Json.Items.next Json.toWord
    miner := ← Json.Items.next Word.ofJson
    stateRoot := ← Json.Items.next Word.ofJson
    transactionsRoot := ← Json.Items.next Word.ofJson
    receiptsRoot := ← Json.Items.next Word.ofJson
    gasLimit := ← Json.Items.next Json.toWord
    gasUsed := ← Json.Items.next Json.toWord
    baseFeePerGas := ← Json.Items.nextOr none (Json.toOption Json.toWord) }

def ofJson : Json → Decoded Header
  | .object members => ofMembers members
  | .array items => ofItems.finish items
  | _ => .error .shape

end Header

end EventFanout
