/-
EventFanout.Criteria.Wire — criteria as JSON.

Criteria are written in one form: what is empty is left out, emitters are an array,
and every topic position is an array. They are read leniently: one value may stand
for the array of it, and `null` for an empty array or an absent bound.
-/
import EventFanout.Criteria.Basic

namespace EventFanout.Criteria

/-- Decodes `null`, one word, or an array of words. -/
def wordsOfJson {size : Nat} : Json → Decoded (List (Word size))
  | .null => .ok []
  | .array items => items.mapM Word.ofJson
  | value => do return [← Word.ofJson value]

def topicsOfJson : Json → Decoded (List (List Hash))
  | .null => .ok []
  | value => value.toList wordsOfJson

def toJson (c : Criteria) : Json :=
  let address := if c.addresses.isEmpty then [] else [("address", Json.ofList Word.toJson c.addresses)]
  let lower := match c.fromBlock with
    | some b => [("fromBlock", b.toJson)]
    | none => []
  let upper := match c.toBlock with
    | some b => [("toBlock", b.toJson)]
    | none => []
  let topics := if c.topics.isEmpty then []
    else [("topics", Json.ofList (Json.ofList Word.toJson) c.topics)]
  .object (address ++ lower ++ upper ++ topics)

def ofMembers (m : Json.Members) : Decoded Criteria := do
  let addresses ← m.field? "address" wordsOfJson
  let lower ← m.field? "fromBlock" (Json.toOption BlockSpec.ofJson)
  let upper ← m.field? "toBlock" (Json.toOption BlockSpec.ofJson)
  let topics ← m.field? "topics" topicsOfJson
  return {
    fromBlock := lower.getD none
    toBlock := upper.getD none
    addresses := addresses.getD []
    topics := topics.getD [] }

def ofItems : Json.Items Criteria := do
  return {
    fromBlock := ← Json.Items.nextOr none (Json.toOption BlockSpec.ofJson)
    toBlock := ← Json.Items.nextOr none (Json.toOption BlockSpec.ofJson)
    addresses := ← Json.Items.nextOr [] wordsOfJson
    topics := ← Json.Items.nextOr [] topicsOfJson }

def ofJson : Json → Decoded Criteria
  | .object members => ofMembers members
  | .array items => ofItems.finish items
  | _ => .error .shape

end EventFanout.Criteria
