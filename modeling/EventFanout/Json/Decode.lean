/-
EventFanout.Json.Decode — typed values from JSON values.

A decoder answers the value or a `Fault`. Two faults carry words of their own, a
bad block number and bad hexadecimal bytes; every other one says only that the
value has the wrong shape. `Fault.report?` is what is told of a fault.

A record may be written as an object (unknown keys ignored) or as the array of
its fields in declared order. `Members.field?` reads one member; decoders ask for
the members in the order of their keys, so the first faulty member decides, and
only then for those that are missing (`required`). `Items.next` and `Items.nextOr`
read the array form, `Items.finish` refuses items left over.
-/
import EventFanout.Json.Basic
import EventFanout.Text.Position

namespace EventFanout

inductive Fault where
  /-- The value is not of the wanted shape. -/
  | shape
  /-- A text that is neither a block tag nor a block number. -/
  | blockNumber (text : String)
  /-- A text that is not an even number of hexadecimal digits. -/
  | hexBytes
  deriving DecidableEq, Repr

/-- What the words about a bad block number begin with. -/
def Fault.blockNumberLabel : String := "invalid block number: "

/-- The words of a fault, where it has any. -/
def Fault.message? : Fault → Option String
  | .shape => none
  | .blockNumber text => some (blockNumberLabel ++ text)
  | .hexBytes => some "invalid hex bytes"

/-- The words of a fault found in a JSON value. A place at their end counts as the place of the
fault; words of which it leaves less than the label are not told. -/
def Fault.report? : Fault → Option String
  | .blockNumber text =>
    let words := Text.Position.settle (blockNumberLabel ++ text)
    if blockNumberLabel.toList.isPrefixOf words.toList then some words else none
  | fault => fault.message?

abbrev Decoded := Except Fault

namespace Json

/-- A 64-bit number: an integer token in range. -/
def toWord : Json → Decoded UInt64
  | .number (.integer n) =>
    if 0 ≤ n ∧ n.toNat < UInt64.size then .ok (UInt64.ofNat n.toNat) else .error .shape
  | _ => .error .shape

def toBool : Json → Decoded Bool
  | .bool b => .ok b
  | _ => .error .shape

def toText : Json → Decoded String
  | .text s => .ok s
  | _ => .error .shape

/-- An array whose items all decode; the first faulty item decides. -/
def toList {α : Type} (decode : Json → Decoded α) : Json → Decoded (List α)
  | .array items => items.mapM decode
  | _ => .error .shape

def toOption {α : Type} (decode : Json → Decoded α) : Json → Decoded (Option α)
  | .null => .ok none
  | value => (decode value).map some

/-- The array of the values that `encode` writes. -/
def ofList {α : Type} (encode : α → Json) (values : List α) : Json := .array (values.map encode)

/-- Decodes the member `key`, if there is one. -/
def Members.field? {α : Type} (members : Members) (key : String) (decode : Json → Decoded α) :
    Decoded (Option α) :=
  match members.get? key with
  | some value => (decode value).map some
  | none => .ok none

def required {α : Type} : Option α → Decoded α
  | some value => .ok value
  | none => .error .shape

/-- A decoder of the array form: it takes items from the front. -/
abbrev Items := StateT (List Json) Decoded

/-- The next field, which has to be there. -/
def Items.next {α : Type} (decode : Json → Decoded α) : Items α := do
  match ← get with
  | [] => throw .shape
  | item :: rest =>
    let value ← decode item
    set rest
    return value

/-- The next field, or `default` where the array has ended. -/
def Items.nextOr {α : Type} (default : α) (decode : Json → Decoded α) : Items α := do
  match ← get with
  | [] => return default
  | item :: rest =>
    let value ← decode item
    set rest
    return value

/-- Runs a decoder over all of the items. -/
def Items.finish {α : Type} (decode : Items α) (items : List Json) : Decoded α := do
  match ← decode.run items with
  | (value, []) => return value
  | _ => throw .shape

/-- A 64-bit number that was written reads back: it is below the limit that reading checks. -/
@[simp] theorem toWord_ofWord (n : UInt64) : (Json.ofWord n).toWord = .ok n := by
  have h : n.toNat < UInt64.size := n.toNat_lt_size
  simp [ofWord, ofNat, toWord, h]

@[simp] theorem toBool_bool (b : Bool) : (Json.bool b).toBool = .ok b := rfl

@[simp] theorem toText_text (s : String) : (Json.text s).toText = .ok s := rfl

/-- A list reads back if each of its values does. -/
theorem toList_ofList {α : Type} {decode : Json → Decoded α} {encode : α → Json}
    (values : List α) (h : ∀ v ∈ values, decode (encode v) = .ok v) :
    (Json.ofList encode values).toList decode = .ok values := by
  simp only [ofList, toList]
  induction values with
  | nil => rfl
  | cons v rest ih =>
    have hv := h v (by simp)
    have hr := ih fun w hw => h w (by simp [hw])
    simp only [List.map_cons, List.mapM_cons, hv, hr]
    rfl

end Json

end EventFanout
