/-
EventFanout.Chain.Bytes — byte payloads of any length.

A payload is written as `0x` and two lower-case digits a byte. Reading drops at
most one leading lower-case `0x` and wants an even number of digits of either
case; a text of any other form is the fault `hexBytes`. Main statement: what is
written reads back (`ofJson_toJson`).
-/
import EventFanout.Json.Decode
import EventFanout.Text.Hex

namespace EventFanout

/-- A byte payload. -/
structure Bytes where
  data : List UInt8 := []
  deriving DecidableEq

namespace Bytes

def size (b : Bytes) : Nat := b.data.length

def isEmpty (b : Bytes) : Bool := b.size = 0

def text (b : Bytes) : String := Text.Hex.marked b.data

/-- The payload that a text writes. -/
def read? (s : String) : Option Bytes :=
  (Text.Hex.decode (Text.Hex.unmarked s.toList)).map Bytes.mk

def toJson (b : Bytes) : Json := .text b.text

def ofJson : Json → Decoded Bytes
  | .text s =>
    match read? s with
    | some b => .ok b
    | none => .error .hexBytes
  | _ => .error .shape

theorem read?_text (b : Bytes) : read? b.text = some b := by
  simp [read?, text, Text.Hex.decode_encode]

/-- A payload that was written as a value reads back. -/
@[simp] theorem ofJson_toJson (b : Bytes) : ofJson b.toJson = .ok b := by
  simp [toJson, ofJson, read?_text]

end Bytes

end EventFanout
