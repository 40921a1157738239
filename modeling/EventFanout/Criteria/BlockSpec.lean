/-
EventFanout.Criteria.BlockSpec — bounds of a block range.

A bound is a height or a tag. In text a tag may be in any letter case; a height is
`0x` or `0X` and hexadecimal digits, or decimal digits.
-/
import EventFanout.Json.Decode
import EventFanout.Text.Numeral

namespace EventFanout

/-- A named bound. -/
inductive BlockTag where
  | earliest
  | latest
  | pending
  deriving DecidableEq, Repr

/-- A bound: a height or a tag. -/
inductive BlockSpec where
  | number (height : UInt64)
  | tag (tag : BlockTag)
  deriving DecidableEq

namespace BlockTag

def all : List BlockTag := [.earliest, .latest, .pending]

def name : BlockTag → String
  | .earliest => "earliest"
  | .latest => "latest"
  | .pending => "pending"

/--
The tag whose name the characters spell in any letter case. Only ASCII letters have
an ASCII letter of these names as their lower case, so folding ASCII is enough.
-/
def read? (cs : List Char) : Option BlockTag :=
  all.find? fun t => cs.map Char.toLower = t.name.toList

end BlockTag

namespace BlockSpec

/-- The height of a bound; `latest` and `pending` have none. -/
def height : BlockSpec → Option UInt64
  | .number n => some n
  | .tag .earliest => some 0
  | .tag _ => none

def isPending : BlockSpec → Bool
  | .tag .pending => true
  | _ => false

/-- The text of a bound: the name of the tag, or `0x` and the fewest digits. -/
def text : BlockSpec → String
  | .number n => String.ofList ('0' :: 'x' :: Text.Numeral.hexDigits n)
  | .tag t => t.name

/-- The height that the characters write. -/
def height? : List Char → Option UInt64
  | '0' :: 'x' :: rest | '0' :: 'X' :: rest => Text.Numeral.read? 16 rest
  | cs => Text.Numeral.read? 10 cs

def read? (s : String) : Option BlockSpec :=
  match BlockTag.read? s.toList with
  | some t => some (.tag t)
  | none => (height? s.toList).map .number

/-- Reads a bound; a text of any other form is a fault that names it. -/
def ofText (s : String) : Decoded BlockSpec :=
  match read? s with
  | some b => .ok b
  | none => .error (.blockNumber s)

def toJson (b : BlockSpec) : Json := .text b.text

/-- Decodes a bound from a number or a text. -/
def ofJson : Json → Decoded BlockSpec
  | .text s => ofText s
  | value => value.toWord.map .number

end BlockSpec

end EventFanout
