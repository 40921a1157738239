/-
EventFanout.Text.Position — the place that a message ends in.

A message may end in the place it is about, ` at line 3 column 14`. `split?` takes
that end off. `settle` is how a message is shown once its end has been taken for its
place: numbers have no leading zeros, and a place in line 0, which no text has, is
left out.
-/
import EventFanout.Text.Numeral

namespace EventFanout.Text

structure Position where
  line : UInt64
  column : UInt64
  deriving DecidableEq, Repr

namespace Position

/-- The end of a message about a place. -/
def text (p : Position) : String :=
  " at line " ++ toString p.line.toNat ++ " column " ++ toString p.column.toNat

/-- Takes a number in decimal digits and the label before it off the end of the characters,
which are given in reverse, as is what is left of them. -/
def takeLabelled (label : String) (reversed : List Char) : Option (UInt64 × List Char) := do
  let rest ← label.toList.reverse.isPrefixOf? (reversed.dropWhile Char.isDigit)
  return (← Numeral.read? 10 (reversed.takeWhile Char.isDigit).reverse, rest)

/-- The place at the end of a message, and the words before it. -/
def split? (message : String) : Option (String × Position) := do
  let (column, rest) ← takeLabelled " column " message.toList.reverse
  let (line, rest) ← takeLabelled " at line " rest
  return (String.ofList rest.reverse, { line, column })

/-- A message whose end, if it is a place, is written as one. -/
def settle (message : String) : String :=
  match split? message with
  | some (words, p) => if p.line = 0 then words else words ++ p.text
  | none => message

end Position

end EventFanout.Text
