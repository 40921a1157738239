/-
EventFanout.Text.Numeral — 64-bit numbers in decimal and hexadecimal text.

Reading allows one leading plus sign and any number of leading zeros, and refuses
an empty run of digits and a value of 2^64 or more; writing uses the fewest
lower-case hexadecimal digits.
-/
import EventFanout.Text.Hex

namespace EventFanout.Text.Numeral

/-- The value of a digit in the base, where the character is one. -/
def digit? (base : Nat) (c : Char) : Option Nat :=
  (Hex.value? c).filter (· < base)

/-- The number that a run of digits writes, `value` being what stands before it. -/
def digits? (base : Nat) (value : Nat) : List Char → Option Nat
  | [] => some value
  | c :: rest => do digits? base (base * value + (← digit? base c)) rest

def unsigned : List Char → List Char
  | '+' :: rest => rest
  | cs => cs

/-- The number below 2^64 that the characters write in the base. -/
def read? (base : Nat) (cs : List Char) : Option UInt64 := do
  let ds := unsigned cs
  if ds.isEmpty then none
  let n ← digits? base 0 ds
  if n < UInt64.size then return UInt64.ofNat n else none

/-- The fewest lower-case hexadecimal digits of a number. -/
def hexDigits (n : UInt64) : List Char := Nat.toDigits 16 n.toNat

end EventFanout.Text.Numeral
