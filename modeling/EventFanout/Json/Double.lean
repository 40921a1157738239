/-
EventFanout.Json.Double — doubles as decimal text.

A double is `m * 2 ^ q`. The reals that round to it form an interval around it,
whose ends belong to it iff `m` is even. Its text is the point of the coarsest
decimal grid that meets the interval, the nearest one where there are two; so it
has the fewest digits that read back. `Double.layout` is the format: positional
notation from 1e-5 up to 1e16, an exponent outside, and always a mark that tells
a double from an integer.

Reading goes the other way in two roundings: the leading digits, as many as fit
64 bits, become a double, which is then multiplied or divided by a power of ten.
-/

namespace EventFanout.Json.Double

/-- Mantissa and binary exponent of a finite double, and whether the gap below it is narrower. -/
structure Parts where
  mantissa : Nat
  exponent : Int
  narrowBelow : Bool

/-- The parts of the double with these bits, its sign apart. -/
def parts (bits : UInt64) : Parts :=
  let fraction : Nat := bits.toNat % 0x10000000000000
  let biased : Nat := bits.toNat / 0x10000000000000 % 0x800
  if biased = 0 then ⟨fraction, -1074, false⟩
  else ⟨fraction + 0x10000000000000, (biased : Int) - 1075, fraction = 0 ∧ 1 < biased⟩

def isNegative (bits : UInt64) : Bool := 0x8000000000000000 ≤ bits.toNat

/--
The multiple `c * 10 ^ t` in the rounding interval of `p` that is nearest to `p`, if there is one.
All sides are scaled to natural numbers by `scale` (of `c`) and `unit` (of quarter mantissas).
-/
def gridPoint (p : Parts) (t : Int) : Option (Nat × Int) :=
  let r := p.exponent - 2
  let scale := Nat.pow 10 t.toNat * Nat.pow 2 (-r).toNat
  let unit := Nat.pow 10 (-t).toNat * Nat.pow 2 r.toNat
  let value := 4 * p.mantissa * unit
  let low := (4 * p.mantissa - if p.narrowBelow then 1 else 2) * unit
  let high := (4 * p.mantissa + 2) * unit
  let inside (c : Nat) : Bool :=
    if p.mantissa % 2 = 0 then low ≤ c * scale ∧ c * scale ≤ high
    else low < c * scale ∧ c * scale < high
  let below := value / scale
  let above := below + 1
  let nearerBelow : Bool :=
    let down := value - below * scale
    let up := above * scale - value
    down < up ∨ (down = up ∧ below % 2 = 0)
  if inside below ∧ (nearerBelow ∨ ¬ inside above) then some (below, t)
  else if inside above then some (above, t)
  else none

/-- The digits and the exponent of the shortest decimal that reads back as `p`. -/
def shortest (p : Parts) : Nat × Int :=
  ((List.range 640).findSome? fun (k : Nat) => gridPoint p (310 - (k : Int))).getD (0, 0)

/-- Lays out `digits * 10 ^ exponent`: positional from 1e-5 to 1e16, with an exponent elsewhere. -/
def layout (digits : List Char) (exponent : Int) : List Char :=
  let count : Int := digits.length
  let point := count + exponent
  if 0 ≤ exponent ∧ point ≤ 16 then digits ++ List.replicate exponent.toNat '0' ++ ['.', '0']
  else if 0 < point ∧ point ≤ 16 then digits.take point.toNat ++ '.' :: digits.drop point.toNat
  else if -5 < point ∧ point ≤ 0 then '0' :: '.' :: List.replicate (-point).toNat '0' ++ digits
  else
    let power := 'e' :: (toString (point - 1)).toList
    match digits with
    | [] => power
    | [d] => d :: power
    | d :: rest => d :: '.' :: rest ++ power

def render (bits : UInt64) : List Char :=
  let p := parts bits
  let body :=
    if p.mantissa = 0 then ['0', '.', '0']
    else
      let (digits, exponent) := shortest p
      layout (Nat.toDigits 10 digits) exponent
  if isNegative bits then '-' :: body else body

def powerOfTen (n : Nat) : Float := Float.ofScientific 1 false n

/-- `significand * 10 ^ exponent` as a double; no value where that is out of range. -/
def scaled (significand : Nat) (exponent : Int) : Option Float :=
  let f := Float.ofNat significand
  if significand = 0 then some 0.0
  else if 308 < exponent then none
  else if 0 ≤ exponent then
    let g := f * powerOfTen exponent.toNat
    if g.isInf then none else some g
  else if -308 ≤ exponent then some (f / powerOfTen (-exponent).toNat)
  else if -616 ≤ exponent then some (f / powerOfTen 308 / powerOfTen (-exponent - 308).toNat)
  else some 0.0

end EventFanout.Json.Double
