/-
EventFanout.Chain.Word — addresses and hashes: words of a fixed number of bytes.

A word is written as `0x` and two lower-case digits a byte. Reading wants text of
exactly that many characters, the leading `0x` optional. Space, tab and line ends
among the digits count for the length but not for the value: the digits that are
there fill the word from the left, a last odd digit is dropped, and the bytes
that remain are zero. Main statement: what is written reads back (`ofJson_toJson`).
-/
import EventFanout.Json.Decode
import EventFanout.Text.Hex

namespace EventFanout

/-- A word of `size` bytes. -/
structure Word (size : Nat) where
  bytes : List UInt8
  length_eq : bytes.length = size
  deriving DecidableEq

/-- An account: 20 bytes. -/
abbrev Address := Word 20

/-- A hash: 32 bytes. -/
abbrev Hash := Word 32

namespace Word

variable {size : Nat}

/-- The first `size` of the bytes, padded with zeros at the right. -/
def ofBytes (size : Nat) (bytes : List UInt8) : Word size :=
  ⟨(bytes ++ List.replicate size 0).take size, by simp⟩

def zero : Word size := ofBytes size []

instance : Inhabited (Word size) := ⟨zero⟩

/-- The number `n` in big-endian order, cut to the size of the word. -/
def ofNat (size n : Nat) : Word size :=
  ofBytes size ((List.range size).reverse.map fun i => UInt8.ofNat (n >>> (8 * i) % 256))

def text (w : Word size) : String := Text.Hex.marked w.bytes

/-- White space that may stand among the digits. -/
def isFiller (c : Char) : Bool := c = ' ' ∨ c = '\t' ∨ c = '\r' ∨ c = '\n'

/-- The values of the digits, fillers left out. -/
def digits? : List Char → Option (List Nat)
  | [] => some []
  | c :: rest =>
    if isFiller c then digits? rest
    else do return (← Text.Hex.value? c) :: (← digits? rest)

/-- The bytes that pairs of digits make; a last odd digit is dropped. -/
def ofDigits : List Nat → List UInt8
  | high :: low :: rest => UInt8.ofNat (16 * high + low) :: ofDigits rest
  | _ => []

def read? (size : Nat) (s : String) : Option (Word size) :=
  let cs := Text.Hex.unmarked s.toList
  if cs.length = 2 * size then (digits? cs).map fun ds => ofBytes size (ofDigits ds) else none

def ofJson : Json → Decoded (Word size)
  | .text s =>
    match read? size s with
    | some w => .ok w
    | none => .error .shape
  | _ => .error .shape

def toJson (w : Word size) : Json := .text w.text

/-! ## Reading what was written -/

/-- No digit is among the characters that reading skips. -/
theorem isFiller_digit : ∀ n, n < 16 → isFiller (Text.Hex.digit n) = false := by decide

/-- Reading the digits of written bytes gives each byte as its two halves. -/
theorem digits?_encode (bytes : List UInt8) :
    digits? (Text.Hex.encode bytes) =
      some (bytes.flatMap fun b => [b.toNat / 16, b.toNat % 16]) := by
  induction bytes with
  | nil => rfl
  | cons b rest ih =>
    have hb : b.toNat < 256 := b.toNat_lt
    rw [Text.Hex.encode_cons, digits?, isFiller_digit _ (by omega),
      Text.Hex.value?_digit _ (by omega), digits?, isFiller_digit _ (by omega),
      Text.Hex.value?_digit _ (by omega), ih]
    rfl

/-- Putting the two halves of each byte together again gives the bytes. -/
theorem ofDigits_halves (bytes : List UInt8) :
    ofDigits (bytes.flatMap fun b => [b.toNat / 16, b.toNat % 16]) = bytes := by
  induction bytes with
  | nil => rfl
  | cons b rest ih =>
    exact (congrArg (· :: _) (Text.Hex.ofNat_halves b)).trans (congrArg (b :: ·) ih)

theorem ofBytes_bytes (w : Word size) : ofBytes size w.bytes = w := by
  cases w with
  | mk bytes h => simp [ofBytes, ← h]

/-- A word is read back from its text, mark and digits. -/
theorem read?_text (w : Word size) : read? size w.text = some w := by
  have h := w.length_eq
  simp [read?, text, Text.Hex.length_encode, h, digits?_encode, ofDigits_halves, ofBytes_bytes]

/-- A word that was written as a value reads back. -/
@[simp] theorem ofJson_toJson (w : Word size) : ofJson w.toJson = .ok w := by
  simp [toJson, ofJson, read?_text]

end Word

end EventFanout
