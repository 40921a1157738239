/-
EventFanout.Text.Hex — bytes as hexadecimal digits.

Writing puts two lower-case digits for each byte; reading takes digits of either
case two at a time. Main statement: what is written reads back (`decode_encode`).
-/

namespace EventFanout.Text.Hex

/-- The lower-case digit of a value below sixteen. -/
def digit (n : Nat) : Char :=
  if n < 10 then Char.ofNat ('0'.toNat + n) else Char.ofNat ('a'.toNat + (n - 10))

def value? (c : Char) : Option Nat :=
  if '0'.toNat ≤ c.toNat ∧ c.toNat ≤ '9'.toNat then some (c.toNat - '0'.toNat)
  else if 'a'.toNat ≤ c.toNat ∧ c.toNat ≤ 'f'.toNat then some (c.toNat - 'a'.toNat + 10)
  else if 'A'.toNat ≤ c.toNat ∧ c.toNat ≤ 'F'.toNat then some (c.toNat - 'A'.toNat + 10)
  else none

/-- A written digit has its value. -/
theorem value?_digit : ∀ n, n < 16 → value? (digit n) = some n := by decide

/-- No digit is worth more than a half byte holds. -/
theorem value?_lt {c : Char} {n : Nat} (h : value? c = some n) : n < 16 := by
  simp only [value?, show '0'.toNat = 48 from rfl, show '9'.toNat = 57 from rfl,
    show 'a'.toNat = 97 from rfl, show 'f'.toNat = 102 from rfl,
    show 'A'.toNat = 65 from rfl, show 'F'.toNat = 70 from rfl] at h
  split at h
  · injection h; omega
  · split at h
    · injection h; omega
    · split at h
      · injection h; omega
      · contradiction

def ofByte (b : UInt8) : List Char := [digit (b.toNat / 16), digit (b.toNat % 16)]

def encode (bytes : List UInt8) : List Char := bytes.flatMap ofByte

/-- The bytes whose digits are given; none where a character is no digit or one is left over. -/
def decode : List Char → Option (List UInt8)
  | [] => some []
  | [_] => none
  | high :: low :: rest => do
    let h ← value? high
    let l ← value? low
    let bytes ← decode rest
    return UInt8.ofNat (16 * h + l) :: bytes

/-- Drops one leading lower-case `0x`. -/
def unmarked : List Char → List Char
  | '0' :: 'x' :: rest => rest
  | cs => cs

/-- The bytes as text: `0x` and their digits. -/
def marked (bytes : List UInt8) : String := String.ofList ('0' :: 'x' :: encode bytes)

@[simp] theorem unmarked_toList_marked (bytes : List UInt8) :
    unmarked (marked bytes).toList = encode bytes := by
  simp [marked, unmarked]

@[simp] theorem encode_nil : encode [] = [] := rfl

@[simp] theorem encode_cons (b : UInt8) (bytes : List UInt8) :
    encode (b :: bytes) = digit (b.toNat / 16) :: digit (b.toNat % 16) :: encode bytes := rfl

/-- Two digits are written for each byte. -/
theorem length_encode (bytes : List UInt8) : (encode bytes).length = 2 * bytes.length := by
  induction bytes with
  | nil => rfl
  | cons b rest ih => simp only [encode_cons, List.length_cons, ih]; omega

/-- A byte is its upper half times sixteen and its lower half. -/
theorem ofNat_halves (b : UInt8) :
    UInt8.ofNat (16 * (b.toNat / 16) + b.toNat % 16) = b := by
  rw [Nat.div_add_mod]; exact UInt8.ofNat_toNat

/-- Bytes are read back from their digits. -/
theorem decode_encode (bytes : List UInt8) : decode (encode bytes) = some bytes := by
  induction bytes with
  | nil => rfl
  | cons b rest ih =>
    have hb : b.toNat < 256 := b.toNat_lt
    rw [encode_cons, decode, value?_digit _ (by omega), value?_digit _ (by omega), ih]
    exact congrArg (fun x => some (x :: rest)) (ofNat_halves b)

end EventFanout.Text.Hex
