/-
EventFanout.Json.Lexer — the tokens of a JSON text.

The lexer is a machine fed one character at a time (`Mode.feed`), so that reading
is a fold over the characters and needs no measure. Numbers and the three literal
names are collected as words and told apart at their end (`Token.ofWord?`).
-/
import EventFanout.Json.Double
import EventFanout.Json.Basic
import EventFanout.Text.Hex

namespace EventFanout.Json

/-- A token: punctuation, a text, or any other scalar value. -/
inductive Token where
  | openArray
  | closeArray
  | openObject
  | closeObject
  | comma
  | colon
  | text (value : String)
  | scalar (value : Json)

/-! ## Numbers -/

def digitsValue (ds : List Char) : Nat :=
  ds.foldl (fun n c => 10 * n + (c.toNat - '0'.toNat)) 0

/-- The longest run of leading digits whose value fits 64 bits, and how many are left over. -/
def fittingDigits (ds : List Char) : Nat × Nat :=
  go 0 ds
where
  go (value : Nat) : List Char → Nat × Nat
    | [] => (value, 0)
    | c :: rest =>
      let next := 10 * value + (c.toNat - '0'.toNat)
      if next < UInt64.size then go next rest else (value, rest.length + 1)

/-- Splits an exponent off: `e` or `E`, a sign if any, and at least one digit. -/
def exponent? : List Char → Option Int
  | [] => some 0
  | mark :: rest =>
    if mark = 'e' ∨ mark = 'E' then
      match rest with
      | '-' :: ds => if !ds.isEmpty && ds.all Char.isDigit then some (-(digitsValue ds : Int)) else none
      | '+' :: ds => if !ds.isEmpty && ds.all Char.isDigit then some (digitsValue ds) else none
      | ds => if !ds.isEmpty && ds.all Char.isDigit then some (digitsValue ds) else none
    else none

/-- The bits of a double read from `whole`, a fraction, and an exponent. -/
def doubleBits? (negative : Bool) (whole fraction : List Char) (exponent : Int) : Option UInt64 := do
  let (significand, leftOver) := fittingDigits (whole ++ fraction)
  let f ← Double.scaled significand (exponent + leftOver - fraction.length)
  return if negative then (-f).toBits else f.toBits

/-- Reads a number: an integer token within 64 bits is an integer, all else a double. -/
def Number.ofChars? (cs : List Char) : Option Number := do
  let (negative, cs) := match cs with
    | '-' :: rest => (true, rest)
    | rest => (false, rest)
  let whole := cs.takeWhile Char.isDigit
  let rest := cs.dropWhile Char.isDigit
  if whole.isEmpty || (whole.length > 1 && whole.head? == some '0') then none
  match rest with
  | [] =>
    let n := digitsValue whole
    if !negative && n < UInt64.size then return .integer n
    else if negative && 0 < n && n ≤ UInt64.size / 2 then return .integer (-(n : Int))
    else return .double (← doubleBits? negative whole [] 0)
  | '.' :: rest =>
    let fraction := rest.takeWhile Char.isDigit
    if fraction.isEmpty then none
    return .double (← doubleBits? negative whole fraction (← exponent? (rest.dropWhile Char.isDigit)))
  | rest => return .double (← doubleBits? negative whole [] (← exponent? rest))

def Token.ofWord? (cs : List Char) : Option Token :=
  if cs = ['n', 'u', 'l', 'l'] then some (.scalar .null)
  else if cs = ['t', 'r', 'u', 'e'] then some (.scalar (.bool true))
  else if cs = ['f', 'a', 'l', 's', 'e'] then some (.scalar (.bool false))
  else (Number.ofChars? cs).map (.scalar <| .number ·)

/-! ## The machine -/

/-- What the lexer is in the middle of; what it has read of a token is kept in reverse. -/
inductive Mode where
  | between
  | word (read : List Char)
  | text (read : List Char)
  | escape (read : List Char)
  /-- Inside `\u`: an upper surrogate read before, the digits still to come, and their value. -/
  | code (read : List Char) (high : Option Nat) (missing value : Nat)
  /-- After an upper surrogate, whose other half has to follow. -/
  | pair (read : List Char) (high : Nat)
  | pairEscape (read : List Char) (high : Nat)

def Token.ofPunctuation? : Char → Option Token
  | '[' => some .openArray
  | ']' => some .closeArray
  | '{' => some .openObject
  | '}' => some .closeObject
  | ',' => some .comma
  | ':' => some .colon
  | _ => none

def isSpace (c : Char) : Bool := c = ' ' ∨ c = '\n' ∨ c = '\t' ∨ c = '\r'

/-- The character an escape of one letter stands for. -/
def escaped? : Char → Option Char
  | '"' => some '"'
  | '\\' => some '\\'
  | '/' => some '/'
  | 'b' => some '\x08'
  | 'f' => some '\x0c'
  | 'n' => some '\n'
  | 'r' => some '\r'
  | 't' => some '\t'
  | _ => none

/-- A complete `\u` code: a character, or the upper half of a pair; no half stands alone. -/
def Mode.ofCode (read : List Char) (high : Option Nat) (value : Nat) : Option Mode :=
  let lower := 0xDC00 ≤ value ∧ value < 0xE000
  match high with
  | some h =>
    if lower then some (.text (Char.ofNat (0x10000 + (h - 0xD800) * 0x400 + (value - 0xDC00)) :: read))
    else none
  | none =>
    if lower then none
    else if 0xD800 ≤ value ∧ value < 0xDC00 then some (.pair read value)
    else some (.text (Char.ofNat value :: read))

def Mode.start (c : Char) : List Token × Mode :=
  match Token.ofPunctuation? c with
  | some t => ([t], .between)
  | none =>
    if isSpace c then ([], .between)
    else if c = '"' then ([], .text [])
    else ([], .word [c])

/-- Feeds one character; answers the tokens that it completes. -/
def Mode.feed (mode : Mode) (c : Char) : Option (List Token × Mode) :=
  match mode with
  | .between => some (Mode.start c)
  | .word read =>
    if isSpace c ∨ c = '"' ∨ (Token.ofPunctuation? c).isSome then do
      let t ← Token.ofWord? read.reverse
      let (ts, mode) := Mode.start c
      return (t :: ts, mode)
    else some ([], .word (c :: read))
  | .text read =>
    if c = '"' then some ([.text (String.ofList read.reverse)], .between)
    else if c = '\\' then some ([], .escape read)
    else if c.toNat < 0x20 then none
    else some ([], .text (c :: read))
  | .escape read =>
    if c = 'u' then some ([], .code read none 4 0)
    else (escaped? c).map fun e => ([], .text (e :: read))
  | .code read high missing value => do
    let d ← Text.Hex.value? c
    let value := 16 * value + d
    if missing ≤ 1 then return ([], ← Mode.ofCode read high value)
    else return ([], .code read high (missing - 1) value)
  | .pair read high => if c = '\\' then some ([], .pairEscape read high) else none
  | .pairEscape read high => if c = 'u' then some ([], .code read (some high) 4 0) else none

/-- The tokens of a text; no value where a token is malformed or unfinished. -/
def tokens? (cs : List Char) : Option (List Token) := do
  let (read, mode) ← cs.foldlM
    (fun (acc : List Token × Mode) c => do
      let (ts, mode) ← acc.2.feed c
      return (ts.reverse ++ acc.1, mode))
    ([], Mode.between)
  match mode with
  | .between => return read.reverse
  | .word w => return (← Token.ofWord? w.reverse) :: read |>.reverse
  | _ => none

end EventFanout.Json
