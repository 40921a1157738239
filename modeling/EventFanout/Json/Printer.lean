/-
EventFanout.Json.Printer — the compact text of a JSON value.

No space between tokens; in a text only the quote, the backslash and the control
characters are escaped. Every value is written with what follows it as an
argument, so that the whole text is built in one pass.
-/
import EventFanout.Json.Double
import EventFanout.Json.Basic

namespace EventFanout.Json

/-- The four hexadecimal digits of a code below 65536. -/
def fourDigits (n : Nat) : List Char :=
  [n / 4096 % 16, n / 256 % 16, n / 16 % 16, n % 16].map Nat.digitChar

def escape (c : Char) : List Char :=
  match c with
  | '"' => ['\\', '"']
  | '\\' => ['\\', '\\']
  | '\x08' => ['\\', 'b']
  | '\x0c' => ['\\', 'f']
  | '\n' => ['\\', 'n']
  | '\r' => ['\\', 'r']
  | '\t' => ['\\', 't']
  | c => if c.toNat < 0x20 then '\\' :: 'u' :: fourDigits c.toNat else [c]

def quoted (s : String) (rest : List Char) : List Char :=
  '"' :: s.toList.foldr (fun c out => escape c ++ out) ('"' :: rest)

def Number.render : Number → List Char
  | .integer i => (toString i).toList
  | .double bits => Double.render bits

mutual

/-- The characters of a value, followed by `rest`. -/
def chars (value : Json) (rest : List Char) : List Char :=
  match value with
  | .null => "null".toList ++ rest
  | .bool true => "true".toList ++ rest
  | .bool false => "false".toList ++ rest
  | .number n => n.render ++ rest
  | .text s => quoted s rest
  | .array [] => '[' :: ']' :: rest
  | .array (item :: items) => '[' :: chars item (itemChars items rest)
  | .object [] => '\x7b' :: '\x7d' :: rest
  | .object ((key, v) :: members) =>
    '\x7b' :: quoted key (':' :: chars v (memberChars members rest))

/-- The characters of the items after the first one, and the end of their array. -/
def itemChars (items : List Json) (rest : List Char) : List Char :=
  match items with
  | [] => ']' :: rest
  | item :: items => ',' :: chars item (itemChars items rest)

/-- The characters of the members after the first one, and the end of their object. -/
def memberChars (members : List (String × Json)) (rest : List Char) : List Char :=
  match members with
  | [] => '\x7d' :: rest
  | (key, v) :: members => ',' :: quoted key (':' :: chars v (memberChars members rest))

end

def render (value : Json) : String := String.ofList (chars value [])

end EventFanout.Json
