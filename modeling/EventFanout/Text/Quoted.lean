/-
EventFanout.Text.Quoted — a text between quotes with its invisible characters spelled out.

The form in which a refused topic is shown: the plain space stands for itself,
tab, line feed, carriage return and NUL have a letter each, the quote and the
backslash are escaped, and every other control or white space character is given
by its code point in braces.
-/
import EventFanout.Text.Blank

namespace EventFanout.Text

/-- A code point in braces, in lower-case hexadecimal without leading zeros. -/
def codePoint (n : Nat) : List Char :=
  ['\\', 'u', '\x7b'] ++ Nat.toDigits 16 n ++ ['\x7d']

def shownChar (c : Char) : List Char :=
  match c with
  | '"' => ['\\', '"']
  | '\\' => ['\\', '\\']
  | '\t' => ['\\', 't']
  | '\n' => ['\\', 'n']
  | '\r' => ['\\', 'r']
  | '\x00' => ['\\', '0']
  | ' ' => [' ']
  | c =>
    if isBlankChar c ∨ c.toNat < 0x20 ∨ (0x7F ≤ c.toNat ∧ c.toNat < 0xA0) then codePoint c.toNat
    else [c]

def quoted (s : String) : String :=
  String.ofList ('"' :: s.toList.flatMap shownChar ++ ['"'])

end EventFanout.Text
