/-
EventFanout.Text.Blank — white space of any script.

A topic is blank when nothing but white space is in it. White space is the
Unicode property White_Space, which has 25 characters.
-/

namespace EventFanout.Text

/-- The characters with the property White_Space. -/
def blankCodes : List Nat :=
  [0x09, 0x0A, 0x0B, 0x0C, 0x0D, 0x20, 0x85, 0xA0, 0x1680,
   0x2000, 0x2001, 0x2002, 0x2003, 0x2004, 0x2005, 0x2006, 0x2007, 0x2008, 0x2009, 0x200A,
   0x2028, 0x2029, 0x202F, 0x205F, 0x3000]

def isBlankChar (c : Char) : Bool := blankCodes.contains c.toNat

/-- Whether a text is empty or white space throughout. -/
def isBlank (s : String) : Bool := s.toList.all isBlankChar

end EventFanout.Text
