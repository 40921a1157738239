/-
EventFanout.Json.Basic — JSON values.

Payloads of events, filter criteria and configurations all travel as JSON. A
number is either an integer token or a double: the two are told apart, because
a count is read from an integer token only. A double is kept as its 64 bits, so
that equality of values is decidable and a value can be compared with itself.

Members of an object stand in the order of their keys, each key once;
`Members.insert` keeps them that way.
-/

namespace EventFanout

/-- A JSON number: an integer token in the range of 64 bits, or a double given by its bits. -/
inductive Json.Number where
  | integer (value : Int)
  | double (bits : UInt64)
  deriving DecidableEq, Repr, Inhabited

inductive Json where
  | null
  | bool (value : Bool)
  | number (value : Json.Number)
  | text (value : String)
  | array (items : List Json)
  | object (members : List (String × Json))
  deriving Inhabited, BEq, Repr

namespace Json

/-- The members of an object, in the order of their keys. -/
abbrev Members := List (String × Json)

def ofNat (n : Nat) : Json := .number (.integer n)

def ofWord (n : UInt64) : Json := ofNat n.toNat

namespace Members

/-- Sets the member `key`; a member of that key that was there before is replaced. -/
def insert (key : String) (value : Json) : Members → Members
  | [] => [(key, value)]
  | (k, v) :: rest =>
    if key < k then (key, value) :: (k, v) :: rest
    else if key = k then (key, value) :: rest
    else (k, v) :: insert key value rest

def get? (members : Members) (key : String) : Option Json :=
  (members.find? (·.1 == key)).map (·.2)

end Members

/-- The members of `patch` replace those of `base`; a patch that has no members replaces all. -/
def overlay (base patch : Json) : Json :=
  match base, patch with
  | .object old, .object new => .object (new.foldl (fun ms m => Members.insert m.1 m.2 ms) old)
  | _, patch => patch

end Json

end EventFanout
