/-
EventFanout.Json.Reader — JSON values from their text.

A machine over tokens with the open arrays and objects on a stack (`Reading`), so
that reading is a fold over the tokens. Objects are put in the order of their
keys while they are read; of two members of one key the later one stays.
-/
import EventFanout.Json.Lexer

namespace EventFanout.Json

/-- An array or object that is still open, with what it holds so far (arrays in reverse). -/
inductive Frame where
  | items (done : List Json)
  | member (done : Members) (key : String)

inductive Place where
  | value
  | firstItem
  | firstKey
  | key (done : Members)
  | colon (done : Members) (key : String)
  | after (value : Json)

/-- A reading under way: the open frames, the innermost first, and what may come next. -/
structure Reading where
  frames : List Frame
  place : Place

def Reading.value (frames : List Frame) : Token → Option Reading
  | .openArray => some ⟨frames, .firstItem⟩
  | .openObject => some ⟨frames, .firstKey⟩
  | .text s => some ⟨frames, .after (.text s)⟩
  | .scalar j => some ⟨frames, .after j⟩
  | _ => none

def Reading.after (frames : List Frame) (value : Json) (t : Token) : Option Reading :=
  match frames, t with
  | .items done :: outer, .comma => some ⟨.items (value :: done) :: outer, .value⟩
  | .items done :: outer, .closeArray => some ⟨outer, .after (.array (value :: done).reverse)⟩
  | .member done key :: outer, .comma => some ⟨outer, .key (done.insert key value)⟩
  | .member done key :: outer, .closeObject =>
    some ⟨outer, .after (.object (done.insert key value))⟩
  | _, _ => none

def Reading.feed (reading : Reading) (t : Token) : Option Reading :=
  match reading.place, t with
  | .value, t => Reading.value reading.frames t
  | .firstItem, .closeArray => some ⟨reading.frames, .after (.array [])⟩
  | .firstItem, t => Reading.value (.items [] :: reading.frames) t
  | .firstKey, .closeObject => some ⟨reading.frames, .after (.object [])⟩
  | .firstKey, .text k => some ⟨reading.frames, .colon [] k⟩
  | .key done, .text k => some ⟨reading.frames, .colon done k⟩
  | .colon done k, .colon => some ⟨.member done k :: reading.frames, .value⟩
  | .after value, t => Reading.after reading.frames value t
  | _, _ => none

/-- The value that a text writes; no value where the text is not JSON. -/
def read? (s : String) : Option Json := do
  let tokens ← tokens? s.toList
  let reading ← tokens.foldlM Reading.feed ⟨[], .value⟩
  match reading with
  | ⟨[], .after value⟩ => some value
  | _ => none

end EventFanout.Json
