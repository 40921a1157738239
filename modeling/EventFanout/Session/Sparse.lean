/-
EventFanout.Session.Sparse — events given by what differs from zero.

A script writes a header, log or transaction as an object with the members that
are not zero, empty or absent; the members are laid over the zero value and the
result is decoded like any other JSON.
-/
import EventFanout.Event

namespace EventFanout

def Header.ofSparse (patch : Json) : Decoded Header :=
  Header.ofJson (Json.overlay (Header.toJson {}) patch)

/-- A log whose missing members are zero or empty, as JSON. -/
def Log.completed (patch : Json) : Json := Json.overlay (Log.toJson {}) patch

def Log.ofSparse (patch : Json) : Decoded Log := Log.ofJson (Log.completed patch)

/-- A transaction whose missing members are zero or empty; its logs are complete. -/
def Transaction.ofSparse (patch : Json) : Decoded Transaction :=
  Transaction.ofJson (Json.overlay (Transaction.toJson {}) patch)

/-- A transaction whose missing members are zero or empty, and those of its logs too. -/
def Transaction.ofSparseLogs (patch : Json) : Decoded Transaction :=
  Transaction.ofSparse <|
    match patch with
    | .object m =>
      match Json.Members.get? m "logs" with
      | some (.array logs) =>
        .object (Json.Members.insert "logs" (.array (logs.map Log.completed)) m)
      | _ => patch
    | patch => patch

/-- How a script gives a payload. -/
inductive Payload.Form where
  | header
  | transaction
  | raw
  /-- Raw JSON of a header. -/
  | rawHeader
  /-- Raw JSON of a transaction. -/
  | rawTransaction
  /-- The JSON of a payload of any form. -/
  | exact
  deriving DecidableEq

/-- The payload that a script gives in a form. -/
def Payload.ofForm (form : Form) (value : Json) : Decoded Payload :=
  match form with
  | .header => (Header.ofSparse value).map .header
  | .transaction => (Transaction.ofSparseLogs value).map .transaction
  | .raw => .ok (.raw value)
  | .rawHeader => (Header.ofSparse value).map fun h => .raw h.toJson
  | .rawTransaction => (Transaction.ofSparse value).map fun t => .raw t.toJson
  | .exact => Payload.ofJson value

end EventFanout
