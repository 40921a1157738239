/-
EventFanout.Line — what connects a subscription with its client.

A line has a buffer of notifications and two signals: that the subscription has
been installed, and why it has ended. The hub's half sends, marks and closes; the
client's half (`Receiver`) reads. An error that a client has been told is final: it
is kept in `Receiver.terminal` and told again by every later call.

Waiting for the installation takes the signal out of the receiver, answered or not;
a later call finds no signal and takes the installation for granted.
-/
import EventFanout.Channel
import EventFanout.Subscription

namespace EventFanout

/-- The client's half of a line. -/
structure Receiver where
  /-- The position of the next notification. -/
  next : Nat := 0
  /-- The installation signal has been taken. -/
  asked : Bool := false
  /-- The error the client has been told. -/
  terminal : Option SubscriptionError := none
  /-- Giving the receiver up asks the hub to remove the subscription. -/
  attached : Bool := false
  deriving DecidableEq, Repr, Inhabited

/-- What connects a subscription with its client. -/
structure Line where
  kind : Kind
  /-- The notifications; closed as soon as the hub's half is gone. -/
  buffer : Channel Notification
  /-- The installation signal has been given. -/
  installed : Bool := false
  /-- Why the subscription was closed; none where its half was given up without a reason. -/
  reason : Option SubscriptionError := none
  /-- The client's half, while it is there. -/
  receiver : Option Receiver
  deriving DecidableEq, Inhabited

inductive Delivery where
  | notification (n : Notification)
  | failed (e : SubscriptionError)
  | pending
  deriving DecidableEq

inductive Installation where
  | installed
  | failed (e : SubscriptionError)
  | pending
  deriving DecidableEq, Repr

namespace Line

/-- A new line with a buffer for at least one notification. -/
def new (kind : Kind) (buffer : Nat) (attached : Bool) : Line :=
  { kind, buffer := .sized buffer, receiver := some { attached } }

/-! ## The hub's half -/

/-- Whether the client's half is still there. -/
def isListening (l : Line) : Bool := l.receiver.isSome

/-- Whether the hub's half is gone. -/
def isClosed (l : Line) : Bool := l.buffer.closed

inductive Sent where
  | stored (line : Line)
  /-- Nobody listens any more. -/
  | gone
  /-- The line does not carry notifications of that form. -/
  | mismatch

/-- Sends a notification; the oldest unread one gives way when the buffer is full. -/
def send (l : Line) (n : Notification) : Sent :=
  if n.kind = l.kind then
    if l.isListening then .stored { l with buffer := l.buffer.push n } else .gone
  else .mismatch

def markInstalled (l : Line) : Line := { l with installed := true }

def close (l : Line) (reason : SubscriptionError) : Line :=
  { l with buffer := l.buffer.close, reason := some reason }

def abandon (l : Line) : Line := { l with buffer := l.buffer.close }

/-! ## The client's half -/

/-- The error that the client is told once the hub's half is gone. -/
def ending (l : Line) : SubscriptionError := l.reason.getD .closed

/-- Tells the error the line has ended with, if it has. -/
def tryError (l : Line) (r : Receiver) : Option SubscriptionError × Receiver :=
  match r.terminal with
  | some e => (some e, r)
  | none =>
    if l.isClosed then (some l.ending, { r with terminal := some l.ending }) else (none, r)

/-- The error to tell a client whose line has nothing more to give. -/
def takeError (l : Line) (r : Receiver) : SubscriptionError × Receiver :=
  let (e, r) := l.tryError r
  (e.getD .closed, r)

def askInstalled (l : Line) (r : Receiver) : Installation × Receiver :=
  match r.terminal with
  | some e => (.failed e, r)
  | none =>
    if r.asked then (.installed, r)
    else
      let r := { r with asked := true }
      if l.installed then (.installed, r)
      else if l.isClosed then
        let (e, r) := l.takeError r
        (.failed e, r)
      else (.pending, r)

/-- Receives one notification; what was overwritten is skipped without notice. -/
def receive (l : Line) (r : Receiver) : Delivery × Receiver :=
  match r.terminal with
  | some e => (.failed e, r)
  | none =>
    match l.buffer.receive r.next with
    | (.entry n, next) => (.notification n, { r with next })
    | (.pending, next) => (.pending, { r with next })
    | (.ended, next) =>
      let (e, r) := l.takeError { r with next }
      (.failed e, r)

def dropReceiver (l : Line) : Line := { l with receiver := none }

end Line

end EventFanout
