/-
EventFanout.Hub.Turn — which step of work a hub takes next.

Before every step the hub looks, in this order, for a reason to stop, a subscription
to install, one to remove, and something to read from a topic. `perform` takes a
step; `runHub` takes steps until there is none to take. `workLeft` bounds their
number: no step adds work for the hub itself.
-/
import EventFanout.Hub.Work

namespace EventFanout

inductive Turn where
  | stop
  | install
  | remove
  /-- Read one item from a topic and handle it. -/
  | read (topic : Topic)
  deriving DecidableEq, Repr

namespace World

def isReady (w : World) (topic : Topic) : Bool :=
  ((w.hub.feeds.get? topic).bind w.bus.read?).isSome

def turn? (w : World) : Option Turn :=
  if !w.hub.running then none
  else if w.hub.stops then some .stop
  else if !w.hub.installs.isEmpty then some .install
  else if !w.hub.removals.isEmpty then some .remove
  else (w.hub.feeds.keys.find? w.isReady).map .read

/-- Takes a step; one that there is no ground for changes nothing. -/
def perform (w : World) : Turn → World
  | .stop => w.shutdown
  | .install =>
    match w.hub.installs with
    | [] => w
    | s :: rest => { w with hub.installs := rest }.install s
  | .remove =>
    match w.hub.removals with
    | [] => w
    | id :: rest => { w with hub.removals := rest }.uninstall id .unsubscribed
  | .read topic =>
    match (w.hub.feeds.get? topic).bind w.bus.read? with
    | none => w
    | some (item, bus) => { w with bus }.dispatch topic item

def unread (w : World) (h : Handle) : Nat :=
  match w.bus.position? h with
  | some (ch, next) => ch.log.unread next
  | none => 0

/-- At least as many steps as the hub can take before new work comes in. -/
def workLeft (w : World) : Nat :=
  1 + w.hub.installs.length + w.hub.removals.length +
    (w.hub.feeds.values.map w.unread).foldr (· + ·) 0

def takeTurns : Nat → World → World
  | 0, w => w
  | n + 1, w =>
    match w.turn? with
    | none => w
    | some t => takeTurns n (w.perform t)

/-- Lets the hub work until it has nothing to do and rests. -/
def runHub (w : World) : World := { takeTurns w.workLeft w with hub.roused := false }

/-- Whether the hub will work as soon as the present call is over: it was roused, or it has
something to do. -/
def isAwake (w : World) : Bool := w.hub.roused || w.turn?.isSome

end World

end EventFanout
