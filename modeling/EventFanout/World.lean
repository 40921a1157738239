/-
EventFanout.World — everything that the calls of clients and the work of the hub act on.

The world is the hub together with the bus, which others use too, the lines to the
clients, the subscriptions that were made but not handed in yet (`held`), the
polling filters, and a clock. Every call and every step of work is a function on
the world.
-/
import EventFanout.Hub.Basic
import EventFanout.Line
import EventFanout.Polling.Basic

namespace EventFanout

abbrev Lines := Table SubscriptionId Line

structure World where
  bus : Bus
  hub : Hub
  lines : Lines := {}
  /-- Subscriptions that were made but not handed in. -/
  held : Table SubscriptionId Subscription := {}
  /-- The number of subscriptions made so far. -/
  issued : Nat := 0
  polling : Polling := {}
  /-- The time in milliseconds. -/
  now : Nat := 0
  deriving Inhabited

namespace World

/-- A world with a new hub on a bus. -/
def start (bus : Bus) (config : Config) (governor : Governor) : World :=
  { bus, hub := { config, governor } }

def record (w : World) (t : Metrics.Tally) : World :=
  { w with hub.metrics := w.hub.metrics.record t }

def closeLine (w : World) (id : SubscriptionId) (reason : SubscriptionError) : World :=
  { w with lines := w.lines.update id fun l => l.close reason }

/-- The receiver of a subscription and the line it belongs to, while somebody has it. -/
def receiver? (w : World) (id : SubscriptionId) : Option (Line × Receiver) := do
  let line ← w.lines.get? id
  return (line, ← line.receiver)

def setReceiver (w : World) (id : SubscriptionId) (r : Receiver) : World :=
  { w with lines := w.lines.update id fun l => { l with receiver := some r } }

end World

end EventFanout
