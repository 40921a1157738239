/-
EventFanout.Polling.Tasks — the work of the polling filters, and settling.

The task of a filter reads what its subscription was given, one notification at a
time (`drainStep`); when the subscription ends it takes the filter out of the
registry. When the registry is given up (`closePolling`) all tasks end. The sweeper
removes expired filters when its time has come; a tick that comes more than five
milliseconds late is followed by the next one a full interval later. `settle` lets
the hub and the tasks take turns until nothing is left to do.
-/
import EventFanout.Hub.Turn
import EventFanout.Polling.Calls

namespace EventFanout.World

/-! ## Draining -/

def drain? (w : World) (id : SubscriptionId) : Option Drain :=
  w.polling.drains.find? fun d => d.id = id

/-- Ends the task of a filter, which gives its receiver up. -/
def endDrain (w : World) (id : SubscriptionId) : World :=
  { w with polling.drains := w.polling.drains.filter fun d => d.id ≠ id }.dropReceiver id

/-- The subscription of a filter has ended, and so do its task and the filter. -/
def expireDrain (w : World) (id : SubscriptionId) : World :=
  let w := if w.polling.filters.contains id then
      { w with polling.filters := w.polling.filters.erase id }.releaseSlot
    else w
  w.endDrain id

def collect (w : World) (id : SubscriptionId) (n : Notification) : World :=
  { w with polling.filters := w.polling.filters.update id fun f => f.collect n }

/-- One step of the task of a filter; no value where it has nothing to do. -/
def drainStep (w : World) (id : SubscriptionId) : Option World := do
  let d ← w.drain? id
  if d.cancelled then return w.endDrain id
  match ← w.receive id with
  | (.notification n, w) => return w.collect id n
  | (.failed _, w) => return w.expireDrain id
  | (.pending, _) => none

/-- How many steps the task of a filter has left. -/
def drainLeft (w : World) (id : SubscriptionId) : Nat :=
  match w.receiver? id with
  | some (line, r) => 1 + line.buffer.unread r.next
  | none => 1

def drainSteps (id : SubscriptionId) : Nat → World → World
  | 0, w => w
  | n + 1, w =>
    match w.drainStep id with
    | none => w
    | some w => drainSteps id n w

/-- Lets every task run until it waits or ends. -/
def runDrains (w : World) : World :=
  w.polling.drains.foldl (fun w d => drainSteps d.id (w.drainLeft d.id) w) w

/-! ## Closing -/

def cancelDrains (w : World) : World :=
  { w with polling.drains := w.polling.drains.map Drain.cancel }

def endDrains (w : World) : World := w.polling.drains.foldl (fun w d => w.endDrain d.id) w

/-- Gives the registry up: its filters are forgotten and their tasks end. Who is called first
works first: a hub that is awake already works before the tasks give their receivers up, a hub
at rest only after. -/
def closePolling (w : World) : World :=
  let w := { w with polling.live := false, polling.filters := {} }
  if w.isAwake then w.cancelDrains else w.endDrains

/-! ## Sweeping -/

/-- When the sweep after the one that ran now is due. An interval that leads out of the range of the
clock is cut short only where the tick was in time; after a late one no sweep comes any more. -/
def nextSweep (w : World) : Nat :=
  if w.polling.sweepDue + 5 < w.now then w.now + w.sweepInterval
  else w.intervalAfter w.polling.sweepDue

def runSweeper (w : World) : World :=
  if w.polling.live && w.polling.sweepDue ≤ w.now then
    { w with polling.sweepDue := w.nextSweep }.sweep.2
  else w

/-! ## Settling -/

def tasksReady (w : World) : Bool :=
  w.polling.drains.any fun d => (w.drainStep d.id).isSome

/-- Lets the hub work and then the tasks, at most that many times over. -/
def settleRounds : Nat → World → World
  | 0, w => w
  | n + 1, w =>
    let w := w.runHub.runDrains.runSweeper
    if w.turn?.isSome || w.tasksReady then settleRounds n w else w

/-- Lets the hub and the tasks work until nothing is left to do. -/
def settle (w : World) : World := settleRounds (2 * w.polling.drains.length + 3) w

end EventFanout.World
