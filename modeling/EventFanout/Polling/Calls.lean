/-
EventFanout.Polling.Calls — what clients ask of the registry of polling filters.

A new filter takes a slot, hands a subscription in (`beginFilter`), and is entered
once that has been installed (`finishFilter`); a slot is given back when this fails
and when the filter goes, in whatever way it does.
-/
import EventFanout.Hub.Calls

namespace EventFanout.World

def releaseSlot (w : World) : World := { w with polling.slots := w.polling.slots - 1 }

/-- Begins a filter: takes a slot and hands its subscription in. -/
def beginFilter (w : World) (request : FilterRequest) :
    Except FilterError SubscriptionId × World :=
  if w.hub.config.maxFilters ≤ w.polling.slots then
    (.error (.tooManyFilters w.hub.config.maxFilters.toNat), w)
  else
    match { w with polling.slots := w.polling.slots + 1 }.subscribe request.kind request.criteria with
    | (.error e, w) => (.error e, w.releaseSlot)
    | (.ok id, w) => (.ok id, { w with polling.creations := w.polling.creations ++ [⟨id, request⟩] })

def endCreation (w : World) (id : SubscriptionId) : World :=
  { w with polling.creations := w.polling.creations.filter fun c => c.id ≠ id }

/-- Enters a filter, polled now for the first time, and starts its task. -/
def enterFilter (w : World) (id : SubscriptionId) (request : FilterRequest) : World :=
  let filter := ⟨request, w.now, w.now, .empty request.kind⟩
  { w with
    polling.filters := w.polling.filters.set id filter
    polling.drains := w.polling.drains ++ [⟨id, false⟩] }

/-- Finishes a filter, if its subscription has been installed or turned away. -/
def finishFilter (w : World) (c : Creation) : Option (Except FilterError Unit) × World :=
  match w.askInstalled c.id with
  | some (.installed, w) => (some (.ok ()), (w.endCreation c.id).enterFilter c.id c.request)
  | some (.failed e, w) =>
    (some (.error (.subscription e)), ((w.endCreation c.id).releaseSlot).dropReceiver c.id)
  | some (.pending, w) => (none, w)
  | none => (none, w)

/-- Takes the changes of a filter out; its time to live starts anew. -/
def poll (w : World) (id : SubscriptionId) : Except FilterError Changes × World :=
  match w.polling.filters.get? id with
  | none => (.error (.filterNotFound id), w)
  | some f =>
    let fresh := { f with lastPoll := w.now, changes := .empty f.request.kind }
    (.ok f.changes, { w with polling.filters := w.polling.filters.set id fresh })

def cancelDrain (w : World) (id : SubscriptionId) : World :=
  { w with polling.drains := w.polling.drains.map fun d => if d.id = id then d.cancel else d }

/-- Takes a filter out of the registry, gives its slot back and cancels its subscription. -/
def removeFilter (w : World) (id : SubscriptionId) : World :=
  let w := { w with polling.filters := w.polling.filters.erase id }
  (w.releaseSlot.cancelDrain id).requestRemoval id

def uninstallFilter (w : World) (id : SubscriptionId) : Bool × World :=
  if w.polling.filters.contains id then (true, w.removeFilter id) else (false, w)

/-- The time after which a filter that nobody polls expires, in milliseconds. -/
def filterTimeout (w : World) : Nat := w.hub.config.timeoutSecs.toNat * 1000

/-- The filters that nobody has polled for the timeout or longer. -/
def expired (w : World) : List SubscriptionId :=
  (w.polling.filters.entries.filter fun e => w.filterTimeout ≤ w.now - e.2.lastPoll).map (·.1)

/-- Removes the filters that have expired; answers how many there were. -/
def sweep (w : World) : Nat × World :=
  let ids := w.expired
  let w := ids.foldl removeFilter w
  (ids.length, w.record (.filtersExpired (UInt64.ofNat ids.length)))

/-! ## The clock of the sweeper -/

/-- The time between two sweeps, in milliseconds. -/
def sweepInterval (w : World) : Nat := w.hub.config.sweepIntervalSecs.toNat * 1000

/-- How far a clock can count, in milliseconds: it keeps the seconds in 63 bits. -/
def clockRange : Nat := UInt64.size / 2 * 1000

def farFuture : Nat := 30 * 365 * 24 * 60 * 60 * 1000

/-- When a sweep is due that is to take place one interval after a moment. Where the clock cannot
count so far, it is due in thirty years, unless even these are longer than the interval. -/
def intervalAfter (w : World) (moment : Nat) : Nat :=
  let due := moment + w.sweepInterval
  if due < clockRange then due else min due (w.now + farFuture)

/-- Opens the registry; the first sweep is due one interval from now. -/
def openPolling (w : World) : World :=
  { w with polling := { live := true, sweepDue := w.intervalAfter w.now } }

end EventFanout.World
