/-
EventFanout.Hub.Calls — what clients ask of a hub.

Calls change the world at once, but what they ask the hub to do waits in its
queues: a subscription that was handed in is installed later, and one that was
cancelled is removed later. A hub that has stopped takes nothing in.
-/
import EventFanout.World

namespace EventFanout.World

/-! ## Making subscriptions -/

/-- Makes a subscription and its line; it is held until it is handed in. -/
def create (w : World) (kind : Kind) (criteria : Option Criteria) (topic : Topic) (buffer : Nat)
    (attached : Bool) : Except FilterError (Subscription × World) := do
  let s ← Subscription.make (.issued w.issued) kind criteria topic
  return (s, { w with
    lines := w.lines.set s.id (.new kind buffer attached)
    held := w.held.set s.id s
    issued := w.issued + 1 })

/-- Checks criteria against the limits of the hub, where the kind takes criteria at all. -/
def checkLimits (w : World) (kind : Kind) (criteria : Option Criteria) : Except FilterError Unit :=
  match criteria with
  | some c =>
    if kind.acceptsCriteria then
      c.validate w.hub.config.maxTopics.toNat w.hub.config.maxAddresses.toNat
    else .ok ()
  | none => .ok ()

/-- Makes a subscription within the limits of the hub; its receiver cancels it when given up. -/
def newSubscription (w : World) (kind : Kind) (criteria : Option Criteria) :
    Except FilterError (Subscription × World) := do
  w.checkLimits kind criteria
  w.create kind criteria kind.topic w.hub.config.deliveryBuffer.toNat true

/-! ## Handing in and cancelling -/

/-- Hands a subscription in that is held; it waits for its installation. -/
def submit (w : World) (s : Subscription) : Except FilterError Unit × World :=
  let w := { w with held := w.held.erase s.id }
  if w.hub.config.lightMode && s.kind.requiresFullNode then
    (.error (.lightModeUnsupported s.kind),
      (w.record .rejected).closeLine s.id (.rejected (.lightMode s.kind)))
  else if w.hub.running then (.ok (), { w with hub.installs := w.hub.installs ++ [s] })
  else (.error .systemStopped, w.closeLine s.id .shutdown)

def requestRemoval (w : World) (id : SubscriptionId) : World :=
  if w.hub.running then { w with hub.removals := w.hub.removals ++ [id] } else w

/-- Gives a receiver up; one that is attached asks for the removal of its subscription. -/
def dropReceiver (w : World) (id : SubscriptionId) : World :=
  match w.receiver? id with
  | none => w
  | some (_, r) =>
    let w := { w with lines := w.lines.update id Line.dropReceiver }
    if r.attached then w.requestRemoval id else w

/-- Gives up a subscription that is held, which leaves its client without a reason; answers
whether it was held. -/
def discard (w : World) (id : SubscriptionId) : Bool × World :=
  if w.held.contains id then
    (true, { w with held := w.held.erase id, lines := w.lines.update id Line.abandon })
  else (false, w)

/-- Makes a subscription and hands it in; when that fails its receiver is given up. -/
def subscribe (w : World) (kind : Kind) (criteria : Option Criteria) :
    Except FilterError SubscriptionId × World :=
  match w.newSubscription kind criteria with
  | .error e => (.error e, w)
  | .ok (s, w) =>
    match w.submit s with
    | (.ok _, w) => (.ok s.id, w)
    | (.error e, w) => (.error e, w.dropReceiver s.id)

/-! ## Receiving -/

/-- Asks once whether a subscription has been installed. -/
def askInstalled (w : World) (id : SubscriptionId) : Option (Installation × World) := do
  let (line, r) ← w.receiver? id
  let (answer, r) := line.askInstalled r
  return (answer, w.setReceiver id r)

/-- The error a subscription has ended with, if it has. -/
def tryError (w : World) (id : SubscriptionId) : Option (Option SubscriptionError × World) := do
  let (line, r) ← w.receiver? id
  let (answer, r) := line.tryError r
  return (answer, w.setReceiver id r)

def receive (w : World) (id : SubscriptionId) : Option (Delivery × World) := do
  let (line, r) ← w.receiver? id
  let (answer, r) := line.receive r
  return (answer, w.setReceiver id r)

/-! ## Stopping -/

def requestStop (w : World) : World := { w with hub.stopRequested := true }

/-- Sets the signal from outside, which rouses the hub; answers whether it still listens. -/
def signal (w : World) (cancelled : Bool) : Bool × World :=
  if w.hub.running then
    (true, { w with hub.governor := .held cancelled, hub.roused := true })
  else (false, w)

/-- Gives up the signal from outside, which stops the hub. -/
def dropSignal (w : World) : World := { w with hub.governor := .dropped }

end EventFanout.World
