/-
EventFanout.Hub.Work — the single steps of a hub's work.

Installing, uninstalling, giving an event to its subscriptions, taking note that a
topic was closed on the bus, and shutting down. Each is one atomic change of the
world. A topic is registered on the bus when its first subscription is installed
and given up when its last one goes; the published view follows every change.
-/
import EventFanout.World

namespace EventFanout.World

def publishView (w : World) : World := { w with hub.view := w.hub.topics }

def note (w : World) (e : Entry) : World := { w with hub.ledger := w.hub.ledger ++ [e] }

def dropFeed (w : World) (topic : Topic) : World :=
  match w.hub.feeds.get? topic with
  | some h => { w with bus := w.bus.drop h, hub.feeds := w.hub.feeds.erase topic }
  | none => w

def releaseOnBus (w : World) (topic : Topic) : World :=
  let w := w.dropFeed topic
  let w := { w with bus := (w.bus.unsubscribe topic).2 }
  (w.note (.released topic)).record .topicReleased

/-! ## Installing -/

def reject (w : World) (s : Subscription) (cause : Rejection) : World :=
  (w.record .rejected).closeLine s.id (.rejected cause)

/-- Registers on a topic unless that has been done; the topic has no subscriber yet. -/
def register (w : World) (topic : Topic) : Except BusError World :=
  if w.hub.topics.contains topic then .ok w
  else
    match w.bus.subscribe topic with
    | (.error e, _) => .error e
    | (.ok h, bus) =>
      let w := { w with
        bus
        hub.topics := w.hub.topics.set topic ⟨h.registration, 0⟩
        hub.feeds := w.hub.feeds.set topic h }
      .ok ((w.note (.requested topic true)).record .topicRegistered)

/-- Files a subscription on a topic that is registered, and then tells the client. -/
def file (w : World) (s : Subscription) : World :=
  let w := { w with
    hub.topics := w.hub.topics.update s.topic Registration.grow
    hub.index := w.hub.index.set (s.kind, s.id) s }
  let w := (w.record .install).publishView
  { w with lines := w.lines.update s.id Line.markInstalled }

def install (w : World) (s : Subscription) : World :=
  if w.hub.config.lightMode && s.kind.requiresFullNode then w.reject s (.lightMode s.kind)
  else if w.hub.contains s.id then w.reject s (.duplicateId s.id)
  else
    match w.register s.topic with
    | .ok w => w.file s
    | .error e =>
      ((w.note (.requested s.topic false)).record .rejected).closeLine s.id (.registrationFailed e)

/-! ## Uninstalling -/

/-- Takes one subscriber off a topic; the last one takes the registration with it. -/
def releaseTopic (w : World) (topic : Topic) : World :=
  match w.hub.topics.get? topic with
  | none => w
  | some r =>
    let left := r.subscribers - 1
    if 0 < left then
      { w with hub.topics := w.hub.topics.set topic { r with subscribers := left } }
    else { w with hub.topics := w.hub.topics.erase topic }.releaseOnBus topic

/-- Removes a subscription for a reason. An identity that is not installed is ignored. -/
def uninstall (w : World) (id : SubscriptionId) (reason : SubscriptionError) : World :=
  match w.hub.find? id with
  | none => w
  | some (key, s) =>
    let w := { w with hub.index := w.hub.index.erase key }
    (((w.releaseTopic s.topic).record .uninstall).publishView).closeLine id reason

/-! ## Events -/

/-- What an event comes to for one subscription. -/
inductive Outcome where
  /-- It was delivered; the line is the one after that. -/
  | delivered (line : Line)
  /-- It is of no interest. -/
  | skipped
  /-- It cannot be read, or not be delivered. -/
  | failed
  /-- Nobody listens any more, whatever the event is. -/
  | gone

def outcome (lines : Lines) (p : Payload) (s : Subscription) : Outcome :=
  match lines.get? s.id with
  | none => .gone
  | some line =>
    if !line.isListening then .gone
    else
      match s.notification p with
      | .error _ => .failed
      | .ok none => .skipped
      | .ok (some n) =>
        match line.send n with
        | .stored line => .delivered line
        | .gone => .gone
        | .mismatch => .failed

def outcomes (w : World) (topic : Topic) (p : Payload) : List (SubscriptionId × Outcome) :=
  (w.hub.listeners topic).map fun s => (s.id, outcome w.lines p s)

def Outcome.apply (lines : Lines) (result : SubscriptionId × Outcome) : Lines :=
  match result.2 with
  | .delivered line => lines.set result.1 line
  | _ => lines

def Outcome.isDelivered : Outcome → Bool
  | .delivered _ => true
  | _ => false

def Outcome.isFailed : Outcome → Bool
  | .failed => true
  | _ => false

def Outcome.isGone : Outcome → Bool
  | .gone => true
  | _ => false

/-- Gives an event to the subscriptions of a topic, and removes those nobody listens to. -/
def fanOut (w : World) (topic : Topic) (p : Payload) : World :=
  let results := w.outcomes topic p
  let count (test : Outcome → Bool) : UInt64 := UInt64.ofNat (results.countP fun r => test r.2)
  let w := { w with lines := results.foldl Outcome.apply w.lines }
  let w := ((w.record .event).record (.transientErrors (count Outcome.isFailed))).record
    (.delivered (count Outcome.isDelivered))
  let gone := (results.filter fun r => r.2.isGone).map (·.1)
  gone.foldl (fun w id => w.uninstall id .closed) w

/-- Ends a subscription whose topic the bus has closed. -/
def endWithTopic (topic : Topic) (w : World) (s : Subscription) : World :=
  match w.hub.find? s.id with
  | none => w
  | some (key, _) =>
    ({ w with hub.index := w.hub.index.erase key }.record .uninstall).closeLine s.id
      (.topicClosed topic)

/-- Ends the subscriptions of a topic that the bus has closed; the bus is not asked for anything. -/
def closeTopic (w : World) (topic : Topic) : World :=
  if w.hub.topics.contains topic then
    let affected := w.hub.listeners topic
    let w := { w with hub.topics := w.hub.topics.erase topic }.dropFeed topic
    let w := affected.foldl (endWithTopic topic) w
    ((w.note (.ended topic)).record .topicReleased).publishView
  else w

/-- Handles what was read from a topic. A mark of lost events is nothing to act on. -/
def dispatch (w : World) (topic : Topic) : Item Event → World
  | .entry e => w.fanOut topic e.payload
  | .lagged _ => w
  | .ended => w.closeTopic topic

/-! ## Shutting down -/

def refuseWaiting (w : World) (s : Subscription) : World :=
  (w.record .rejected).closeLine s.id .shutdown

def endInstalled (w : World) (s : Subscription) : World :=
  (w.record .uninstall).closeLine s.id .shutdown

/-- Stops for good: nothing waits, nothing is installed, nothing is registered any more. -/
def shutdown (w : World) : World :=
  let w := w.hub.installs.foldl refuseWaiting { w with hub.installs := [] }
  let w := { w with hub.removals := [] }
  let w := w.hub.index.values.foldl endInstalled { w with hub.index := {} }
  let w := w.hub.topics.keys.foldl releaseOnBus { w with hub.topics := {} }
  let w := w.publishView
  { w with hub.running := false }

end EventFanout.World
