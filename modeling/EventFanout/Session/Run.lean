/-
EventFanout.Session.Run — carrying scripts out.

A step is one command, or a batch of commands that are carried out one after
another before anything else happens; after a step the world settles. What is
created under a name that is taken takes the place of what had the name, which is
given up after the command.
-/
import EventFanout.Polling.Tasks
import EventFanout.Session.Command

namespace EventFanout

/-- A script being carried out. -/
structure Session where
  world : World
  /-- The configuration that the script gave. -/
  config : Config := {}
  /-- A hub was started. -/
  configured : Bool := false
  /-- The script holds the hub. -/
  hubHeld : Bool := false
  /-- The script holds the signal that governs the hub. -/
  signalHeld : Bool := false
  /-- The polling filters that were given a name. -/
  filters : Table Session.Name SubscriptionId := {}
  /-- The clients: each has a receiver until that is given up, and its subscription until that
  is handed in or discarded. -/
  clients : Table Session.Name SubscriptionId := {}
  /-- The bus handles that the script holds. -/
  handles : Table Session.Name Handle := {}

namespace Session

/-! ## Starting -/

def onBus (bus : Bus) : Session :=
  { world := { bus, hub := { config := {}, running := false } } }

/-- The longest interval that the clock of a script measures, in seconds: thirty years of 365 days. -/
def longestInterval : UInt64 := 30 * 365 * 24 * 60 * 60

/-- A session with a hub, a registry of polling filters if `polling`, a signal if `governed`. The
clock of a script ends a longer sweep interval early; a hub by itself does not. -/
def withHub (bus : Bus) (config : Config) (polling governed : Bool) : Session :=
  let measured := { config with sweepIntervalSecs := min config.sweepIntervalSecs longestInterval }
  let world := World.start bus measured (if governed then .held false else .absent)
  { world := if polling then world.openPolling else world
    config, configured := true, hubHeld := true, signalHeld := governed }

/-- Starts a session; a hub needs a valid configuration. -/
def start (capacity : Option Nat) (config : Option Config) (polling governed : Bool) :
    Except FilterError Session := do
  let bus := Bus.sized (capacity.getD Bus.defaultCapacity)
  match config with
  | none => return onBus bus
  | some config =>
    config.validate
    return withHub bus config polling governed

/-! ## The parts of a session -/

def setBus (s : Session) (bus : Bus) : Session := { s with world.bus := bus }

/-- The identity of the client of that name; an unknown name stands for itself. -/
def clientId (s : Session) (name : Name) : SubscriptionId :=
  (s.clients.get? name).getD (.named name)

/-- The identity of the filter of that name; an unknown name stands for itself. -/
def filterId (s : Session) (name : Name) : SubscriptionId :=
  (s.filters.get? name).getD (.named name)

/-- The client of that name, while it has its receiver. -/
def receiving? (s : Session) (name : Name) : Option SubscriptionId :=
  (s.clients.get? name).filter fun id => (s.world.receiver? id).isSome

/-- The subscription that the client of that name has not handed in yet. -/
def held? (s : Session) (name : Name) : Option Subscription :=
  (s.clients.get? name).bind s.world.held.get?

def dropClient (s : Session) (name : Name) : Session :=
  match s.clients.get? name with
  | none => s
  | some id => { s with world := ((s.world.dropReceiver id).discard id).2 }

def addClient (s : Session) (name : Name) (id : SubscriptionId) : Session :=
  let s := s.dropClient name
  { s with clients := s.clients.set name id }

def dropHandle (s : Session) (name : Name) : Session :=
  match s.handles.get? name with
  | none => s
  | some h => { s.setBus (s.world.bus.drop h) with handles := s.handles.erase name }

/-- The hub stops when neither the script nor the registry holds it any more. -/
def stopUnheld (s : Session) : Session :=
  if s.hubHeld || s.world.polling.live then s else { s with world := s.world.requestStop }

/-! ## Commands -/

def merged : List Nat → List Nat
  | a :: b :: rest => if a = b then merged (b :: rest) else a :: merged (b :: rest)
  | ns => ns

/-- Publishes events one after another; answers the readers reached by each, the latest first. -/
def publishAll (b : Bus) (events : List Event) : List Nat × Bus :=
  events.foldl (fun (counts, b) e => let (n, b) := b.publish e; (n :: counts, b)) ([], b)

def publish (s : Session) (events : List Event) : Reply × Session :=
  let (counts, bus) := publishAll s.world.bus events
  (.reached (merged counts.reverse), s.setBus bus)

/-- The header of that number, whose hash is the number. -/
def numbered (n : Nat) : Header := { number := UInt64.ofNat n, hash := Word.ofNat 32 n }

def readEvents (h : Handle) : Nat → Bus → List Event × Option (Stop Unit) × Bus
  | 0, b => ([], none, b)
  | n + 1, b =>
    match b.receive h with
    | (.pending, b) => ([], some .pending, b)
    | (.ended, b) => ([], some (.ended ()), b)
    | (.entry e, b) =>
      let (items, stop, b) := readEvents h n b
      (e :: items, stop, b)

def readNotifications (id : SubscriptionId) :
    Nat → World → List Notification × Option (Stop SubscriptionError) × World
  | 0, w => ([], none, w)
  | n + 1, w =>
    match w.receive id with
    | none => ([], some .pending, w)
    | some (.pending, w) => ([], some .pending, w)
    | some (.failed e, w) => ([], some (.ended e), w)
    | some (.notification x, w) =>
      let (items, stop, w) := readNotifications id n w
      (x :: items, stop, w)

/-- Shows a filter by the name it was asked for under. -/
def renamed (name : Name) : FilterError → FilterError
  | .filterNotFound _ => .filterNotFound (.named name)
  | e => e

def create (s : Session) (name : Name) (request : Request) (source : Source) : Reply × Session :=
  match request.decode with
  | .error r => (r.reply, s)
  | .ok (kind, criteria) =>
    let made := match source with
      | .topic topic buffer => some (s.world.create kind criteria topic buffer false)
      | .buffer buffer => some (s.world.create kind criteria kind.topic buffer false)
      | .hub => if s.hubHeld then some (s.world.newSubscription kind criteria) else none
    match made with
    | none => (.absent, s)
    | some (.error e) => (.refused e, s)
    | some (.ok (made, world)) => (.ok, { s with world }.addClient name made.id)

/-- Hands a held subscription in; where there is no hub to take it, it is lost. -/
def submit (s : Session) (name : Name) : Reply × Session :=
  match s.held? name with
  | none => (.absent, s)
  | some subscription =>
    if s.hubHeld then
      match s.world.submit subscription with
      | (.ok _, world) => (.ok, { s with world })
      | (.error e, world) => (.refused e, { s with world })
    else (.absent, { s with world := (s.world.discard subscription.id).2 })

def subscribe (s : Session) (name : Name) (request : Request) : Reply × Session :=
  match request.decode with
  | .error r => (r.reply, s)
  | .ok (kind, criteria) =>
    if s.hubHeld then
      match s.world.subscribe kind criteria with
      | (.error e, world) => (.refused e, { s with world })
      | (.ok id, world) => (.ok, { s with world }.addClient name id)
    else (.absent, s)

def beginFilters (requests : List (Name × FilterRequest)) (w : World) :
    List (Name × Except FilterError SubscriptionId) × World :=
  requests.foldl
    (fun (begun, w) (name, request) =>
      let (result, w) := w.beginFilter request
      (begun ++ [(name, result)], w))
    ([], w)

def finishFilter (s : Session) (name : Name) (id : SubscriptionId) : Reply × Session :=
  match s.world.polling.creations.find? fun c => c.id = id with
  | none => (.pending, s)
  | some c =>
    match s.world.finishFilter c with
    | (some (.ok _), world) => (.ok, { s with world, filters := s.filters.set name id })
    | (some (.error e), world) => (.refused e, { s with world })
    | (none, world) => (.pending, { s with world })

def finishFilters (s : Session) (begun : List (Name × Except FilterError SubscriptionId)) :
    List Reply × Session :=
  begun.foldl
    (fun (replies, s) (name, result) =>
      match result with
      | .error e => (replies ++ [.refused e], s)
      | .ok id =>
        let (reply, s) := s.finishFilter name id
        (replies ++ [reply], s))
    ([], s)

/-- Creates filters and waits until all are installed or turned away. -/
def newFilters (s : Session) (requests : List (Name × FilterRequest)) : List Reply × Session :=
  let (begun, world) := beginFilters requests s.world
  { s with world := world.runHub }.finishFilters begun

/-- Decodes the requests for filters; the first bad one decides. -/
def readFilters (requests : List (Name × Request)) : Except Refusal (List (Name × FilterRequest)) :=
  requests.mapM fun (name, r) => do return (name, ← r.filter)

/-- Carries a command out; nothing else happens meanwhile. -/
def perform (s : Session) : Command → Reply × Session
  | .publish form event topic times =>
    match Payload.ofForm form event with
    | .error fault => (.malformed fault, s)
    | .ok payload =>
      s.publish (List.replicate times { topic := topic.getD payload.topic, payload })
  | .publishHeaders first count topic =>
    s.publish ((List.range count).map fun i =>
      { topic := topic.getD headerTopic, payload := .header (numbered (first + i)) })
  | .busSubscribe name topic =>
    match s.world.bus.subscribe topic with
    | (.error e, bus) => (.busRefused e, s.setBus bus)
    | (.ok h, bus) =>
      let s := (s.setBus bus).dropHandle name
      (.registered topic h.registration, { s with handles := s.handles.set name h })
  | .busUnsubscribe topic =>
    let (removed, bus) := s.world.bus.unsubscribe topic
    (.flag removed, s.setBus bus)
  | .busClose => (.ok, s.setBus s.world.bus.close)
  | .busDrop name => (.flag (s.handles.contains name), s.dropHandle name)
  | .busInfo topic =>
    let bus := s.world.bus
    (.busInfo (bus.registration? topic) (bus.receiverCount topic) bus.capacity, s)
  | .busReceive name count =>
    match s.handles.get? name with
    | none => (.absent, s)
    | some h =>
      let (items, stop, bus) := readEvents h count s.world.bus
      (.events items stop, s.setBus bus)
  | .subscribe name request => s.subscribe name request
  | .create name request source => s.create name request source
  | .submit name => s.submit name
  | .discard name =>
    match s.clients.get? name with
    | none => (.absent, s)
    | some id =>
      let (held, world) := s.world.discard id
      (.flag held, { s with world })
  | .askInstalled name =>
    match (s.clients.get? name).bind s.world.askInstalled with
    | none => (.absent, s)
    | some (.installed, world) => (.ok, { s with world })
    | some (.pending, world) => (.pending, { s with world })
    | some (.failed e, world) => (.ended e, { s with world })
  | .tryError name =>
    match (s.clients.get? name).bind s.world.tryError with
    | none => (.absent, s)
    | some (none, world) => (.nothing, { s with world })
    | some (some e, world) => (.ended e, { s with world })
  | .receive name count =>
    match s.receiving? name with
    | none => (.absent, s)
    | some id =>
      let (items, stop, world) := readNotifications id count s.world
      (.notifications items stop, { s with world })
  | .drop name =>
    match s.receiving? name with
    | none => (.absent, s)
    | some id => (.ok, { s with world := s.world.dropReceiver id })
  | .unsubscribe name =>
    if s.hubHeld then (.ok, { s with world := s.world.requestRemoval (s.clientId name) })
    else (.absent, s)
  | .shutdown => if s.hubHeld then (.ok, { s with world := s.world.requestStop }) else (.absent, s)
  | .stopped => if s.hubHeld then (.flag !s.world.hub.running, s) else (.absent, s)
  | .signal cancelled =>
    if s.signalHeld then
      let (heard, world) := s.world.signal cancelled
      (.flag heard, { s with world })
    else (.absent, s)
  | .dropSignal =>
    if s.signalHeld then (.flag true, { s with world := s.world.dropSignal, signalHeld := false })
    else (.flag false, s)
  | .dropHub =>
    if s.hubHeld then (.flag true, { s with hubHeld := false }.stopUnheld) else (.flag false, s)
  | .info => if s.hubHeld then (.info s.config, s) else (.absent, s)
  | .newFilter name request =>
    match readFilters [(name, request)] with
    | .error r => (r.reply, s)
    | .ok requests =>
      if s.world.polling.live then
        let (replies, s) := s.newFilters requests
        (replies.headD .nothing, s)
      else (.absent, s)
  | .newFilters requests =>
    match readFilters requests with
    | .error r => (r.reply, s)
    | .ok requests =>
      if s.world.polling.live then
        let (replies, s) := s.newFilters requests
        (.each replies, s)
      else (.absent, s)
  | .changes name =>
    if s.world.polling.live then
      match s.world.poll (s.filterId name) with
      | (.ok c, world) => (.changes c, { s with world })
      | (.error e, world) => (.refused (renamed name e), { s with world })
    else (.absent, s)
  | .filterCriteria name =>
    if s.world.polling.live then
      match s.world.polling.filters.get? (s.filterId name) with
      | some f => (.criteria f.request.criteria, s)
      | none => (.refused (.filterNotFound (.named name)), s)
    else (.absent, s)
  | .filterKind name =>
    if s.world.polling.live then
      match s.world.polling.filters.get? (s.filterId name) with
      | some f => (.kind f.request.kind, s)
      | none => (.nothing, s)
    else (.absent, s)
  | .filterAge name =>
    if s.world.polling.live then
      match s.world.polling.filters.get? (s.filterId name) with
      | some f => (.count (s.world.now - f.created), s)
      | none => (.nothing, s)
    else (.absent, s)
  | .uninstall name =>
    if s.world.polling.live then
      let (removed, world) := s.world.uninstallFilter (s.filterId name)
      (.flag removed, { s with world })
    else (.absent, s)
  | .sweep =>
    if s.world.polling.live then
      let (removed, world) := s.world.sweep
      (.count removed, { s with world })
    else (.absent, s)
  | .dropPolling =>
    if s.world.polling.live then
      (.flag true, { s with world := s.world.closePolling }.stopUnheld)
    else (.flag false, s)
  | .advance milliseconds => (.ok, { s with world.now := s.world.now + milliseconds })

/-! ## Steps -/

inductive Step where
  | single (command : Command)
  | batch (commands : List Command)

def performAll (s : Session) (commands : List Command) : List Reply × Session :=
  commands.foldl
    (fun (replies, s) c => let (reply, s) := s.perform c; (replies ++ [reply], s))
    ([], s)

def settle (s : Session) : Session := { s with world := s.world.settle }

def step (s : Session) : Step → Reply × Session
  | .single c =>
    let (reply, s) := s.perform c
    (reply, s.settle)
  | .batch cs =>
    let (replies, s) := s.performAll cs
    (.each replies, s.settle)

/-! ## What is visible -/

/-- The topics that the hub asked the bus for, each once. -/
def ledgerTopics (ledger : List Entry) : List Topic := (ledger.map Entry.topic).eraseDups

/-- How often the hub asked the bus for a topic, and how often it gave the topic up. -/
def callsFor (ledger : List Entry) (topic : Topic) : Nat × Nat :=
  (ledger.countP fun e => e.isRequest && e.topic = topic,
    ledger.countP fun e => e.isRelease && e.topic = topic)

def snapshot (s : Session) : Snapshot :=
  let hub := s.world.hub
  { topicCount := s.world.bus.topicCount
    published := s.world.bus.published
    counters :=
      if s.configured then
        some (hub.metrics, (ledgerTopics hub.ledger).map fun t => (t, callsFor hub.ledger t))
      else none
    hub :=
      if s.hubHeld then
        some (hub.running, hub.subscriptionCount,
          hub.view.entries.mergeSort fun a b => a.1 ≤ b.1)
      else none
    filters := if s.world.polling.live then some s.world.polling.filters.size else none }

/-- Carries a script out; answers every step, with what is visible after it. -/
def run (s : Session) : List Step → List (Reply × Snapshot)
  | [] => []
  | step :: rest =>
    let (reply, s) := s.step step
    (reply, s.snapshot) :: run s rest

end Session

end EventFanout
