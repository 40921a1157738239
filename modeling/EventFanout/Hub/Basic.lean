/-
EventFanout.Hub.Basic — the state of a hub.

A hub takes subscriptions in, keeps an index of those installed, is registered on
the bus once for every topic that some subscription listens to, and gives each
event to the subscriptions of its topic. Requests wait in two queues until the hub
gets to them.
-/
import EventFanout.Bus
import EventFanout.Config
import EventFanout.Metrics
import EventFanout.Subscription

namespace EventFanout

/-- What the hub knows of a topic it is registered on. -/
structure Registration where
  /-- The registration number on the bus. -/
  number : UInt64
  /-- The installed subscriptions that listen to the topic. -/
  subscribers : Nat
  deriving DecidableEq, Repr, Inhabited

def Registration.grow (r : Registration) : Registration :=
  { r with subscribers := r.subscribers + 1 }

/-- A signal from outside that can stop a hub. -/
inductive Governor where
  | absent
  | held (cancelled : Bool)
  /-- Nobody holds the signal any more. -/
  | dropped
  deriving DecidableEq, Repr, Inhabited

def Governor.stops : Governor → Bool
  | .absent => false
  | .held cancelled => cancelled
  | .dropped => true

/-- An entry in the record of what the hub did about its registration on a topic. -/
inductive Entry where
  /-- It asked the bus for the topic, with or without success. -/
  | requested (topic : Topic) (granted : Bool)
  /-- It gave the topic up on the bus. -/
  | released (topic : Topic)
  /-- The bus ended the topic. -/
  | ended (topic : Topic)
  deriving DecidableEq, Repr

def Entry.topic : Entry → Topic
  | .requested topic _ | .released topic | .ended topic => topic

def Entry.isRequest : Entry → Bool
  | .requested .. => true
  | _ => false

def Entry.isRelease : Entry → Bool
  | .released _ => true
  | _ => false

structure Hub where
  config : Config
  governor : Governor := .absent
  /-- The signal from outside was set since the hub worked last. -/
  roused : Bool := false
  /-- The hub has been told to stop. -/
  stopRequested : Bool := false
  /-- The hub has not stopped yet. -/
  running : Bool := true
  /-- Subscriptions handed in that wait for their installation. -/
  installs : List Subscription := []
  /-- Subscriptions that wait for their removal. -/
  removals : List SubscriptionId := []
  /-- The installed subscriptions, filed by kind and identity. -/
  index : Table (Kind × SubscriptionId) Subscription := {}
  /-- The topics the hub is registered on. -/
  topics : Table Topic Registration := {}
  /-- The handles it reads these topics through. -/
  feeds : Table Topic Handle := {}
  /-- The topics as last published to clients. -/
  view : Table Topic Registration := {}
  metrics : Metrics := {}
  /-- What the hub did about its registrations, the latest last. -/
  ledger : List Entry := []
  deriving Inhabited

namespace Hub

def stops (h : Hub) : Bool := h.stopRequested || h.governor.stops

/-- Whether a subscription of that identity is installed. -/
def contains (h : Hub) (id : SubscriptionId) : Bool := h.index.keys.any fun k => k.2 = id

/-- The installed subscription of that identity, whatever it is filed under. -/
def find? (h : Hub) (id : SubscriptionId) : Option ((Kind × SubscriptionId) × Subscription) :=
  h.index.entries.find? fun e => e.1.2 = id

def listeners (h : Hub) (topic : Topic) : List Subscription :=
  h.index.values.filter fun s => s.topic = topic

/-- The installed subscriptions, by the topics as last published. -/
def subscriptionCount (h : Hub) : Nat := (h.view.values.map Registration.subscribers).foldr (· + ·) 0

end Hub

end EventFanout
