/-
EventFanout.Bus — events routed by topic.

A topic gets a channel at its first subscription and a registration number with
it; the numbers are given out in order and never again. Everyone who subscribes to
the topic while that channel is routed reads from it through a handle of their own.
Unsubscribing a topic ends its channel for every reader, whoever asked for it;
closing the bus ends all of them and refuses new ones.

A channel that is no longer routed stays on record, because its handles may still
read what it holds. A channel is known by its place in that record, a registration
by its number; numbers have 64 bits.

Main statements: a refused subscription changes nothing (`subscribe_error`), and a
granted one answers a handle on the channel that the topic is routed to
(`subscribe_ok`).
-/
import EventFanout.Channel
import EventFanout.Error
import EventFanout.Table

namespace EventFanout

def registrationText (number : UInt64) : String := "reg-" ++ toString number.toNat

/-- The channel of one registration of a topic, and where each of its readers is. -/
structure TopicChannel where
  topic : Topic
  registration : UInt64
  log : Channel Event
  /-- The readers attached, by number, with the position of their next entry. -/
  readers : Table Nat Nat := {}
  deriving Inhabited

namespace TopicChannel

/-- A new reader, who reads what is sent from now on. -/
def enter (ch : TopicChannel) (reader : Nat) : TopicChannel :=
  { ch with readers := ch.readers.set reader ch.log.tail }

def move (ch : TopicChannel) (reader next : Nat) : TopicChannel :=
  { ch with readers := ch.readers.set reader next }

def leave (ch : TopicChannel) (reader : Nat) : TopicChannel :=
  { ch with readers := ch.readers.erase reader }

def push (ch : TopicChannel) (e : Event) : TopicChannel := { ch with log := ch.log.push e }

def close (ch : TopicChannel) : TopicChannel := { ch with log := ch.log.close }

end TopicChannel

/-- A reader's claim on a channel. -/
structure Handle where
  topic : Topic
  registration : UInt64
  /-- The place of the channel on record. -/
  channel : Nat
  reader : Nat
  deriving DecidableEq, Repr, Inhabited

structure Bus where
  /-- The number of entries asked for in every channel. -/
  capacity : Nat
  closed : Bool := false
  /-- The channel that each topic is routed to, by its place on record. -/
  routes : Table Topic Nat := {}
  /-- Every channel ever created, in order. -/
  channels : List TopicChannel := []
  nextRegistration : UInt64 := 1
  nextReader : Nat := 0
  /-- How many events were published, whether or not anyone was there to read them. -/
  published : UInt64 := 0
  deriving Inhabited

namespace Bus

/-- The capacity of a bus unless another one is asked for. -/
def defaultCapacity : Nat := 1000

/-- A bus whose channels hold at least one entry. -/
def sized (capacity : Nat) : Bus := { capacity := max capacity 1 }

/-! ## What can be asked of the bus -/

def topicCount (b : Bus) : Nat := b.routes.size

/-- The channel that a topic is routed to. -/
def channel? (b : Bus) (topic : Topic) : Option TopicChannel := do
  b.channels[← b.routes.get? topic]?

def registration? (b : Bus) (topic : Topic) : Option UInt64 :=
  (b.channel? topic).map TopicChannel.registration

def receiverCount (b : Bus) (topic : Topic) : Nat :=
  match b.channel? topic with
  | some ch => ch.readers.size
  | none => 0

def modify (b : Bus) (place : Nat) (f : TopicChannel → TopicChannel) : Bus :=
  { b with channels := b.channels.modify place f }

/-! ## Registrations -/

/-- Creates a channel for a topic and routes the topic to it. -/
def create (b : Bus) (topic : Topic) : Bus :=
  { b with
    routes := b.routes.set topic b.channels.length
    channels := b.channels ++ [⟨topic, b.nextRegistration, .sized b.capacity, {}⟩]
    nextRegistration := b.nextRegistration + 1 }

/-- Routes a topic to a channel, unless that has been done; answers the place of the channel. -/
def route (b : Bus) (topic : Topic) : Nat × Bus :=
  match b.routes.get? topic with
  | some place => (place, b)
  | none => (b.channels.length, b.create topic)

def registrationAt (b : Bus) (place : Nat) : UInt64 :=
  match b.channels[place]? with
  | some ch => ch.registration
  | none => 0

def attach (b : Bus) (topic : Topic) (place : Nat) : Handle × Bus :=
  (⟨topic, b.registrationAt place, place, b.nextReader⟩,
    { b.modify place fun ch => ch.enter b.nextReader with nextReader := b.nextReader + 1 })

/-- Subscribes to a topic; a refusal changes nothing. -/
def subscribe (b : Bus) (topic : Topic) : Except BusError Handle × Bus :=
  if Text.isBlank topic then (.error (.invalidTopic topic), b)
  else if b.closed then (.error .closed, b)
  else
    let (place, b) := b.route topic
    let (handle, b) := b.attach topic place
    (.ok handle, b)

def endChannel (b : Bus) (place : Nat) : Bus := b.modify place TopicChannel.close

/-- Ends the channel that a topic is routed to; answers whether there was one. -/
def unsubscribe (b : Bus) (topic : Topic) : Bool × Bus :=
  match b.routes.get? topic with
  | some place => (true, { b.endChannel place with routes := b.routes.erase topic })
  | none => (false, b)

/-- Ends every channel that is routed to, and refuses new registrations from now on. -/
def close (b : Bus) : Bus :=
  { b.routes.values.foldl endChannel b with closed := true, routes := {} }

/-! ## Events -/

/-- Publishes an event; answers how many readers it reaches. Without readers it is not kept. -/
def publish (b : Bus) (e : Event) : Nat × Bus :=
  let b := { b with published := b.published + 1 }
  match b.routes.get? e.topic with
  | none => (0, b)
  | some place =>
    let readers := b.receiverCount e.topic
    if readers = 0 then (0, b) else (readers, b.modify place fun ch => ch.push e)

/-- Where the reader of a handle is, and in which channel. -/
def position? (b : Bus) (h : Handle) : Option (TopicChannel × Nat) := do
  let ch ← b.channels[h.channel]?
  return (ch, ← ch.readers.get? h.reader)

def advance (b : Bus) (h : Handle) (next : Nat) : Bus :=
  b.modify h.channel fun ch => ch.move h.reader next

/-- Reads one item through a handle, if there is something to read. -/
def read? (b : Bus) (h : Handle) : Option (Item Event × Bus) := do
  let (ch, position) ← b.position? h
  let (item, next) ← ch.log.read? position
  return (item, b.advance h next)

/-- Reads one event through a handle; events that were overwritten are skipped without notice. -/
def receive (b : Bus) (h : Handle) : Received Event × Bus :=
  match b.position? h with
  | none => (.ended, b)
  | some (ch, position) =>
    let (received, next) := ch.log.receive position
    (received, b.advance h next)

/-- Gives a handle up. The topic keeps its channel, even without readers. -/
def drop (b : Bus) (h : Handle) : Bus := b.modify h.channel fun ch => ch.leave h.reader

/-! ## Refused and granted subscriptions -/

/-- A refusal leaves the bus as it was, and each of its two reasons holds. -/
theorem subscribe_error {b b' : Bus} {topic : Topic} {e : BusError}
    (h : b.subscribe topic = (.error e, b')) :
    b' = b ∧ (e = .invalidTopic topic ∧ Text.isBlank topic = true ∨ e = .closed ∧ b.closed = true) := by
  unfold subscribe at h
  split at h
  · rename_i hb
    simp only [Prod.mk.injEq, Except.error.injEq] at h
    exact ⟨h.2.symm, .inl ⟨h.1.symm, hb⟩⟩
  · split at h
    · rename_i hc
      simp only [Prod.mk.injEq, Except.error.injEq] at h
      exact ⟨h.2.symm, .inr ⟨h.1.symm, hc⟩⟩
    · simp at h

/-- A grant means a topic that is not blank and a bus that is open; afterwards the topic leads to
the channel of the handle. -/
theorem subscribe_ok {b b' : Bus} {topic : Topic} {hd : Handle}
    (h : b.subscribe topic = (.ok hd, b')) :
    Text.isBlank topic = false ∧ b.closed = false ∧ hd.topic = topic ∧
      b'.routes.get? topic = some hd.channel := by
  unfold subscribe at h
  split at h
  · simp at h
  · rename_i hb
    split at h
    · simp at h
    · rename_i hc
      simp only [Prod.mk.injEq, Except.ok.injEq] at h
      obtain ⟨rfl, rfl⟩ := h
      refine ⟨by simpa using hb, by simpa using hc, rfl, ?_⟩
      simp only [attach, modify, route]
      cases hr : b.routes.get? topic with
      | some place => exact hr
      | none => simp [create, Table.get?_set]

end Bus

end EventFanout
