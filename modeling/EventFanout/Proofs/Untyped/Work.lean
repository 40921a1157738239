/-
EventFanout.Proofs.Untyped.Work — the form of a payload makes no difference to the work of a hub.

A payload is typed, or it is raw JSON. `untyped` makes raw JSON of the typed ones: of a payload, of
an event, and of everything on a bus. A subscription makes the same of both forms but for the error
it reports (`Subscription.Indifferent`), as a payload is read back from its JSON and the JSON of one
sort of payload is not taken for the other; and the hub acts on an error without looking at it.

So whatever the bus or the hub does, to do it and then to forget the types is to forget them first
(`perform_untyped`), one lemma an operation.
-/
import EventFanout.Hub.Turn
import EventFanout.Proofs.Codec
import EventFanout.Proofs.Hub.Evolution

namespace EventFanout

/-! ## Channels of other entries -/

def Item.map {α β : Type} (f : α → β) : Item α → Item β
  | .entry a => .entry (f a)
  | .lagged n => .lagged n
  | .ended => .ended

/-- What a reader gets that does not care for lost entries, with another entry. -/
def Received.map {α β : Type} (f : α → β) : Received α → Received β
  | .entry a => .entry (f a)
  | .ended => .ended
  | .pending => .pending

namespace Channel

variable {α β : Type} (f : α → β)

def map (c : Channel α) : Channel β :=
  { capacity := c.capacity
    history := c.history.map f
    size := c.size
    closed := c.closed
    size_eq := by rw [List.length_map, c.size_eq] }

theorem sentAt?_map (c : Channel α) (position : Nat) :
    Channel.sentAt? (c.map f) position = (c.sentAt? position).map f := by
  simp only [sentAt?, map, List.getElem?_map]
  split <;> rfl

theorem read?_map (c : Channel α) (next : Nat) :
    (c.map f).read? next = (c.read? next).map fun r => (r.1.map f, r.2) := by
  have hold : (c.map f).oldest = c.oldest := rfl
  have hclosed : (c.map f).closed = c.closed := rfl
  simp only [read?, hold, hclosed, sentAt?_map]
  split
  · rfl
  · cases c.sentAt? next with
    | some a => rfl
    | none => cases c.closed <;> rfl

theorem receive_map (c : Channel α) (next : Nat) :
    (c.map f).receive next = ((c.receive next).1.map f, (c.receive next).2) := by
  have hold : (c.map f).oldest = c.oldest := rfl
  have hclosed : (c.map f).closed = c.closed := rfl
  simp only [receive, hold, hclosed, sentAt?_map]
  cases c.sentAt? (max next c.oldest) with
  | some a => rfl
  | none => cases c.closed <;> rfl

end Channel

/-! ## Untyped payloads -/

/-- The payload as raw JSON, as its producer would have published it untyped. -/
def Payload.untyped : Payload → Payload
  | .header h => .raw h.toJson
  | .transaction t => .raw t.toJson
  | .raw value => .raw value

/-- The event with its payload as raw JSON. -/
def Event.untyped (e : Event) : Event := { e with payload := e.payload.untyped }

def TopicChannel.untyped (ch : TopicChannel) : TopicChannel :=
  { ch with log := ch.log.map Event.untyped }

def Bus.untyped (b : Bus) : Bus := { b with channels := b.channels.map TopicChannel.untyped }

def World.untyped (w : World) : World := { w with bus := w.bus.untyped }

theorem Event.untyped_untyped (e : Event) : e.untyped.untyped = e.untyped := by
  obtain ⟨t, p⟩ := e
  cases p <;> rfl

/-! ## What a payload means -/

namespace Subscription

variable (s : Subscription)

/-- The form of a payload makes no difference to a subscription where it is of the sort that the kind
is about. Where it is of the other sort either form is an error, and only which one differs. -/
structure Indifferent (s : Subscription) : Prop where
  header : ∀ h, s.kind = .newHeads → s.notification (.header h) = .ok (some (.header h)) ∧
    s.notification (.raw h.toJson) = .ok (some (.header h))
  transaction : ∀ t, s.kind ≠ .newHeads → ∃ n, s.notification (.transaction t) = .ok n ∧
    s.notification (.raw t.toJson) = .ok n
  noHeader : ∀ h, s.kind ≠ .newHeads →
    s.notification (.header h) = .error (.payloadMismatch s.kind "NewBlockHeader") ∧
    s.notification (.raw h.toJson) = .error (.decode .shape)
  noTransaction : ∀ t, s.kind = .newHeads →
    s.notification (.transaction t) = .error (.payloadMismatch s.kind "Tx") ∧
    s.notification (.raw t.toJson) = .error (.decode .shape)

theorem transaction_raw (t : Transaction) : s.transaction (.raw t.toJson) = .ok t := by
  rw [Subscription.transaction, Transaction.ofJson_toJson]
  rfl

theorem transaction_raw_header (h : Header) :
    s.transaction (.raw h.toJson) = .error (.decode .shape) := by
  rw [Subscription.transaction, Transaction.ofJson_header]
  rfl

theorem header_raw (h : Header) : s.header (.raw h.toJson) = .ok h := by
  rw [Subscription.header, Header.ofJson_toJson]
  rfl

theorem header_raw_transaction (t : Transaction) :
    s.header (.raw t.toJson) = .error (.decode .shape) := by
  rw [Subscription.header, Header.ofJson_transaction]
  rfl

theorem indifferent : s.Indifferent where
  header := by
    intro h hk
    simp only [notification, hk, header_raw]
    exact ⟨rfl, rfl⟩
  transaction := by
    intro t hk
    cases hkind : s.kind with
    | newHeads => exact absurd hkind hk
    | logs =>
      simp only [notification, hkind, transaction_raw]
      exact ⟨_, rfl, rfl⟩
    | pendingTransactions =>
      simp only [notification, hkind, transaction_raw]
      exact ⟨_, rfl, rfl⟩
  noHeader := by
    intro h hk
    cases hkind : s.kind with
    | newHeads => exact absurd hkind hk
    | logs =>
      simp only [notification, hkind, transaction_raw_header]
      exact ⟨by simp only [Subscription.transaction, hkind]; rfl, rfl⟩
    | pendingTransactions =>
      simp only [notification, hkind, transaction_raw_header]
      exact ⟨by simp only [Subscription.transaction, hkind]; rfl, rfl⟩
  noTransaction := by
    intro t hk
    simp only [notification, hk, header_raw_transaction]
    exact ⟨by simp only [Subscription.header, hk]; rfl, rfl⟩

/-- A payload in either form comes to the same, errors apart. -/
theorem notification_untyped (p : Payload) :
    (s.notification p.untyped).toOption = (s.notification p).toOption := by
  have hs := s.indifferent
  cases p with
  | raw value => rfl
  | header h =>
    by_cases hk : s.kind = .newHeads
    · obtain ⟨htyped, hraw⟩ := hs.header h hk
      rw [Payload.untyped, htyped, hraw]
    · obtain ⟨htyped, hraw⟩ := hs.noHeader h hk
      rw [Payload.untyped, htyped, hraw]
      rfl
  | transaction t =>
    by_cases hk : s.kind = .newHeads
    · obtain ⟨htyped, hraw⟩ := hs.noTransaction t hk
      rw [Payload.untyped, htyped, hraw]
      rfl
    · obtain ⟨n, htyped, hraw⟩ := hs.transaction t hk
      rw [Payload.untyped, htyped, hraw]

end Subscription

/-! ## The bus -/

/-- Changing an entry of a list and replacing every entry can be done in either order. -/
theorem map_modify {α β : Type} {g : α → β} {f : α → α} {f' : β → β}
    (h : ∀ a, g (f a) = f' (g a)) (l : List α) (i : Nat) :
    (l.modify i f).map g = (l.map g).modify i f' := by
  apply List.ext_getElem?
  intro j
  simp only [List.getElem?_map, List.getElem?_modify]
  cases l[j]? with
  | none => rfl
  | some a => by_cases hij : i = j <;> simp [hij, h]

namespace Bus

variable (b : Bus)

theorem untyped_modify (f f' : TopicChannel → TopicChannel)
    (hf : ∀ ch, (f ch).untyped = f' ch.untyped) (place : Nat) :
    (b.modify place f).untyped = b.untyped.modify place f' := by
  simp only [modify, untyped, map_modify hf]

theorem getElem?_untyped (place : Nat) :
    b.untyped.channels[place]? = b.channels[place]?.map TopicChannel.untyped :=
  List.getElem?_map

theorem registrationAt_untyped (place : Nat) :
    b.untyped.registrationAt place = b.registrationAt place := by
  simp only [registrationAt, getElem?_untyped]
  cases b.channels[place]? <;> rfl

theorem attach_untyped (t : Topic) (place : Nat) :
    b.untyped.attach t place = ((b.attach t place).1, (b.attach t place).2.untyped) := by
  have hmodify := b.untyped_modify (fun ch => ch.enter b.nextReader)
    (fun ch => ch.enter b.nextReader) (fun _ => rfl) place
  simp only [attach, registrationAt_untyped]
  rw [show b.untyped.nextReader = b.nextReader from rfl, ← hmodify]
  rfl

theorem create_untyped (t : Topic) : b.untyped.create t = (b.create t).untyped := by
  simp only [create, untyped, List.length_map, List.map_append]
  rfl

theorem route_untyped (t : Topic) :
    b.untyped.route t = ((b.route t).1, (b.route t).2.untyped) := by
  simp only [route]
  rw [show b.untyped.routes = b.routes from rfl]
  cases b.routes.get? t with
  | some place => rfl
  | none =>
    simp only [create_untyped]
    rw [show b.untyped.channels.length = b.channels.length from List.length_map _]

theorem subscribe_untyped (t : Topic) :
    b.untyped.subscribe t = ((b.subscribe t).1, (b.subscribe t).2.untyped) := by
  simp only [subscribe]
  rw [show b.untyped.closed = b.closed from rfl]
  split
  · rfl
  · split
    · rfl
    · simp only [route_untyped, attach_untyped]

theorem endChannel_untyped (place : Nat) :
    b.untyped.endChannel place = (b.endChannel place).untyped :=
  (b.untyped_modify .close .close (fun _ => rfl) place).symm

theorem unsubscribe_untyped (t : Topic) :
    b.untyped.unsubscribe t = ((b.unsubscribe t).1, (b.unsubscribe t).2.untyped) := by
  simp only [unsubscribe]
  rw [show b.untyped.routes = b.routes from rfl]
  cases b.routes.get? t with
  | some place =>
    simp only [endChannel_untyped]
    rfl
  | none => rfl

theorem foldl_endChannel_untyped (places : List Nat) (b : Bus) :
    places.foldl endChannel b.untyped = (places.foldl endChannel b).untyped := by
  induction places generalizing b with
  | nil => rfl
  | cons place rest ih => rw [List.foldl_cons, endChannel_untyped, ih, List.foldl_cons]

theorem close_untyped : b.untyped.close = b.close.untyped := by
  simp only [close]
  rw [show b.untyped.routes = b.routes from rfl, foldl_endChannel_untyped]
  rfl

theorem receiverCount_untyped (t : Topic) :
    b.untyped.receiverCount t = b.receiverCount t := by
  simp only [receiverCount, channel?]
  rw [show b.untyped.routes = b.routes from rfl]
  cases b.routes.get? t with
  | none => rfl
  | some place =>
    simp only [bind, Option.bind, getElem?_untyped]
    cases b.channels[place]? <;> rfl

theorem publish_untyped (e : Event) :
    b.untyped.publish e.untyped = ((b.publish e).1, (b.publish e).2.untyped) := by
  have hcount : ∀ n, ({ b with published := n } : Bus).untyped.receiverCount e.topic =
      ({ b with published := n } : Bus).receiverCount e.topic :=
    fun n => receiverCount_untyped { b with published := n } e.topic
  have hpush : ∀ n place, (({ b with published := n } : Bus).modify place
      fun ch => ch.push e).untyped =
        ({ b with published := n } : Bus).untyped.modify place fun ch => ch.push e.untyped :=
    fun n place => untyped_modify { b with published := n } (·.push e) (·.push e.untyped)
      (fun _ => rfl) place
  simp only [publish]
  rw [show b.untyped.routes.get? e.untyped.topic = b.routes.get? e.topic from rfl]
  cases b.routes.get? e.topic with
  | none => rfl
  | some place =>
    have hc := hcount (b.published + 1)
    have hp := hpush (b.published + 1) place
    simp only [untyped] at hc hp ⊢
    simp only [show e.untyped.topic = e.topic from rfl, hc]
    split
    · rfl
    · rw [hp]

theorem position?_untyped (h : Handle) :
    b.untyped.position? h = (b.position? h).map fun p => (p.1.untyped, p.2) := by
  simp only [position?, getElem?_untyped]
  cases b.channels[h.channel]? with
  | none => rfl
  | some ch =>
    simp only [Option.map_some, bind, Option.bind]
    rw [show ch.untyped.readers = ch.readers from rfl]
    cases ch.readers.get? h.reader <;> rfl

theorem advance_untyped (h : Handle) (next : Nat) :
    b.untyped.advance h next = (b.advance h next).untyped :=
  (b.untyped_modify (·.move h.reader next) (·.move h.reader next) (fun _ => rfl) h.channel).symm

theorem read?_untyped (h : Handle) :
    b.untyped.read? h = (b.read? h).map fun r => (r.1.map Event.untyped, r.2.untyped) := by
  simp only [read?, position?_untyped]
  cases b.position? h with
  | none => rfl
  | some p =>
    obtain ⟨ch, next⟩ := p
    simp only [Option.map_some, bind, Option.bind, TopicChannel.untyped, Channel.read?_map]
    cases ch.log.read? next with
    | none => rfl
    | some r => simp only [Option.map_some, pure, advance_untyped]

theorem receive_untyped (h : Handle) :
    b.untyped.receive h = ((b.receive h).1.map Event.untyped, (b.receive h).2.untyped) := by
  simp only [receive, position?_untyped]
  cases b.position? h with
  | none => rfl
  | some p =>
    obtain ⟨ch, next⟩ := p
    simp only [Option.map_some, TopicChannel.untyped, Channel.receive_map, advance_untyped]

theorem drop_untyped (h : Handle) : b.untyped.drop h = (b.drop h).untyped :=
  (b.untyped_modify (·.leave h.reader) (·.leave h.reader) (fun _ => rfl) h.channel).symm

end Bus

/-! ## The hub's work -/

namespace World

variable (w : World)

theorem dropFeed_untyped (t : Topic) : w.untyped.dropFeed t = (w.dropFeed t).untyped := by
  simp only [dropFeed]
  rw [show w.untyped.hub = w.hub from rfl]
  cases w.hub.feeds.get? t with
  | none => rfl
  | some h =>
    simp only [untyped, Bus.drop_untyped]

theorem releaseOnBus_untyped (t : Topic) :
    w.untyped.releaseOnBus t = (w.releaseOnBus t).untyped := by
  simp only [releaseOnBus, dropFeed_untyped]
  rw [show (w.dropFeed t).untyped.bus = (w.dropFeed t).bus.untyped from rfl,
    Bus.unsubscribe_untyped]
  rfl

theorem register_untyped (t : Topic) :
    w.untyped.register t = (w.register t).map untyped := by
  simp only [register]
  rw [show w.untyped.hub = w.hub from rfl, show w.untyped.bus = w.bus.untyped from rfl,
    Bus.subscribe_untyped]
  split
  · rfl
  · cases w.bus.subscribe t with
    | mk result bus => cases result <;> rfl

theorem install_untyped (s : Subscription) : w.untyped.install s = (w.install s).untyped := by
  simp only [install, register_untyped]
  rw [show w.untyped.hub = w.hub from rfl]
  split
  · rfl
  · split
    · rfl
    · cases w.register s.topic <;> rfl

theorem releaseTopic_untyped (t : Topic) :
    w.untyped.releaseTopic t = (w.releaseTopic t).untyped := by
  simp only [releaseTopic]
  rw [show w.untyped.hub = w.hub from rfl]
  cases w.hub.topics.get? t with
  | none => rfl
  | some r =>
    simp only
    split
    · rfl
    · exact releaseOnBus_untyped { w with hub.topics := w.hub.topics.erase t } t

theorem uninstall_untyped (id : SubscriptionId) (r : SubscriptionError) :
    w.untyped.uninstall id r = (w.uninstall id r).untyped := by
  simp only [uninstall]
  rw [show w.untyped.hub = w.hub from rfl]
  cases w.hub.find? id with
  | none => rfl
  | some found =>
    have hrelease := releaseTopic_untyped { w with hub.index := w.hub.index.erase found.1 }
      found.2.topic
    simp only [untyped] at hrelease ⊢
    simp only [hrelease]
    rfl

theorem outcome_untyped (lines : Lines) (p : Payload) (s : Subscription) :
    outcome lines p.untyped s = outcome lines p s := by
  have hn := s.notification_untyped p
  unfold outcome
  cases lines.get? s.id with
  | none => rfl
  | some line =>
    simp only
    split
    · rfl
    · cases htyped : s.notification p with
      | ok o =>
        cases hraw : s.notification p.untyped with
        | ok o' =>
          simp only [htyped, hraw, Except.toOption, Option.some.injEq] at hn
          rw [hn]
        | error e => simp [htyped, hraw, Except.toOption] at hn
      | error e =>
        cases hraw : s.notification p.untyped with
        | ok o' => simp [htyped, hraw, Except.toOption] at hn
        | error e' => rfl

theorem foldl_untyped {α : Type} {f : World → α → World}
    (hf : ∀ w a, f w.untyped a = (f w a).untyped) (l : List α) (w : World) :
    l.foldl f w.untyped = (l.foldl f w).untyped := by
  induction l generalizing w with
  | nil => rfl
  | cons a rest ih => rw [List.foldl_cons, hf, ih, List.foldl_cons]

theorem fanOut_untyped (t : Topic) (p : Payload) :
    w.untyped.fanOut t p.untyped = (w.fanOut t p).untyped := by
  have houtcomes : w.untyped.outcomes t p.untyped = w.outcomes t p := by
    simp only [outcomes]
    exact List.map_congr_left fun s _ => congrArg (s.id, ·) (outcome_untyped w.lines p s)
  have hdelivered : w.untyped.delivered t p.untyped = (w.delivered t p).untyped := by
    simp only [delivered, houtcomes]
    rfl
  have hgone : w.untyped.goneFrom t p.untyped = w.goneFrom t p := by
    simp only [goneFrom, houtcomes]
  rw [fanOut_eq, fanOut_eq, hdelivered, hgone]
  exact foldl_untyped (f := fun w id => w.uninstall id .closed)
    (fun w id => uninstall_untyped w id .closed) _ _

theorem endWithTopic_untyped (t : Topic) (s : Subscription) :
    endWithTopic t w.untyped s = (endWithTopic t w s).untyped := by
  simp only [endWithTopic]
  rw [show w.untyped.hub = w.hub from rfl]
  cases w.hub.find? s.id <;> rfl

theorem closeTopic_untyped (t : Topic) : w.untyped.closeTopic t = (w.closeTopic t).untyped := by
  have hdrop := dropFeed_untyped { w with hub.topics := w.hub.topics.erase t } t
  simp only [untyped] at hdrop
  simp only [closeTopic]
  rw [show w.untyped.hub = w.hub from rfl]
  split
  · simp only [untyped, hdrop]
    rw [show ∀ w : World, ({ w with bus := w.bus.untyped } : World) = w.untyped from fun _ => rfl,
      foldl_untyped (fun w s => endWithTopic_untyped w t s)]
    rfl
  · rfl

theorem dispatch_untyped (t : Topic) (item : Item Event) :
    w.untyped.dispatch t (item.map Event.untyped) = (w.dispatch t item).untyped := by
  cases item with
  | entry e => exact fanOut_untyped w t e.payload
  | lagged n => rfl
  | ended => exact closeTopic_untyped w t

theorem shutdown_untyped : w.untyped.shutdown = w.shutdown.untyped := by
  have hrefuse : w.untyped.refuseAll = w.refuseAll.untyped :=
    congrArg (fun w : World => { w with hub.removals := [] })
      (foldl_untyped (f := refuseWaiting) (fun _ _ => rfl) w.hub.installs
        { w with hub.installs := [] })
  have hend : ∀ w : World, w.untyped.endAll = w.endAll.untyped := fun w =>
    foldl_untyped (f := endInstalled) (fun _ _ => rfl) w.hub.index.values
      { w with hub.index := {} }
  have hrelease : ∀ w : World, w.untyped.releaseAll = w.releaseAll.untyped := fun w =>
    foldl_untyped (f := releaseOnBus) releaseOnBus_untyped w.hub.topics.keys
      { w with hub.topics := {} }
  rw [shutdown_eq, shutdown_eq, hrefuse, hend, hrelease]
  rfl

/-- What there is to read from a topic. -/
theorem read_untyped (t : Topic) :
    (w.untyped.hub.feeds.get? t).bind w.untyped.bus.read? =
      ((w.hub.feeds.get? t).bind w.bus.read?).map
        fun r => (r.1.map Event.untyped, r.2.untyped) := by
  rw [show w.untyped.hub = w.hub from rfl, show w.untyped.bus = w.bus.untyped from rfl]
  cases w.hub.feeds.get? t with
  | none => rfl
  | some h => exact Bus.read?_untyped w.bus h

/-- The hub goes on with the same step. -/
theorem turn?_untyped : w.untyped.turn? = w.turn? := by
  have hready : w.untyped.isReady = w.isReady := by
    funext t
    simp only [isReady, read_untyped, Option.isSome_map]
  simp only [turn?, hready]
  rfl

theorem perform_untyped (t : Turn) : w.untyped.perform t = (w.perform t).untyped := by
  cases t with
  | stop => exact shutdown_untyped w
  | install =>
    simp only [perform]
    rw [show w.untyped.hub = w.hub from rfl]
    cases w.hub.installs with
    | nil => rfl
    | cons s rest => exact install_untyped { w with hub.installs := rest } s
  | remove =>
    simp only [perform]
    rw [show w.untyped.hub = w.hub from rfl]
    cases w.hub.removals with
    | nil => rfl
    | cons id rest => exact uninstall_untyped { w with hub.removals := rest } id .unsubscribed
  | read topic =>
    simp only [perform, read_untyped]
    cases (w.hub.feeds.get? topic).bind w.bus.read? with
    | none => rfl
    | some r => exact dispatch_untyped { w with bus := r.2 } topic r.1

end World

end EventFanout
