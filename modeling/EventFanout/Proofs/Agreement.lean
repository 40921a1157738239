/-
EventFanout.Proofs.Agreement — the registrations of a hub and those of its bus.

A hub keeps the number of the registration that it got for each topic; the bus may meanwhile have
ended that registration, and even have given out another, for it serves others too. Nobody tells the
hub. It finds out from the channel that it reads, and only after everything that the channel still
holds.

Main statement: `registrations_agree`. At any time, for any topic that the hub has on record, the bus
holds just that registration and the hub reads its channel (`Current`); or the channel has ended, the
hub will read what is left of it and then the end, once, and whatever registration the bus holds by
now is a later one (`Superseded`).

## How the proof goes

Whatever the hub does on the bus is done by operations of the bus (`perform_onBus`), so the record of
the bus stays in order (`Bus.Evolves.registered`). The channel a hub reads is one of its topic, has the
number that the hub has on record, and is routed to unless it has ended. If it has, then the
channel that the topic is routed to, if any, came later.
-/
import EventFanout.Proofs.Attachment
import EventFanout.Proofs.Delivery.Draining

namespace EventFanout.World

variable {w : World} {t : Topic}

/-! ## What the hub asks of the bus -/

theorem foldl_onBus {α : Type} {f : World → α → World}
    (hf : ∀ w a, Bus.Evolves w.bus (f w a).bus) (l : List α) (w : World) :
    Bus.Evolves w.bus (l.foldl f w).bus := by
  induction l generalizing w with
  | nil => exact .refl
  | cons a rest ih => exact (hf w a).trans (ih (f w a))

theorem dropFeed_onBus (w : World) (t : Topic) : Bus.Evolves w.bus (w.dropFeed t).bus := by
  unfold dropFeed
  split
  · exact .single (.drop _)
  · exact .refl

theorem releaseOnBus_onBus (w : World) (t : Topic) : Bus.Evolves w.bus (w.releaseOnBus t).bus :=
  (dropFeed_onBus w t).tail (.unsubscribe t)

theorem releaseTopic_onBus (w : World) (t : Topic) : Bus.Evolves w.bus (w.releaseTopic t).bus := by
  rcases releaseTopic_cases w t with ⟨_, h⟩ | ⟨_, _, _, h⟩ | ⟨_, _, _, h⟩ <;> rw [h]
  · exact .refl
  · exact .refl
  · exact releaseOnBus_onBus { w with hub.topics := w.hub.topics.erase t } t

theorem uninstall_onBus (w : World) (id : SubscriptionId) (r : SubscriptionError) :
    Bus.Evolves w.bus (w.uninstall id r).bus := by
  rcases uninstall_cases w id r with ⟨_, h⟩ | ⟨k, s, _, h⟩ <;> rw [h]
  · exact .refl
  · exact releaseTopic_onBus { w with hub.index := w.hub.index.erase (k, id) } s.topic

theorem closeTopic_onBus (w : World) (t : Topic) : Bus.Evolves w.bus (w.closeTopic t).bus := by
  unfold closeTopic
  split
  · rw [publishView_bus, record_bus, note_bus, (foldl_endWithTopic_bus t _ _).1]
    exact dropFeed_onBus { w with hub.topics := w.hub.topics.erase t } t
  · exact .refl

theorem dispatch_onBus (w : World) (t : Topic) (item : Item Event) :
    Bus.Evolves w.bus (w.dispatch t item).bus := by
  cases item with
  | entry e =>
    have hgone := foldl_onBus (fun w id => uninstall_onBus w id .closed)
      (w.goneFrom t e.payload) (w.delivered t e.payload)
    rwa [← fanOut_eq, delivered_bus] at hgone
  | lagged n => exact .refl
  | ended => exact closeTopic_onBus w t

theorem shutdown_onBus (w : World) : Bus.Evolves w.bus w.shutdown.bus := by
  have hrelease := foldl_onBus releaseOnBus_onBus w.refuseAll.endAll.hub.topics.keys
    { w.refuseAll.endAll with hub.topics := {} }
  rwa [show w.refuseAll.endAll.bus = w.bus from (endAll_bus _).trans (refuseAll_bus w)] at hrelease

theorem perform_onBus (hs : w.hub.Consistent) (turn : Turn) :
    Bus.Evolves w.bus (w.perform turn).bus := by
  cases turn with
  | stop => exact shutdown_onBus w
  | install =>
    rcases install_feeds hs with ⟨hb, -⟩ | ⟨t, hd, bus, -, hsub, hb, -⟩ <;> rw [hb]
    · exact .refl
    · have hstep : Bus.Step w.bus (w.bus.subscribe t).2 := .subscribe t
      rw [hsub] at hstep
      exact .single hstep
  | remove =>
    simp only [perform]
    split
    · exact .refl
    · rename_i id rest _
      exact uninstall_onBus { w with hub.removals := rest } id .unsubscribed
  | read t =>
    simp only [perform]
    split
    · exact .refl
    · rename_i item bus hread
      obtain ⟨h, -, hr⟩ := Option.bind_eq_some_iff.mp hread
      exact .head (.read hr) (dispatch_onBus { w with bus } t item)

theorem act_onBus (hs : w.hub.Consistent) (a : Action) : Bus.Evolves w.bus (w.act a).bus := by
  by_cases hleaves : a.leavesBus = true
  · rw [act_bus w hleaves]
    exact .refl
  cases a with
  | turn turn =>
    simp only [act]
    split
    · exact perform_onBus hs turn
    · exact .refl
  | publish e => exact .single (.publish e)
  | busSubscribe t => exact .single (.subscribe t)
  | busUnsubscribe t => exact .single (.unsubscribe t)
  | busClose => exact .single .close
  | busReceive h =>
    simp only [act]
    split
    · exact .refl
    · exact .single (.receive h)
  | busDrop h =>
    simp only [act]
    split
    · exact .refl
    · exact .single (.drop h)
  | _ => exact absurd rfl hleaves

theorem after_onBus (hw : w.Orderly) (run : List Action) : Bus.Evolves w.bus (w.after run).bus := by
  induction run generalizing w with
  | nil => exact .refl
  | cons a rest ih => exact (act_onBus hw.sound.consistent a).trans (ih (hw.act a))

/-! ## Registrations of the two sides -/

/-- The bus holds the registration that the hub has on record for a topic, and the hub reads the
channel of the topic. -/
def Current (w : World) (t : Topic) (r : Registration) (h : Handle) : Prop :=
  w.bus.registration? t = some r.number ∧ w.bus.routes.get? t = some h.channel

/-- The registration that the hub has on record for a topic is over, and the hub has still to read
that. -/
structure Superseded (w : World) (t : Topic) (r : Registration) (h : Handle) (ch : TopicChannel) :
    Prop where
  dropped : ch.log.closed = true ∧ ∀ t', w.bus.routes.get? t' ≠ some h.channel
  /-- Reading on gives what the channel holds, after at most one mark of loss, and then the end. -/
  rest : ∃ mark : List (Item Event), (mark = [] ∨ ∃ n, mark = [.lagged n]) ∧
    ∀ n, w.bus.readOn h n = (mark ++ (w.bus.heldFor h).map Item.entry ++ [Item.ended]).take n
  /-- There is one end: when the hub reads it, it gives the handle up. -/
  once : w.item? t = some .ended → (w.act (.turn (.read t))).hub.feeds.get? t = none
  later : ∀ number, w.bus.registration? t = some number → r.number < number

/-- When the hub reads the end of a topic, it does not read the topic any more. -/
theorem feeds_of_ended (hw : w.Orderly) (hr : w.hub.running = true)
    (hitem : w.item? t = some .ended) : (w.act (.turn (.read t))).hub.feeds.get? t = none := by
  obtain ⟨h, -, -, next', ht, -, -, hread⟩ := reading_of_item hitem
  rw [act, if_pos hr, hread]
  exact closeTopic_feed (w := { w with bus := w.bus.advance h next' }) hw.sound.consistent ht

/-- A channel of the topic that has ended came before the one the topic is routed to. -/
theorem superseded (hw : w.Orderly) (hb : w.bus.Registered) (hr : w.hub.running = true)
    (hfew : w.bus.channels.length < 2 ^ 64) {r : Registration} {h : Handle} {ch : TopicChannel}
    {next : Nat} (hp : w.bus.position? h = some (ch, next)) (ht : ch.topic = t)
    (hnumber : ch.registration = r.number) (hclosed : ch.log.closed = true) :
    w.Superseded t r h ch := by
  obtain ⟨hch, -⟩ := Bus.position?_eq_some.mp hp
  have hnot : ∀ t', w.bus.routes.get? t' ≠ some h.channel := by
    intro t' hroute
    obtain ⟨ch', hch', -, hopen⟩ := hb.wired t' _ hroute
    rw [hch] at hch'
    cases hch'
    rw [hclosed] at hopen
    cases hopen
  refine ⟨⟨hclosed, hnot⟩, ⟨Bus.lossMark ch.log next, ?_, Bus.readOn_of_ended hp hclosed⟩,
    feeds_of_ended hw hr, ?_⟩
  · unfold Bus.lossMark
    split
    · exact .inr ⟨_, rfl⟩
    · exact .inl rfl
  · intro number hheld
    cases hroute : w.bus.routes.get? t with
    | none => simp [Bus.registration?, Bus.channel?, hroute, bind, Option.bind] at hheld
    | some place =>
      obtain ⟨ch', hch', -⟩ := hb.wired t place hroute
      rw [Bus.Registered.registration?_eq hroute hch', Option.some.injEq] at hheld
      have hle := hb.latest t place h.channel ch hroute hch ht
      have hne : h.channel ≠ place := by
        rintro rfl
        exact hnot t hroute
      rw [← hnumber, ← hheld]
      exact hb.registration_lt hfew hch hch' (Nat.lt_of_le_of_ne hle hne)

/--
**The hub and its bus agree on registrations.** After any run of a new hub on a new bus, whatever
others do on the bus, as long as fewer than 2^64 channels have been created: for every topic that the
hub has on record it reads a channel of the topic whose number is the one on record, and that
registration is current, or it has been superseded and the hub will read that it is over.
-/
theorem registrations_agree {capacity : Nat} {config : Config} {governor : Governor}
    {run : List Action} {t : Topic} {r : Registration}
    (hfew : ((start (Bus.sized capacity) config governor).after run).bus.channels.length < 2 ^ 64)
    (hreg : ((start (Bus.sized capacity) config governor).after run).hub.topics.get? t = some r) :
    let w := (start (Bus.sized capacity) config governor).after run
    ∃ h ch next, w.hub.feeds.get? t = some h ∧ w.bus.position? h = some (ch, next) ∧
      ch.topic = t ∧ ch.registration = r.number ∧ (w.Current t r h ∨ w.Superseded t r h ch) := by
  intro w
  have hstart := start_orderly capacity config governor
  have hw : w.Orderly := hstart.after run
  have hn : w.Numbered := after_numbered hstart (start_numbered capacity config governor) run
  have hb : w.bus.Registered := (after_onBus hstart run).registered (Bus.sized_registered capacity)
  have hr : w.hub.running = true := by
    by_contra hstopped
    rw [(hw.sound.stopped (by simpa using hstopped)).2] at hreg
    cases hreg
  obtain ⟨h, hfeed⟩ := hw.sound.consistent.get?_feed hreg
  obtain ⟨ch, next, hch, ht, hnext, -, hroute⟩ := (hw.fed.serves t h hfeed).channel
  have hp := Bus.position?_eq_some.mpr ⟨hch, hnext⟩
  have hnumber := hn.current t r h ch hreg hfeed hch
  refine ⟨h, ch, next, hfeed, hp, ht, hnumber, ?_⟩
  rcases hroute with hroute | hclosed
  · refine .inl ⟨?_, hroute⟩
    rw [← hnumber]
    exact Bus.Registered.registration?_eq hroute hch
  · exact .inr (superseded hw hb hr hfew hp ht hnumber hclosed)

/-- Somebody unsubscribes the topic of a hub right after an event has been published there, and
somebody subscribes to it again. The hub has the first registration on record and the bus holds the
second; the hub has still to read the event, and then the end. -/
theorem registrations_agree_superseded :
    let e : Event := ⟨headerTopic, .raw .null⟩
    let run := [.makeWithin .newHeads none, .submit (.issued 0), .turn .install, .publish e,
      .busUnsubscribe headerTopic, .busSubscribe headerTopic]
    let w := (start (Bus.sized 4) {} .absent).after run
    w.bus.channels.length < 2 ^ 64 ∧ w.hub.topics.get? headerTopic = some ⟨1, 1⟩ ∧
      w.bus.registration? headerTopic = some 2 ∧
      (∃ h ch, w.hub.feeds.get? headerTopic = some h ∧ w.Superseded headerTopic ⟨1, 1⟩ h ch) ∧
      (w.bus.heldFor ⟨headerTopic, 1, 0, 0⟩).length = 1 := by
  intro e run w
  have hfew : w.bus.channels.length < 2 ^ 64 := by decide
  have hreg : w.hub.topics.get? headerTopic = some ⟨1, 1⟩ := by decide
  have hbus : w.bus.registration? headerTopic = some 2 := by decide
  obtain ⟨h, ch, next, hfeed, -, -, -, hcase⟩ := registrations_agree hfew hreg
  refine ⟨hfew, hreg, hbus, ⟨h, ch, hfeed, hcase.resolve_left fun hcurrent => ?_⟩, by decide⟩
  have hone : w.bus.registration? headerTopic = some 1 := hcurrent.1
  rw [hbus] at hone
  exact absurd hone (by decide)

end EventFanout.World
