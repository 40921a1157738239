/-
EventFanout.Proofs.Hub.Feeds — the handles a hub reads its topics through.

Every feed of a hub has a reader of its own on a channel of its topic, and that channel
is the one the topic is routed to unless it has been closed (`Bus.Serves`). Giving feeds
up, one or many, is one relation (`World.Quits`): nothing is sent, the other readers stay
where they are, and no topic is routed to a channel whose feed is gone.

Main statement: `act_fed`. Every action keeps the feeds served.
-/
import EventFanout.Proofs.Bus
import EventFanout.Proofs.Lifecycle.Roster

namespace EventFanout

/-- A topic can be read through a handle: its reader is on a channel of the topic, within what has
been sent, and the channel is routed to or has been closed. -/
structure Bus.Serves (b : Bus) (t : Topic) (h : Handle) : Prop where
  topic : h.topic = t
  known : h.reader < b.nextReader
  channel : ∃ ch next, b.channels[h.channel]? = some ch ∧ ch.topic = t ∧
    ch.readers.get? h.reader = some next ∧ next ≤ ch.log.size ∧
    (b.routes.get? t = some h.channel ∨ ch.log.closed = true)

/-- A handle serves on as long as its reader stays. -/
theorem Bus.Serves.goes {b b' : Bus} {t : Topic} {h : Handle} {new : Nat → List Event}
    {moved : Nat → Nat → Prop} (hs : b.Serves t h) (hg : b.Goes b' new moved)
    (hm : ¬ moved h.channel h.reader) : b'.Serves t h where
  topic := hs.topic
  known := Nat.lt_of_lt_of_le hs.known hg.readers_le
  channel := by
    obtain ⟨ch, next, hch, ht, hr, hle, hroute⟩ := hs.channel
    obtain ⟨ch', hch', ht', hlog, hr'⟩ := hg.channel _ ch hch
    have hle' : next ≤ ch'.log.size := by
      rw [hlog.size]
      omega
    refine ⟨ch', next, hch', ht'.trans ht, (hr' _ hs.known hm).trans hr, hle', ?_⟩
    rcases hroute with hroute | hc
    · rcases hg.unrouted t _ hroute with hroute | ⟨ch'', hch'', hc⟩
      · exact .inl hroute
      · rw [hch'] at hch''
        cases hch''
        exact .inr hc
    · exact .inr (hlog.closed hc)

/-- The reader of a handle that serves is somewhere. -/
theorem Bus.Serves.position {b : Bus} {t : Topic} {h : Handle} (hs : b.Serves t h) :
    ∃ ch next, b.position? h = some (ch, next) ∧ next ≤ ch.log.size := by
  obtain ⟨ch, next, hch, -, hr, hle, -⟩ := hs.channel
  exact ⟨ch, next, position?_eq_some.mpr ⟨hch, hr⟩, hle⟩

namespace World

/-- The feeds of the hub are served by the bus. -/
structure Fed (w : World) : Prop where
  wired : w.bus.Wired
  serves : ∀ t h, w.hub.feeds.get? t = some h → w.bus.Serves t h

variable {w w' w'' : World}

theorem Fed.of_eq (hf : w.Fed) (hb : w'.bus = w.bus) (hx : w'.hub.feeds = w.hub.feeds) :
    w'.Fed := by
  constructor
  · rw [hb]
    exact hf.wired
  · rw [hb, hx]
    exact hf.serves

/-- Feeds of different topics are on different channels. -/
theorem Fed.unique (hf : w.Fed) {t t' : Topic} {h h' : Handle}
    (ht : w.hub.feeds.get? t = some h) (ht' : w.hub.feeds.get? t' = some h')
    (hc : h.channel = h'.channel) : t = t' := by
  obtain ⟨ch, _, hch, rfl, -⟩ := (hf.serves t h ht).channel
  obtain ⟨ch', _, hch', rfl, -⟩ := (hf.serves t' h' ht').channel
  rw [hc, hch'] at hch
  cases hch
  rfl

/-- What others do on the bus leaves the feeds served, if it keeps off their readers. -/
theorem Fed.goes (hf : w.Fed) {new : Nat → List Event} {moved : Nat → Nat → Prop}
    (hg : w.bus.Goes w'.bus new moved) (hx : w'.hub.feeds = w.hub.feeds)
    (hm : ∀ t h, w.hub.feeds.get? t = some h → ¬ moved h.channel h.reader) : w'.Fed where
  wired := hg.wired
  serves := by
    intro t h ht
    rw [hx] at ht
    exact (hf.serves t h ht).goes hg (hm t h ht)

/-! ## Giving feeds up -/

/-- The reader of a feed that has been given up. -/
def forsaken (w w' : World) (place r : Nat) : Prop :=
  ∃ t h, w.hub.feeds.get? t = some h ∧ w'.hub.feeds.get? t = none ∧ Bus.mover h place r

/-- Some feeds have been given up, perhaps none. -/
structure Quits (w w' : World) : Prop where
  goes : w.bus.Goes w'.bus Bus.silence (forsaken w w')
  feeds : ∀ t, w'.hub.feeds.get? t = w.hub.feeds.get? t ∨ w'.hub.feeds.get? t = none
  unrouted : ∀ t h, w.hub.feeds.get? t = some h → w'.hub.feeds.get? t = none →
    ∀ t', w'.bus.routes.get? t' ≠ some h.channel

namespace Quits

theorem of_eq (hf : w.Fed) (hb : w'.bus = w.bus) (hx : w'.hub.feeds = w.hub.feeds) :
    Quits w w' where
  goes := by
    rw [hb]
    exact .refl hf.wired
  feeds := fun t => .inl (by rw [hx])
  unrouted := by
    intro t h ht hn
    rw [hx, ht] at hn
    cases hn

theorem fed (hq : Quits w w') (hf : w.Fed) : w'.Fed where
  wired := hq.goes.wired
  serves := by
    intro t h ht
    have hold : w.hub.feeds.get? t = some h := by
      rcases hq.feeds t with he | he
      · rw [← he, ht]
      · rw [he] at ht
        cases ht
    refine (hf.serves t h hold).goes hq.goes ?_
    rintro ⟨t₀, h₀, ht₀, hn, hc, -⟩
    rw [hf.unique hold ht₀ hc, hn] at ht
    cases ht

theorem trans (hf : w.Fed) (hq : Quits w w') (hq' : Quits w' w'') : Quits w w'' where
  goes := by
    refine (hq.goes.trans hq'.goes).imp ?_
    rintro place r (⟨t, h, ht, hn, hm⟩ | ⟨t, h, ht, hn, hm⟩)
    · refine ⟨t, h, ht, ?_, hm⟩
      rcases hq'.feeds t with he | he
      · rw [he, hn]
      · exact he
    · refine ⟨t, h, ?_, hn, hm⟩
      rcases hq.feeds t with he | he
      · rw [← he, ht]
      · rw [he] at ht
        cases ht
  feeds := by
    intro t
    rcases hq'.feeds t with he' | he'
    · rw [he']
      exact hq.feeds t
    · exact .inr he'
  unrouted := by
    intro t h ht hn t' hr
    rcases hq.feeds t with he | he
    · exact hq'.unrouted t h (he.trans ht) hn t' hr
    · obtain ⟨ch, _, hch, -⟩ := (hf.serves t h ht).channel
      obtain ⟨ch', hch', -⟩ := hq.goes.channel _ ch hch
      obtain ⟨hlt, -⟩ := List.getElem?_eq_some_iff.mp hch'
      rcases hq'.goes.routed t' _ hr with hr | hle
      · exact hq.unrouted t h ht he t' hr
      · omega

end Quits

def FeedEnded (w : World) (t : Topic) : Prop :=
  ∀ h, w.hub.feeds.get? t = some h →
    ∃ ch, w.bus.channels[h.channel]? = some ch ∧ ch.log.closed = true

/-- A feed whose channel has been closed may simply be dropped. -/
theorem dropFeed_quits (hf : w.Fed) {t : Topic} (hc : w.FeedEnded t) : Quits w (w.dropFeed t) := by
  unfold dropFeed
  split
  · rename_i h ht
    obtain ⟨ch, hch, hclosed⟩ := hc h ht
    refine ⟨?_, ?_, ?_⟩
    · refine (Bus.drop_goes hf.wired h).imp fun place r hm => ⟨t, h, ht, ?_, hm⟩
      exact (Table.get?_erase _ _ _).trans (if_pos rfl)
    · intro t'
      simp only [Table.get?_erase]
      split
      · exact .inr rfl
      · exact .inl rfl
    · intro t₀ h₀ ht₀ hn t' hr
      have he : t = t₀ := by
        simp only [Table.get?_erase] at hn
        split at hn
        · assumption
        · rw [ht₀] at hn
          cases hn
      subst he
      rw [ht] at ht₀
      cases ht₀
      obtain ⟨ch', hch', -, hopen⟩ := hf.wired t' _ hr
      rw [hch] at hch'
      cases hch'
      rw [hclosed] at hopen
      cases hopen
  · exact .of_eq hf rfl rfl

/-- To release a topic is to drop its feed and to end its channel. -/
theorem releaseOnBus_quits (hf : w.Fed) (t : Topic) : Quits w (w.releaseOnBus t) := by
  have hfeeds : (w.releaseOnBus t).hub.feeds = w.hub.feeds.erase t := by
    rw [releaseOnBus_hub]
  have hbus : (w.releaseOnBus t).bus = ((w.dropFeed t).bus.unsubscribe t).2 := rfl
  have hlost : ∀ t₀ h₀, w.hub.feeds.get? t₀ = some h₀ →
      (w.releaseOnBus t).hub.feeds.get? t₀ = none → t = t₀ := by
    intro t₀ h₀ ht₀ hn
    rw [hfeeds, Table.get?_erase] at hn
    split at hn
    · assumption
    · rw [ht₀] at hn
      cases hn
  have hdrop : w.bus.Goes (w.dropFeed t).bus Bus.silence (forsaken w (w.releaseOnBus t)) := by
    unfold dropFeed
    split
    · rename_i h ht
      refine (Bus.drop_goes hf.wired h).imp fun place r hm => ⟨t, h, ht, ?_, hm⟩
      rw [hfeeds, Table.get?_erase, if_pos rfl]
    · exact .refl hf.wired
  have hend := Bus.unsubscribe_goes hdrop.wired t
  refine ⟨?_, ?_, ?_⟩
  · rw [hbus]
    exact hdrop.quiet (hend.imp fun _ _ hm => hm.elim)
  · intro t'
    rw [hfeeds, Table.get?_erase]
    split
    · exact .inr rfl
    · exact .inl rfl
  · intro t₀ h₀ ht₀ hn t' hr
    obtain rfl := hlost t₀ h₀ ht₀ hn
    rw [hbus] at hr
    obtain ⟨ch, _, hch, htopic, -⟩ := (hf.serves t h₀ ht₀).channel
    have hgo := hdrop.quiet (hend.imp fun _ _ (hm : Bus.nobody _ _) => hm.elim)
    obtain ⟨ch', hch', htopic', -⟩ := hgo.channel _ ch hch
    -- a route to that channel can only be that of the topic, which has just been taken away
    obtain ⟨ch'', hch'', ht', -⟩ := hgo.wired t' _ hr
    rw [hch'] at hch''
    cases hch''
    have he : t' = t := ht'.symm.trans (htopic'.trans htopic)
    subst he
    unfold Bus.unsubscribe at hr
    split at hr
    · simp [Table.get?_erase] at hr
    · rename_i hnone
      rw [show (w.dropFeed t').bus.routes.get? t' = none from hnone] at hr
      cases hr

theorem foldl_releaseOnBus_quits (hf : w.Fed) (ts : List Topic) :
    Quits w (ts.foldl releaseOnBus w) := by
  induction ts generalizing w with
  | nil => exact .of_eq hf rfl rfl
  | cons t rest ih =>
    have h := releaseOnBus_quits hf t
    exact h.trans hf (ih (h.fed hf))

/-! ## The hub's work -/

theorem uninstall_quits (hf : w.Fed) (id : SubscriptionId) (r : SubscriptionError) :
    Quits w (w.uninstall id r) := by
  rcases uninstall_cases w id r with ⟨_, h⟩ | ⟨k, s, _, h⟩
  · rw [h]
    exact .of_eq hf rfl rfl
  · rw [h]
    rcases releaseTopic_cases { w with hub.index := w.hub.index.erase (k, id) } s.topic with
      ⟨_, hrel⟩ | ⟨_, _, _, hrel⟩ | ⟨reg, _, _, hrel⟩
    · exact .of_eq hf (by simp [removed, hrel]) (by simp [removed, hrel])
    · exact .of_eq hf (by simp [removed, hrel]) (by simp [removed, hrel])
    · have hf₁ : Fed { w with
          hub.index := w.hub.index.erase (k, id), hub.topics := w.hub.topics.erase s.topic } :=
        hf.of_eq rfl rfl
      have hstart : Quits w { w with
          hub.index := w.hub.index.erase (k, id), hub.topics := w.hub.topics.erase s.topic } :=
        .of_eq hf rfl rfl
      have hq := releaseOnBus_quits hf₁ s.topic
      have hbus : (w.removed (k, id) s r).bus = (({ w with
          hub.index := w.hub.index.erase (k, id),
          hub.topics := w.hub.topics.erase s.topic } : World).releaseOnBus s.topic).bus := by
        simp [removed, hrel]
      have hfeeds : (w.removed (k, id) s r).hub.feeds = (({ w with
          hub.index := w.hub.index.erase (k, id),
          hub.topics := w.hub.topics.erase s.topic } : World).releaseOnBus s.topic).hub.feeds := by
        simp [removed, hrel]
      exact hstart.trans hf (hq.trans hf₁ (.of_eq (hq.fed hf₁) hbus hfeeds))

theorem foldl_uninstall_quits (hf : w.Fed) (ids : List SubscriptionId) (r : SubscriptionError) :
    Quits w (ids.foldl (fun w id => w.uninstall id r) w) := by
  induction ids generalizing w with
  | nil => exact .of_eq hf rfl rfl
  | cons id rest ih =>
    have h := uninstall_quits hf id r
    exact h.trans hf (ih (h.fed hf))

theorem fanOut_quits (hf : w.Fed) (t : Topic) (p : Payload) : Quits w (w.fanOut t p) := by
  have hb := delivered_bus w t p
  have hx := (delivered_sameLoop w t p).feeds
  have hstart : Quits w (w.delivered t p) := .of_eq hf hb hx
  exact hstart.trans hf (foldl_uninstall_quits (hf.of_eq hb hx) (w.goneFrom t p) .closed)

theorem foldl_endWithTopic_bus (t : Topic) (l : List Subscription) (w : World) :
    (l.foldl (endWithTopic t) w).bus = w.bus ∧
      (l.foldl (endWithTopic t) w).hub.feeds = w.hub.feeds := by
  refine ⟨foldl_kept (g := World.bus) (fun w s => ?_) l w,
    foldl_kept (g := fun w => w.hub.feeds) (fun w s => ?_) l w⟩
  · unfold endWithTopic
    split <;> rfl
  · unfold endWithTopic
    split <;> rfl

theorem closeTopic_quits (hf : w.Fed) {t : Topic} (hc : w.FeedEnded t) :
    Quits w (w.closeTopic t) := by
  unfold closeTopic
  split
  · have hq := dropFeed_quits (w := { w with hub.topics := w.hub.topics.erase t })
      (hf.of_eq rfl rfl) hc
    obtain ⟨hb, hx⟩ := foldl_endWithTopic_bus t (w.hub.listeners t)
      ({ w with hub.topics := w.hub.topics.erase t }.dropFeed t)
    have hq' : Quits w ({ w with hub.topics := w.hub.topics.erase t }.dropFeed t) :=
      ⟨hq.goes, hq.feeds, hq.unrouted⟩
    refine hq'.trans hf (.of_eq (hq'.fed hf) ?_ ?_)
    · rw [publishView_bus, record_bus, note_bus, hb]
    · simp only [publishView_hub, record_hub, note_hub, hx]
  · exact .of_eq hf rfl rfl

theorem shutdown_quits (hf : w.Fed) : Quits w w.shutdown := by
  have hb₁ := refuseAll_bus w
  have hb₂ := endAll_bus w.refuseAll
  have hx₁ : w.refuseAll.hub.feeds = w.hub.feeds := by
    obtain ⟨m, h⟩ := refuseAll_hub w
    rw [h]
  have hx₂ : w.refuseAll.endAll.hub.feeds = w.refuseAll.hub.feeds := by
    obtain ⟨m, h⟩ := endAll_hub w.refuseAll
    rw [h]
  have hf₂ : Fed { w.refuseAll.endAll with hub.topics := {} } :=
    hf.of_eq (hb₂.trans hb₁) (hx₂.trans hx₁)
  have hstart : Quits w { w.refuseAll.endAll with hub.topics := {} } :=
    .of_eq hf (hb₂.trans hb₁) (hx₂.trans hx₁)
  have hq : Quits w w.refuseAll.endAll.releaseAll :=
    hstart.trans hf (foldl_releaseOnBus_quits hf₂ w.refuseAll.endAll.hub.topics.keys)
  rw [shutdown_eq]
  refine hq.trans hf (.of_eq (hq.fed hf) ?_ ?_)
  · simp only [publishView_bus]
  · simp only [publishView_hub]

theorem remove_quits (hf : w.Fed) : Quits w (w.perform .remove) := by
  simp only [perform]
  split
  · exact .of_eq hf rfl rfl
  · rename_i id rest _
    have hf₀ : Fed { w with hub.removals := rest } := hf.of_eq rfl rfl
    have hstart : Quits w { w with hub.removals := rest } := .of_eq hf rfl rfl
    exact hstart.trans hf (uninstall_quits hf₀ id _)

/-! ## Reading and attaching -/

/-- A feed whose reader goes on is served as before, and so are the others. -/
theorem advance_fed (hf : w.Fed) {t : Topic} {h : Handle} (ht : w.hub.feeds.get? t = some h)
    {ch : TopicChannel} (hch : w.bus.channels[h.channel]? = some ch) {next : Nat}
    (hle : next ≤ ch.log.size) : Fed { w with bus := w.bus.advance h next } where
  wired := (Bus.advance_goes hf.wired h next).wired
  serves := by
    intro t' h' ht'
    have hgo := Bus.advance_goes hf.wired h next
    by_cases he : t = t'
    · subst he
      rw [show w.hub.feeds.get? t = some h' from ht'] at ht
      cases ht
      obtain ⟨htopic, hknown, ch₀, _, hch₀, hct, -, -, hroute⟩ := hf.serves t h ht'
      rw [hch] at hch₀
      cases hch₀
      obtain ⟨hch', hr'⟩ := Bus.advance_channel next hch
      exact ⟨htopic, hknown, _, next, hch', hct, hr', hle, hroute⟩
    · refine (hf.serves t' h' ht').goes hgo ?_
      rintro ⟨hc, -⟩
      exact he (hf.unique ht ht' hc.symm)

/-- A hub that subscribes to a topic has a new feed, which is served. -/
theorem attach_fed (hf : w.Fed) {t : Topic} {hd : Handle} {bus : Bus}
    (hs : w.bus.subscribe t = (.ok hd, bus)) (hb : w'.bus = bus)
    (hx : w'.hub.feeds = w.hub.feeds.set t hd) : w'.Fed := by
  have hgo := Bus.subscribe_goes hf.wired t
  rw [hs] at hgo
  obtain ⟨htopic, hreader, hnext, hroute, ch, hch, hct, hr⟩ := Bus.subscribe_reader hf.wired hs
  constructor
  · rw [hb]
    exact hgo.wired
  · intro t' h' ht'
    rw [hx, Table.get?_set] at ht'
    rw [hb]
    split at ht'
    · rename_i he
      subst he
      cases ht'
      exact ⟨htopic, by omega, ch, _, hch, hct, hr, Nat.le_refl _, .inl hroute⟩
    · exact (hf.serves t' h' ht').goes hgo id

/-- Installing leaves the bus and the feeds alone, or attaches the hub to a topic. -/
theorem install_feeds (hs : w.hub.Consistent) :
    ((w.perform .install).bus = w.bus ∧ (w.perform .install).hub.feeds = w.hub.feeds) ∨
    ∃ t hd bus, w.hub.feeds.get? t = none ∧ w.bus.subscribe t = (.ok hd, bus) ∧
      (w.perform .install).bus = bus ∧ (w.perform .install).hub.feeds = w.hub.feeds.set t hd := by
  cases hq : w.hub.installs with
  | nil =>
    left
    have hw : w.perform .install = w := by simp only [perform, hq]
    rw [hw]
    exact ⟨rfl, rfl⟩
  | cons s rest =>
    have hp : w.perform .install = { w with hub.installs := rest }.install s := by
      simp only [perform, hq]
    rw [hp]
    rcases install_cases { w with hub.installs := rest } s with
      ⟨_, _, he⟩ | ⟨_, he⟩ | ⟨e, _, _, _, he⟩ | ⟨w', _, hreg, he⟩
    · rw [he]
      exact .inl ⟨rfl, rfl⟩
    · rw [he]
      exact .inl ⟨rfl, rfl⟩
    · rw [he]
      exact .inl ⟨rfl, rfl⟩
    · rw [he]
      rcases register_cases hreg with ⟨_, rfl⟩ | ⟨ht, hd, bus, hb, rfl⟩
      · exact .inl ⟨rfl, rfl⟩
      · refine .inr ⟨s.topic, hd, bus, ?_, hb, rfl, rfl⟩
        exact hs.feed_eq_none_iff.mpr ht

/-- Reading from a topic moves the reader of its feed and hands the item to the hub, if there is
something to read. -/
theorem read_feeds (hf : w.Fed) (t : Topic) :
    ((w.hub.feeds.get? t).bind w.bus.read? = none ∧ w.perform (.read t) = w) ∨
    ∃ h ch next next' item, w.hub.feeds.get? t = some h ∧
      w.bus.channels[h.channel]? = some ch ∧ ch.readers.get? h.reader = some next ∧
      next ≤ ch.log.size ∧ ch.log.read? next = some (item, next') ∧
      w.perform (.read t) = { w with bus := w.bus.advance h next' }.dispatch t item := by
  cases hread : (w.hub.feeds.get? t).bind w.bus.read? with
  | none => exact .inl ⟨rfl, by simp only [perform, hread]⟩
  | some answer =>
    obtain ⟨item, bus⟩ := answer
    obtain ⟨h, ht, hr⟩ := Option.bind_eq_some_iff.mp hread
    obtain ⟨ch, next, next', hch, hnext, hitem, rfl⟩ := Bus.read?_eq_some hr
    obtain ⟨ch₀, next₀, hch₀, -, hnext₀, hle, -⟩ := (hf.serves t h ht).channel
    rw [hch] at hch₀
    cases hch₀
    rw [hnext] at hnext₀
    cases hnext₀
    refine .inr ⟨h, ch, next, next', item, ht, hch, hnext, hle, hitem, ?_⟩
    simp only [perform, hread]

/-- What was read is handed on where its feed has gone on, and feeds may be given up over it. -/
theorem dispatch_quits (hf : w.Fed) {t : Topic} {h : Handle} {ch : TopicChannel}
    {next next' : Nat} {item : Item Event} (ht : w.hub.feeds.get? t = some h)
    (hch : w.bus.channels[h.channel]? = some ch) (hle : next ≤ ch.log.size)
    (hread : ch.log.read? next = some (item, next')) :
    Quits { w with bus := w.bus.advance h next' }
      ({ w with bus := w.bus.advance h next' }.dispatch t item) := by
  have hf' := advance_fed hf ht hch (Channel.le_of_read? hle hread)
  cases item with
  | entry e => exact fanOut_quits hf' t e.payload
  | lagged n => exact .of_eq hf' rfl rfl
  | ended =>
    refine closeTopic_quits hf' fun h' ht' => ?_
    rw [show w.hub.feeds.get? t = some h' from ht'] at ht
    cases ht
    have hclosed : ch.log.closed = true := by
      rcases Channel.read?_cases hread with ⟨-, -, he⟩ | ⟨a, -, -, -, he⟩ | ⟨hc, -, -⟩
      · cases he
      · cases he
      · exact hc
    exact ⟨_, (Bus.advance_channel next' hch).1, hclosed⟩

theorem perform_fed (hf : w.Fed) (hs : w.hub.Consistent) (t : Turn) : (w.perform t).Fed := by
  cases t with
  | stop => exact (shutdown_quits hf).fed hf
  | install =>
    rcases install_feeds hs with ⟨hb, hx⟩ | ⟨t, hd, bus, _, hsub, hb, hx⟩
    · exact hf.of_eq hb hx
    · exact attach_fed hf hsub hb hx
  | remove => exact (remove_quits hf).fed hf
  | read topic =>
    rcases read_feeds hf topic with
      ⟨_, he⟩ | ⟨h, ch, next, next', item, ht, hch, _, hle, hread, he⟩
    · rw [he]
      exact hf
    · rw [he]
      exact (dispatch_quits hf ht hch hle hread).fed
        (advance_fed hf ht hch (Channel.le_of_read? hle hread))

/-- The hub does not change the handle it reads a topic through; it can only give it up. -/
theorem perform_feed (hf : w.Fed) (hs : w.hub.Consistent) (turn : Turn) {t : Topic} {h : Handle}
    (ht : w.hub.feeds.get? t = some h) :
    (w.perform turn).hub.feeds.get? t = some h ∨ (w.perform turn).hub.feeds.get? t = none := by
  rw [← ht]
  cases turn with
  | stop => exact (shutdown_quits hf).feeds t
  | install =>
    rcases install_feeds hs with ⟨_, hx⟩ | ⟨t₀, hd, bus, hnone, _, _, hx⟩
    · exact .inl (by rw [hx])
    · have hne : t₀ ≠ t := by
        rintro rfl
        rw [hnone] at ht
        cases ht
      exact .inl (by rw [hx, Table.get?_set, if_neg hne])
  | remove => exact (remove_quits hf).feeds t
  | read topic =>
    rcases read_feeds hf topic with
      ⟨_, he⟩ | ⟨h₀, ch, next, next', item, ht₀, hch, _, hle, hread, he⟩
    · exact .inl (by rw [he])
    · rw [he]
      exact (dispatch_quits hf ht₀ hch hle hread).feeds t

/-! ## Every action -/

def published (place : Nat) (w : World) : Action → Option Event
  | .publish e => if w.bus.routes.get? e.topic = some place then some e else none
  | _ => none

theorem published_eq_none (w : World) {a : Action} (ha : a.leavesBus = true) (place : Nat) :
    published place w a = none := by
  cases a with
  | publish e => cases ha
  | _ => rfl

/-- A channel that the hub reads, or that no topic is routed to. -/
def Observed (w : World) (place : Nat) : Prop :=
  (∃ t h, w.hub.feeds.get? t = some h ∧ h.channel = place) ∨
    ∀ t, w.bus.routes.get? t ≠ some place

/-- As the hub reads the channel, nothing that is published on it goes unkept. -/
theorem kept_eq_published (hf : w.Fed) {place : Nat} (ho : w.Observed place) (e : Event) :
    w.bus.kept e place = (published place w (.publish e)).toList := by
  simp only [Bus.kept, published]
  by_cases hr : w.bus.routes.get? e.topic = some place
  · rcases ho with ⟨t, h, ht, rfl⟩ | hno
    · obtain ⟨ch, next, hch, -, hreader, -⟩ := (hf.serves t h ht).channel
      have hcount : w.bus.receiverCount e.topic ≠ 0 := by
        simp only [Bus.receiverCount, Bus.channel?, hr, bind, Option.bind, hch]
        intro hz
        have hm := Table.mem_entries_of_get? hreader
        rw [List.length_eq_zero_iff.mp hz] at hm
        cases hm
      rw [if_pos ⟨hr, hcount⟩, if_pos hr]
      rfl
    · exact absurd hr (hno _)
  · rw [if_neg fun hc => hr hc.1, if_neg hr]
    rfl

/-- What others do on the bus: their events come, and the readers of the hub stay where they are. -/
theorem act_goes (hf : w.Fed) {a : Action} (ha : ∀ t, a ≠ .turn t) :
    ∃ new moved, w.bus.Goes (w.act a).bus new moved ∧
      (∀ t h, w.hub.feeds.get? t = some h → ¬ moved h.channel h.reader) ∧
      ∀ place, w.Observed place → new place = (published place w a).toList := by
  have hw := hf.wired
  have hsame : (w.act a).bus = w.bus → (∀ place, published place w a = none) →
      ∃ new moved, w.bus.Goes (w.act a).bus new moved ∧
        (∀ t h, w.hub.feeds.get? t = some h → ¬ moved h.channel h.reader) ∧
        ∀ place, w.Observed place → new place = (published place w a).toList := by
    intro hb hp
    refine ⟨Bus.silence, Bus.nobody, ?_, fun _ _ _ => id, fun place _ => by rw [hp]; rfl⟩
    rw [hb]
    exact .refl hw
  have hforeign : ∀ {hd : Handle}, ¬ w.hub.owns hd = true → ∀ t h,
      w.hub.feeds.get? t = some h → ¬ Bus.mover hd h.channel h.reader := by
    intro hd hno t h ht hm
    refine hno (List.any_eq_true.mpr ⟨h, ?_, by simp [hm.2]⟩)
    exact Table.mem_values_of_get? ht
  by_cases hleaves : a.leavesBus = true
  · exact hsame (act_bus w hleaves) fun place => published_eq_none w hleaves place
  cases a with
  | turn t => exact absurd rfl (ha t)
  | publish e =>
    exact ⟨_, _, Bus.publish_goes hw e, fun _ _ _ => id, fun _ ho => kept_eq_published hf ho e⟩
  | busSubscribe t =>
    exact ⟨_, _, Bus.subscribe_goes hw t, fun _ _ _ => id, fun _ _ => rfl⟩
  | busUnsubscribe t =>
    exact ⟨_, _, Bus.unsubscribe_goes hw t, fun _ _ _ => id, fun _ _ => rfl⟩
  | busClose => exact ⟨_, _, Bus.close_goes hw, fun _ _ _ => id, fun _ _ => rfl⟩
  | busReceive hd =>
    by_cases ho : w.hub.owns hd = true
    · exact hsame (by simp only [act, if_pos ho]) fun _ => rfl
    · refine ⟨_, _, ?_, hforeign ho, fun _ _ => rfl⟩
      simp only [act, if_neg ho]
      exact Bus.receive_goes hw hd
  | busDrop hd =>
    by_cases ho : w.hub.owns hd = true
    · exact hsame (by simp only [act, if_pos ho]) fun _ => rfl
    · refine ⟨_, _, ?_, hforeign ho, fun _ _ => rfl⟩
      simp only [act, if_neg ho]
      exact Bus.drop_goes hw hd
  | _ => exact absurd rfl hleaves

theorem act_fed (hf : w.Fed) (hs : w.hub.Consistent) (a : Action) : (w.act a).Fed := by
  by_cases ha : ∃ t, a = .turn t
  · obtain ⟨t, rfl⟩ := ha
    simp only [act]
    split
    · exact perform_fed hf hs t
    · exact hf
  · have ha' : ∀ t, a ≠ .turn t := fun t h => ha ⟨t, h⟩
    obtain ⟨new, moved, hgo, hm, -⟩ := act_goes hf ha'
    exact hf.goes hgo (act_sameLoop w ha').feeds hm

/-- While subscriptions to a topic are installed, the hub reads it through one handle. -/
theorem act_feed (hf : w.Fed) (hs : w.hub.Sound) (a : Action) {s : Subscription} {h : Handle}
    (ht : w.hub.feeds.get? s.topic = some h) (hx : s ∈ (w.act a).hub.index.values) :
    (w.act a).hub.feeds.get? s.topic = some h := by
  have hcase : (w.act a).hub.feeds.get? s.topic = some h ∨
      (w.act a).hub.feeds.get? s.topic = none := by
    by_cases ha : ∃ turn, a = .turn turn
    · obtain ⟨turn, rfl⟩ := ha
      simp only [act]
      split
      · exact perform_feed hf hs.consistent turn ht
      · exact .inl ht
    · rw [(act_sameLoop w fun turn he => ha ⟨turn, he⟩).feeds]
      exact .inl ht
  refine hcase.resolve_right fun hnone => ?_
  have hs' := ((act_evolves w a).sound hs).consistent
  have hreg := (hs'.registered_iff s.topic).mpr ⟨s, hx, rfl⟩
  rw [hs'.feed_eq_none_iff, hreg] at hnone
  cases hnone

theorem after_fed (hf : w.Fed) (hs : w.hub.Sound) (run : List Action) : (w.after run).Fed := by
  induction run generalizing w with
  | nil => exact hf
  | cons a rest ih => exact ih (act_fed hf hs.consistent a) ((act_evolves w a).sound hs)

/-- A new hub on a new bus has no feeds, and the bus no routes. -/
theorem start_fed (capacity : Nat) (config : Config) (governor : Governor) :
    (start (Bus.sized capacity) config governor).Fed where
  wired := by simp [start, Bus.sized, Bus.Wired]
  serves := by simp [start]

end World

end EventFanout
