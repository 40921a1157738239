/-
EventFanout.Proofs.Hub.Endings — who ends a channel of the bus.

A channel ends for all its readers at once, whoever asked for it: with its topic, when that
is unsubscribed, or with the bus. `Bus.Leaves` says of an operation which topics it may end;
on every channel of another topic nothing is closed, and what identifies a channel never
changes. A hub unsubscribes a topic only when it gives up its own registration on it
(`World.Spares`), which only some of its steps can come to (`World.givesUp`).

Main statement: `act_leaves`. An action ends channels of a topic only if it is a bus client's
unsubscribing that topic or closing the bus, or a step in which the hub gives the topic up.
-/
import EventFanout.Proofs.Hub.Feeds
import EventFanout.Proofs.Lifecycle.Change

namespace EventFanout

namespace Bus

variable {b b' b'' : Bus} {ended ended' : Topic → Prop}

def Roomy (b : Bus) : Prop :=
  ∀ (place : Nat) ch, b.channels[place]? = some ch → 0 < ch.log.capacity

def hasEnded (b : Bus) (h : Handle) : Bool := (b.channels[h.channel]?).any fun ch => ch.log.closed

theorem hasEnded_eq {h : Handle} {ch : TopicChannel} (hch : b.channels[h.channel]? = some ch) :
    b.hasEnded h = ch.log.closed := by
  rw [hasEnded, hch, Option.any_some]

/-- What an operation leaves of the channels on record, if it ends no topics but some. -/
structure Leaves (b b' : Bus) (ended : Topic → Prop) : Prop where
  channel : ∀ (place : Nat) ch, b.channels[place]? = some ch → ∃ ch', b'.channels[place]? = some ch' ∧
    ch'.topic = ch.topic ∧ ch'.registration = ch.registration ∧
    (ch'.log.closed = true → ch.log.closed = true ∨ ended ch.topic)
  roomy : b.Roomy → b'.Roomy

namespace Leaves

theorem refl (b : Bus) : b.Leaves b ended where
  channel := fun _ ch hch => ⟨ch, hch, rfl, rfl, .inl⟩
  roomy := id

theorem trans (h : b.Leaves b' ended) (h' : b'.Leaves b'' ended') :
    b.Leaves b'' fun t => ended t ∨ ended' t where
  channel := by
    intro place ch hch
    obtain ⟨ch', hch', ht, hreg, hc⟩ := h.channel place ch hch
    obtain ⟨ch'', hch'', ht', hreg', hc'⟩ := h'.channel place ch' hch'
    refine ⟨ch'', hch'', ht'.trans ht, hreg'.trans hreg, fun hclosed => ?_⟩
    rcases hc' hclosed with hclosed | hend
    · exact (hc hclosed).imp id .inl
    · exact .inr (.inr (ht ▸ hend))
  roomy := fun hr => h'.roomy (h.roomy hr)

/-- More topics may be said to end than do. -/
theorem imp (h : b.Leaves b' ended) (hi : ∀ t, ended t → ended' t) : b.Leaves b' ended' where
  channel := by
    intro place ch hch
    obtain ⟨ch', hch', ht, hreg, hc⟩ := h.channel place ch hch
    exact ⟨ch', hch', ht, hreg, fun hclosed => (hc hclosed).imp id (hi _)⟩
  roomy := h.roomy

/-- What is not on a channel is of no account. -/
theorem of_eq (h : b.Leaves b' ended) (hc : b''.channels = b'.channels) : b.Leaves b'' ended where
  channel := by
    rw [hc]
    exact h.channel
  roomy := by
    intro hr place
    rw [hc]
    exact h.roomy hr place

/-- A channel that has ended over the operation is one of a topic that may end. -/
theorem cut (h : b.Leaves b' ended) {hd : Handle} {ch : TopicChannel}
    (hch : b.channels[hd.channel]? = some ch) (hopen : b.hasEnded hd = false)
    (hend : b'.hasEnded hd = true) : ended ch.topic := by
  obtain ⟨ch', hch', -, -, hc⟩ := h.channel _ ch hch
  rw [hasEnded_eq hch'] at hend
  rw [hasEnded_eq hch] at hopen
  refine (hc hend).resolve_left fun hclosed => ?_
  rw [hopen] at hclosed
  cases hclosed

end Leaves

/-! ## The operations of the bus -/

/-- A channel is changed in place; its topic ends if the change closes it. -/
theorem modify_leaves (b : Bus) (place : Nat) {f : TopicChannel → TopicChannel}
    (ht : ∀ ch, (f ch).topic = ch.topic) (hreg : ∀ ch, (f ch).registration = ch.registration)
    (hcap : ∀ ch, (f ch).log.capacity = ch.log.capacity)
    (hc : ∀ ch, b.channels[place]? = some ch → (f ch).log.closed = true →
      ch.log.closed = true ∨ ended ch.topic) :
    b.Leaves (b.modify place f) ended where
  channel := by
    intro i ch hch
    rw [channels_modify, hch]
    split
    · rename_i hi
      subst hi
      exact ⟨f ch, rfl, ht ch, hreg ch, hc ch hch⟩
    · exact ⟨ch, rfl, rfl, rfl, .inl⟩
  roomy := by
    intro hr i ch hch
    rw [channels_modify] at hch
    split at hch
    · obtain ⟨ch₀, hch₀, rfl⟩ := Option.map_eq_some_iff.mp hch
      rw [hcap]
      exact hr i ch₀ hch₀
    · exact hr i ch hch

/-- A change that keeps a channel open ends nothing. -/
theorem modify_leaves_open (b : Bus) (place : Nat) {f : TopicChannel → TopicChannel}
    (ht : ∀ ch, (f ch).topic = ch.topic) (hreg : ∀ ch, (f ch).registration = ch.registration)
    (hcap : ∀ ch, (f ch).log.capacity = ch.log.capacity)
    (hc : ∀ ch, (f ch).log.closed = ch.log.closed) : b.Leaves (b.modify place f) ended :=
  modify_leaves b place ht hreg hcap fun ch _ h => .inl (hc ch ▸ h)

theorem publish_leaves (b : Bus) (e : Event) : b.Leaves (b.publish e).2 ended := by
  unfold publish
  simp only
  split
  · exact (Leaves.refl b).of_eq rfl
  · split
    · exact (Leaves.refl b).of_eq rfl
    · exact (modify_leaves_open b _ (f := fun ch => ch.push e) (fun _ => rfl) (fun _ => rfl)
        (fun _ => rfl) fun _ => rfl).of_eq rfl

theorem create_leaves (b : Bus) (t : Topic) : b.Leaves (b.create t) ended where
  channel := by
    intro place ch hch
    obtain ⟨hlt, -⟩ := List.getElem?_eq_some_iff.mp hch
    refine ⟨ch, ?_, rfl, rfl, .inl⟩
    simp only [create]
    rw [List.getElem?_append_left hlt, hch]
  roomy := by
    intro hr place ch hch
    simp only [create, List.getElem?_append] at hch
    split at hch
    · exact hr place ch hch
    · obtain ⟨_, h⟩ := List.getElem?_eq_some_iff.mp hch
      rw [List.getElem_singleton] at h
      subst h
      exact ringSize_pos _

theorem subscribe_leaves (b : Bus) (t : Topic) : b.Leaves (b.subscribe t).2 ended := by
  have hattach : ∀ (b : Bus) place, b.Leaves (b.attach t place).2 ended := fun b place =>
    (modify_leaves_open b place (f := fun ch => ch.enter b.nextReader) (fun _ => rfl)
      (fun _ => rfl) (fun _ => rfl) fun _ => rfl).of_eq rfl
  have hroute : b.Leaves (b.route t).2 ended := by
    unfold route
    split
    · exact .refl b
    · exact create_leaves b t
  unfold subscribe
  split
  · exact .refl b
  · split
    · exact .refl b
    · exact (hroute.trans (hattach _ _)).imp fun t => or_self_iff.mp

/-- Unsubscribing ends the topic it names, and no other. -/
theorem unsubscribe_leaves (hw : b.Wired) (t : Topic) :
    b.Leaves (b.unsubscribe t).2 (· = t) := by
  unfold unsubscribe
  split
  · rename_i place hp
    refine (modify_leaves b place (f := TopicChannel.close) (fun _ => rfl) (fun _ => rfl)
      (fun _ => rfl) ?_).of_eq rfl
    intro ch hch _
    obtain ⟨ch', hch', ht, -⟩ := hw t place hp
    rw [hch] at hch'
    cases hch'
    exact .inr ht
  · exact .refl b

theorem close_leaves (b : Bus) : b.Leaves b.close fun _ => True := by
  have hfold : ∀ (places : List Nat) (b : Bus),
      b.Leaves (places.foldl endChannel b) fun _ => True := by
    intro places
    induction places with
    | nil => exact .refl
    | cons place rest ih =>
      intro b
      have h : b.Leaves (b.endChannel place) fun _ => True :=
        modify_leaves b place (fun _ => rfl) (fun _ => rfl) (fun _ => rfl)
          fun _ _ _ => .inr trivial
      exact (h.trans (ih _)).imp fun _ _ => trivial
  exact (hfold b.routes.values b).of_eq rfl

theorem advance_leaves (b : Bus) (h : Handle) (next : Nat) : b.Leaves (b.advance h next) ended :=
  modify_leaves_open b _ (fun _ => rfl) (fun _ => rfl) (fun _ => rfl) fun _ => rfl

theorem receive_leaves (b : Bus) (h : Handle) : b.Leaves (b.receive h).2 ended := by
  unfold receive
  split
  · exact .refl b
  · exact advance_leaves b h _

theorem drop_leaves (b : Bus) (h : Handle) : b.Leaves (b.drop h) ended :=
  modify_leaves_open b _ (fun _ => rfl) (fun _ => rfl) (fun _ => rfl) fun _ => rfl

end Bus

namespace World

variable {w w' w'' : World}

/-! ## Giving topics up -/

/-- The hub has given topics up, perhaps none, and ended only those; it keeps its registrations on
the others. -/
structure Spares (w w' : World) : Prop where
  kept : ∀ t r', w'.hub.topics.get? t = some r' →
    ∃ r, w.hub.topics.get? t = some r ∧ r'.number = r.number
  leaves : w.bus.Leaves w'.bus fun t =>
    w.hub.topics.contains t = true ∧ w'.hub.topics.contains t = false

namespace Spares

/-- A topic that is registered was registered. -/
theorem contains (h : Spares w w') {t : Topic} (ht : w'.hub.topics.contains t = true) :
    w.hub.topics.contains t = true := by
  rw [Table.contains, Option.isSome_iff_exists] at ht ⊢
  obtain ⟨r', hr'⟩ := ht
  obtain ⟨r, hr, -⟩ := h.kept t r' hr'
  exact ⟨r, hr⟩

theorem of_eq (hb : w'.bus = w.bus) (ht : w'.hub.topics = w.hub.topics) : Spares w w' where
  kept := by
    intro t r hr
    rw [ht] at hr
    exact ⟨r, hr, rfl⟩
  leaves := by
    rw [hb]
    exact .refl _

theorem trans (h : Spares w w') (h' : Spares w' w'') : Spares w w'' where
  kept := by
    intro t r'' hr''
    obtain ⟨r', hr', hn'⟩ := h'.kept t r'' hr''
    obtain ⟨r, hr, hn⟩ := h.kept t r' hr'
    exact ⟨r, hr, hn'.trans hn⟩
  leaves := by
    refine (h.leaves.trans h'.leaves).imp ?_
    rintro t (⟨hc, hnot⟩ | ⟨hc, hnot⟩)
    · refine ⟨hc, ?_⟩
      by_contra hin
      rw [h'.contains (by simpa using hin)] at hnot
      cases hnot
    · exact ⟨h.contains hc, hnot⟩

end Spares

/-- To release a topic ends that topic. -/
theorem releaseOnBus_leaves (hw : w.bus.Wired) (t : Topic) :
    w.bus.Leaves (w.releaseOnBus t).bus (· = t) ∧ (w.releaseOnBus t).bus.Wired := by
  have hdrop : w.bus.Leaves (w.dropFeed t).bus (· = t) ∧ (w.dropFeed t).bus.Wired := by
    unfold dropFeed
    split
    · exact ⟨Bus.drop_leaves _ _, (Bus.drop_goes hw _).wired⟩
    · exact ⟨.refl _, hw⟩
  have hbus : (w.releaseOnBus t).bus = ((w.dropFeed t).bus.unsubscribe t).2 := rfl
  rw [hbus]
  exact ⟨(hdrop.1.trans (Bus.unsubscribe_leaves hdrop.2 t)).imp fun _ => or_self_iff.mp,
    (Bus.unsubscribe_goes hdrop.2 t).wired⟩

theorem foldl_releaseOnBus_leaves (hw : w.bus.Wired) (ts : List Topic) :
    w.bus.Leaves (ts.foldl releaseOnBus w).bus (· ∈ ts) := by
  induction ts generalizing w with
  | nil => exact .refl _
  | cons t rest ih =>
    obtain ⟨h, hw'⟩ := releaseOnBus_leaves hw t
    refine (h.trans (ih hw')).imp ?_
    rintro t' (rfl | hm)
    · exact List.mem_cons_self
    · exact List.mem_cons_of_mem _ hm

theorem releaseTopic_spares (hw : w.bus.Wired) (t : Topic) : Spares w (w.releaseTopic t) := by
  rcases releaseTopic_cases w t with ⟨_, h⟩ | ⟨r, hr, _, h⟩ | ⟨r, hr, _, h⟩ <;> rw [h]
  · exact .of_eq rfl rfl
  · refine ⟨fun t' r' hr' => ?_, .refl _⟩
    simp only [Table.get?_set] at hr'
    split at hr'
    · rename_i he
      subst he
      cases hr'
      exact ⟨r, hr, rfl⟩
    · exact ⟨r', hr', rfl⟩
  · have hw' : Bus.Wired ({ w with hub.topics := w.hub.topics.erase t } : World).bus := hw
    refine ⟨fun t' r' hr' => ?_, (releaseOnBus_leaves hw' t).1.imp ?_⟩
    · simp only [releaseOnBus_hub, Table.get?_erase] at hr'
      split at hr'
      · cases hr'
      · exact ⟨r', hr', rfl⟩
    · rintro t' rfl
      simp [Table.contains, hr, Table.get?_erase]

theorem uninstall_spares (hw : w.bus.Wired) (id : SubscriptionId) (reason : SubscriptionError) :
    Spares w (w.uninstall id reason) := by
  rcases uninstall_cases w id reason with ⟨_, h⟩ | ⟨k, s, _, h⟩ <;> rw [h]
  · exact .of_eq rfl rfl
  · have hstart : Spares w { w with hub.index := w.hub.index.erase (k, id) } := .of_eq rfl rfl
    have hw₀ : Bus.Wired ({ w with hub.index := w.hub.index.erase (k, id) } : World).bus := hw
    have hrest : ∀ v : World, Spares v (((v.record .uninstall).publishView).closeLine id reason) :=
      fun v => .of_eq rfl rfl
    exact (hstart.trans (releaseTopic_spares hw₀ s.topic)).trans (hrest _)

theorem foldl_uninstall_spares (hf : w.Fed) (ids : List SubscriptionId) (r : SubscriptionError) :
    Spares w (ids.foldl (fun w id => w.uninstall id r) w) := by
  induction ids generalizing w with
  | nil => exact .of_eq rfl rfl
  | cons id rest ih =>
    exact (uninstall_spares hf.wired id r).trans (ih ((uninstall_quits hf id r).fed hf))

theorem fanOut_spares (hf : w.Fed) (t : Topic) (p : Payload) : Spares w (w.fanOut t p) := by
  have hl := delivered_sameLoop w t p
  have hf' : (w.delivered t p).Fed := hf.of_eq (delivered_bus w t p) hl.feeds
  rw [fanOut_eq]
  exact (Spares.of_eq (delivered_bus w t p) hl.topics).trans
    (foldl_uninstall_spares hf' (w.goneFrom t p) .closed)

/-- Taking note that a topic has ended ends nothing. -/
theorem closeTopic_leaves (w : World) (t : Topic) {ended : Topic → Prop} :
    w.bus.Leaves (w.closeTopic t).bus ended := by
  unfold closeTopic
  split
  · have hdrop : w.bus.Leaves ({ w with hub.topics := w.hub.topics.erase t }.dropFeed t).bus
        ended := by
      unfold dropFeed
      split
      · exact Bus.drop_leaves _ _
      · exact .refl _
    rw [publishView_bus, record_bus, note_bus, (foldl_endWithTopic_bus t _ _).1]
    exact hdrop
  · exact .refl _

theorem closeTopic_spares (hs : w.hub.Consistent) (t : Topic) : Spares w (w.closeTopic t) where
  kept := by
    intro t' r hr
    rcases closeTopic_cases hs.ids_once t with ⟨_, h⟩ | ⟨_, m, h⟩
    · rw [h] at hr
      exact ⟨r, hr, rfl⟩
    · rw [h, Table.get?_erase] at hr
      split at hr
      · cases hr
      · exact ⟨r, hr, rfl⟩
  leaves := closeTopic_leaves w t

theorem dispatch_spares (hf : w.Fed) (hs : w.hub.Consistent) (t : Topic) (item : Item Event) :
    Spares w (w.dispatch t item) := by
  cases item with
  | entry e => exact fanOut_spares hf t e.payload
  | lagged n => exact .of_eq rfl rfl
  | ended => exact closeTopic_spares hs t

/-- A hub that stops keeps no registration, and ends no topic but those that it had. -/
theorem shutdown_spares (hw : w.bus.Wired) : Spares w w.shutdown where
  kept := by
    intro t r hr
    obtain ⟨m, h⟩ := shutdown_hub w
    rw [h] at hr
    cases hr
  leaves := by
    have hb : w.refuseAll.endAll.bus = w.bus := (endAll_bus _).trans (refuseAll_bus w)
    have htopics : w.refuseAll.endAll.hub.topics = w.hub.topics := by
      obtain ⟨m₁, h₁⟩ := refuseAll_hub w
      obtain ⟨m₂, h₂⟩ := endAll_hub w.refuseAll
      rw [h₂, h₁]
    have hw' : Bus.Wired ({ w.refuseAll.endAll with hub.topics := {} } : World).bus := hb ▸ hw
    have hrelease := foldl_releaseOnBus_leaves hw' w.refuseAll.endAll.hub.topics.keys
    rw [htopics] at hrelease
    obtain ⟨m, h⟩ := shutdown_hub w
    have hbus : w.shutdown.bus = (w.hub.topics.keys.foldl releaseOnBus
        { w.refuseAll.endAll with hub.topics := {} }).bus := by
      rw [shutdown_eq, ← htopics]
      rfl
    rw [hbus, ← hb]
    refine hrelease.imp fun t ht => ⟨(Table.contains_iff_mem_keys _ t).mpr ht, ?_⟩
    rw [h]
    rfl

/-! ## Every action -/

/-- The hub loses its last subscription on a topic in a step, and unsubscribes the topic: by
shutting down, by the removal that was asked for, or because nobody listens to an event any more.
Installing never does that, nor does taking note that a topic has ended. -/
def givesUp (w : World) (t : Topic) : Turn → Prop
  | .stop => w.hub.listeners t ≠ []
  | .install => False
  | .remove => w.hub.listeners t ≠ [] ∧ (w.perform .remove).hub.listeners t = []
  | .read t' => (∃ e, w.item? t' = some (.entry e)) ∧ w.hub.listeners t ≠ [] ∧
      (w.perform (.read t')).hub.listeners t = []

/-- An action may end channels of a topic. -/
def Cuts (w : World) (t : Topic) : Action → Prop
  | .busUnsubscribe t' => t = t'
  | .busClose => True
  | .turn turn => w.hub.running = true ∧ w.givesUp t turn
  | _ => False

/-- A topic that is registered no more has lost its last listener. -/
theorem listeners_of_contains (hs : w.hub.Consistent) (hs' : w'.hub.Consistent) {t : Topic}
    (h : w.hub.topics.contains t = true ∧ w'.hub.topics.contains t = false) :
    w.hub.listeners t ≠ [] ∧ w'.hub.listeners t = [] := by
  refine ⟨?_, hs'.listeners_eq_nil h.2⟩
  rw [← List.length_pos_iff, ← Hub.exists_listener_iff]
  exact (hs.registered_iff t).mp h.1

/-- Installing ends nothing. -/
theorem install_leaves (hs : w.hub.Consistent) {ended : Topic → Prop} :
    w.bus.Leaves (w.perform .install).bus ended := by
  rcases install_feeds hs with ⟨hb, _⟩ | ⟨t, hd, bus, _, hsub, hb, _⟩
  · rw [hb]
    exact .refl _
  · have h : w.bus.Leaves (w.bus.subscribe t).2 ended := Bus.subscribe_leaves w.bus t
    rw [hsub] at h
    rw [hb]
    exact h

theorem remove_spares (hw : w.bus.Wired) : Spares w (w.perform .remove) := by
  simp only [perform]
  split
  · exact .of_eq rfl rfl
  · rename_i id rest _
    have hpop : Spares w { w with hub.removals := rest } := .of_eq rfl rfl
    have hw' : Bus.Wired ({ w with hub.removals := rest } : World).bus := hw
    exact hpop.trans (uninstall_spares hw' id _)

/-- Reading an item gives topics up only if the item is an event. -/
theorem read_spares (hf : w.Fed) (hs : w.hub.Consistent) (t : Topic) :
    Spares w (w.perform (.read t)) ∧
      ((∀ e, w.item? t ≠ some (.entry e)) →
        ∀ {ended : Topic → Prop}, w.bus.Leaves (w.perform (.read t)).bus ended) := by
  rcases read_feeds hf t with ⟨_, h⟩ | ⟨hd, ch, next, next', item, ht, hch, hnext, hle, hread, h⟩
  · rw [h]
    exact ⟨.of_eq rfl rfl, fun _ => .refl _⟩
  · have hf' := advance_fed hf ht hch (Channel.le_of_read? hle hread)
    have hmove : Spares w { w with bus := w.bus.advance hd next' } :=
      ⟨fun t r hr => ⟨r, hr, rfl⟩, Bus.advance_leaves _ _ _⟩
    rw [h]
    refine ⟨hmove.trans (dispatch_spares hf' hs t item), fun hno ended => ?_⟩
    have hstart : w.bus.Leaves (w.bus.advance hd next') ended := Bus.advance_leaves _ _ _
    cases item with
    | entry e =>
      refine absurd ?_ (hno e)
      have hpos := Bus.position?_eq_some.mpr ⟨hch, hnext⟩
      simp only [item?, ht, Option.bind_some, Bus.read?, hpos, bind, hread, pure, Option.map_some]
    | lagged n => exact hstart
    | ended =>
      exact (hstart.trans (closeTopic_leaves { w with bus := w.bus.advance hd next' } t)).imp
        fun _ => or_self_iff.mp

/-- A step of the hub ends only topics that it gives up. -/
theorem perform_leaves (hf : w.Fed) (hs : w.hub.Sound) (hr : w.hub.running = true) (turn : Turn) :
    w.bus.Leaves (w.perform turn).bus fun t => w.givesUp t turn := by
  have hs' := ((perform_evolves hr turn).sound hs).consistent
  cases turn with
  | stop =>
    exact (shutdown_spares hf.wired).leaves.imp
      fun t ht => (listeners_of_contains hs.consistent hs' ht).1
  | install => exact install_leaves hs.consistent
  | remove =>
    exact (remove_spares hf.wired).leaves.imp
      fun t ht => listeners_of_contains hs.consistent hs' ht
  | read t' =>
    obtain ⟨hspares, hquiet⟩ := read_spares hf hs.consistent t'
    by_cases hitem : ∃ e, w.item? t' = some (.entry e)
    · exact hspares.leaves.imp
        fun t ht => ⟨hitem, listeners_of_contains hs.consistent hs' ht⟩
    · exact hquiet fun e he => hitem ⟨e, he⟩

/--
**Who ends a channel.** Of the channels on record, an action closes only such whose topic it cuts:
a bus client's unsubscribing of the topic or closing of the bus, or a step in which the hub gives
the topic up.
-/
theorem act_leaves (hf : w.Fed) (hs : w.hub.Sound) (a : Action) :
    w.bus.Leaves (w.act a).bus fun t => w.Cuts t a := by
  by_cases hleaves : a.leavesBus = true
  · rw [act_bus w hleaves]
    exact .refl _
  cases a with
  | turn turn =>
    simp only [act]
    split
    · rename_i hr
      exact (perform_leaves hf hs hr turn).imp fun t ht => ⟨hr, ht⟩
    · exact .refl _
  | publish e => exact Bus.publish_leaves _ e
  | busSubscribe t => exact Bus.subscribe_leaves _ t
  | busUnsubscribe t => exact Bus.unsubscribe_leaves hf.wired t
  | busClose => exact Bus.close_leaves _
  | busReceive h =>
    simp only [act]
    split
    · exact .refl _
    · exact Bus.receive_leaves _ h
  | busDrop h =>
    simp only [act]
    split
    · exact .refl _
    · exact Bus.drop_leaves _ h
  | _ => exact absurd rfl hleaves

end World

end EventFanout
