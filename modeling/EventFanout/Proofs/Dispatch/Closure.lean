/-
EventFanout.Proofs.Dispatch.Closure — what the end of a topic does, and what it leaves alone.

When the hub has read the end of a topic, it removes the subscriptions that listen to the topic,
whatever their kinds, and tells each of them that the topic has closed; it forgets its registration,
and lets go of the handle. `ClosedOut` says of all tables what becomes of them. The bus is asked for
nothing: all that happens there is that a reader leaves a channel that no topic is routed to.

From then on the topic is not registered, and stays so until a subscription to it is installed
(`after_unregistered`). That installation asks the bus again (`asked_of_install`), and what is
granted is never the channel that has ended.

Main statement: `closure_is_local`. It says as well that everything that is held on the channel is
dispatched before its end is read, unless the hub gives the topic up first.
-/
import EventFanout.Proofs.Attachment
import EventFanout.Proofs.Delivery.Draining
import EventFanout.Proofs.Dispatch.FanOut

namespace EventFanout

/-! ## Letting go of a handle -/

namespace Bus

/-- To read through a handle and to give it up then is to give it up. -/
theorem drop_advance (b : Bus) (h : Handle) (next : Nat) :
    (b.advance h next).drop h = b.drop h := by
  have hleave : (TopicChannel.leave · h.reader) ∘ (TopicChannel.move · h.reader next) =
      (TopicChannel.leave · h.reader) := by
    funext ch
    simp only [Function.comp_apply, TopicChannel.leave, TopicChannel.move, Table.erase, Table.set,
      Table.filter_put_same]
  simp only [drop, advance, modify, List.modify_modify_eq, hleave]

/-- No topic misses a reader of a channel that no topic is routed to. -/
theorem channel?_drop {b : Bus} {h : Handle} (hno : ∀ t, b.routes.get? t ≠ some h.channel)
    (t : Topic) : (b.drop h).channel? t = b.channel? t := by
  have hroutes : (b.drop h).routes = b.routes := rfl
  simp only [channel?, hroutes, bind, Option.bind]
  cases hroute : b.routes.get? t with
  | none => rfl
  | some place =>
    have hne : h.channel ≠ place := fun he => hno t (he ▸ hroute)
    simp only [drop, channels_modify, if_neg hne]

end Bus

namespace World

variable {w w' : World} {t : Topic} {h : Handle} {s : Subscription} {run : List Action}

/-! ## Closing out -/

/-- The hub has taken note that a topic has ended, which it read through the handle `h`. -/
structure ClosedOut (w : World) (t : Topic) (h : Handle) (w' : World) : Prop where
  /-- The listeners of the topic are removed, whatever their kinds, and nobody else. -/
  index : w'.hub.index.entries = w.hub.index.entries.filter fun e => e.2.topic ≠ t
  /-- Each of them had not been told of any error, and is told that the topic has closed. -/
  closed : ∀ s ∈ w.hub.listeners t, ∃ l, w.lines.get? s.id = some l ∧ l.isClosed = false ∧
    l.reason = none ∧ w'.lines.get? s.id = some (l.close (.topicClosed t))
  elsewhere : ∀ id, id ∉ (w.hub.listeners t).map Subscription.id →
    w'.lines.get? id = w.lines.get? id
  topics : w'.hub.topics = w.hub.topics.erase t
  feeds : w'.hub.feeds = w.hub.feeds.erase t
  view : w'.hub.view = w.hub.view.erase t
  metrics : w'.hub.metrics = { w.hub.metrics with
    uninstalls := w.hub.metrics.uninstalls + .ofNat (w.hub.listeners t).length
    topicsReleased := w.hub.metrics.topicsReleased + 1 }
  /-- It has asked the bus for nothing, and has given nothing up there. -/
  ledger : w'.hub.ledger = w.hub.ledger ++ [.ended t]
  bus : w'.bus = w.bus.drop h
  /-- So the bus has for every topic the channel that it had. -/
  channels : ∀ t', w'.bus.channel? t' = w.bus.channel? t'
  /-- Nothing else is changed. -/
  rest : w' = { w with
    bus := w'.bus
    lines := w'.lines
    hub := { w.hub with
      index := w'.hub.index
      topics := w'.hub.topics
      view := w'.hub.view
      feeds := w'.hub.feeds
      ledger := w'.hub.ledger
      metrics := w'.hub.metrics } }

/-- In the index an identity is that of a listener only where the subscription is one. -/
theorem mem_listeners_ids (hc : w.hub.Consistent) (hs : s ∈ w.hub.index.values) :
    s.id ∈ (w.hub.listeners t).map Subscription.id ↔ s.topic = t := by
  refine ⟨fun hid => ?_, fun ht => List.mem_map_of_mem (Hub.mem_listeners.mpr ⟨hs, ht⟩)⟩
  obtain ⟨s', hs', hsame⟩ := List.mem_map.mp hid
  obtain ⟨hv, ht⟩ := Hub.mem_listeners.mp hs'
  exact hc.value_unique hv hs hsame ▸ ht

/-- A channel that has ended is not one that a topic is routed to. -/
theorem unrouted_of_hasEnded (hf : w.Fed) (hend : w.bus.hasEnded h = true) (t : Topic) :
    w.bus.routes.get? t ≠ some h.channel := by
  intro hroute
  obtain ⟨ch, hch, -, hopen⟩ := hf.wired t _ hroute
  rw [Bus.hasEnded_eq hch, hopen] at hend
  cases hend

/-- To read the end of a topic is to go on where one was and to take note of it. -/
theorem act_of_ended (hw : w.Orderly) (hitem : w.item? t = some .ended) :
    ∃ h next, w.hub.feeds.get? t = some h ∧ w.bus.hasEnded h = true ∧
      w.act (.turn (.read t)) = { w with bus := w.bus.advance h next }.closeTopic t := by
  obtain ⟨h, ch, next, next', ht, hp, hread, hperform⟩ := reading_of_item hitem
  refine ⟨h, next', ht, ?_, ?_⟩
  · rw [Bus.hasEnded_eq (Bus.position?_eq_some.mp hp).1]
    rcases Channel.read?_cases hread with ⟨-, -, he⟩ | ⟨_, -, -, -, he⟩ | ⟨hclosed, -, -⟩
    · cases he
    · cases he
    · exact hclosed
  · rw [act, if_pos (hw.sound.running (hw.sound.consistent.contains_of_feed ht)), hperform]
    rfl

/-- The line of an installed subscription is open, and closes with its topic. -/
theorem line_of_listener (hw : w.Orderly) (ht : w.hub.topics.contains t = true)
    (hs : s ∈ w.hub.listeners t) (bus : Bus) : ∃ l, w.lines.get? s.id = some l ∧
      l.isClosed = false ∧ l.reason = none ∧
      ({ w with bus }.closeTopic t).lines.get? s.id = some (l.close (.topicClosed t)) := by
  have hc := hw.sound.consistent
  have hv := (Hub.mem_listeners.mp hs).1
  obtain ⟨l, hl, hfits⟩ := hw.fits s .indexed (by simp) hv
  obtain ⟨hopen, hreason⟩ := hfits.unclosed (by simp)
  have hid : s.id ∈ w.hub.ids := by
    rw [← hc.values_ids]
    exact List.mem_map_of_mem hv
  refine ⟨l, hl, hopen, hreason, ?_⟩
  rw [(closeTopic_removal (w := { w with bus }) hc.ids_once ht).lines,
    if_pos ⟨List.mem_map_of_mem hs, hid⟩]
  exact congrArg (Option.map fun l => l.close (.topicClosed t)) hl

/-- To take note of the end of a topic is to close the topic out, wherever its reader is. -/
theorem closedOut_of_closeTopic (hw : w.Orderly) (ht : w.hub.feeds.get? t = some h)
    (hend : w.bus.hasEnded h = true) (next : Nat) :
    ClosedOut w t h ({ w with bus := w.bus.advance h next }.closeTopic t) := by
  let w₀ : World := { w with bus := w.bus.advance h next }
  have hc : w₀.hub.Consistent := hw.sound.consistent
  have hfeed : w₀.hub.feeds.get? t = some h := ht
  have hin := hc.contains_of_feed hfeed
  have heq := closeTopic_eq hc hin
  have hbus : (w₀.closeTopic t).bus = w.bus.drop h := by
    rw [heq]
    simp only [carryOut, Effect.bus, Effect.ending, hfeed]
    exact Bus.drop_advance w.bus h next
  exact {
    index := by
      rw [heq]
      refine List.filter_congr fun x hx => ?_
      have hid : x.1.2 = x.2.id := congrArg Prod.snd (hc.filed x.1 x.2 hx)
      simp only [Effect.ending, hid, mem_listeners_ids hc (Hub.mem_values.mpr ⟨x.1, hx⟩), ne_eq]
    closed := fun s hs => line_of_listener hw hin hs _
    elsewhere := by
      intro id hid
      rw [(closeTopic_removal hc.ids_once hin).lines, if_neg fun hboth => hid hboth.1]
    topics := by rw [heq]; rfl
    feeds := by rw [heq]; rfl
    view := by
      rw [heq, hc.view_eq]
      rfl
    metrics := by
      rw [heq]
      show w.hub.metrics.recordAll _ = _
      rw [Effect.ending, Metrics.recordAll_append, recordAll_uninstalls, List.length_map]
      rfl
    ledger := by rw [heq]; rfl
    bus := hbus
    channels := by
      rw [hbus]
      exact Bus.channel?_drop (unrouted_of_hasEnded hw.fed hend)
    rest := by rw [heq]; rfl }

/-! ## Topics that are not registered -/

/-- A step of the hub installs the subscription that is first in its queue, on this topic. -/
def Installs (w : World) (t : Topic) (a : Action) : Prop :=
  a = .turn .install ∧ ∃ s, w.hub.installs.head? = some s ∧ s.topic = t

/-- Whatever becomes of an installation, it concerns the topic of the subscription alone. -/
theorem contains_install (w : World) (hne : s.topic ≠ t) :
    (w.install s).hub.topics.contains t = w.hub.topics.contains t := by
  rcases install_cases w s with
    ⟨-, -, he⟩ | ⟨-, he⟩ | ⟨e, -, -, -, he⟩ | ⟨w', -, hreg, he⟩ <;> rw [he]
  · rfl
  · rfl
  · rfl
  · simp only [file_hub, Table.contains, Table.get?_update, if_neg hne]
    rcases register_cases hreg with ⟨-, rfl⟩ | ⟨-, hd, bus, -, rfl⟩
    · rfl
    · rw [registered_hub, Table.get?_set, if_neg hne]

/-- Nothing but an installation there registers the hub on a topic. -/
theorem act_unregistered (hw : w.Orderly) (ht : w.hub.topics.contains t = false) {a : Action}
    (hno : ¬ w.Installs t a) : (w.act a).hub.topics.contains t = false := by
  by_cases ha : ∃ turn, a = .turn turn
  · obtain ⟨turn, rfl⟩ := ha
    by_cases hr : w.hub.running = true
    · rw [act, if_pos hr]
      by_cases hinstall : turn = .install
      · subst hinstall
        cases hq : w.hub.installs with
        | nil => simpa only [perform, hq] using ht
        | cons s rest =>
          have hne : s.topic ≠ t := fun he => hno ⟨rfl, s, by rw [hq, List.head?_cons], he⟩
          simp only [perform, hq, contains_install { w with hub.installs := rest } hne, ht]
      · by_contra hin
        have hspares := perform_spares hw.fed hw.sound.consistent hinstall
        rw [hspares.contains (Bool.not_eq_false _ ▸ hin)] at ht
        cases ht
    · rw [act, if_neg hr, ht]
  · rw [(act_sameLoop w fun turn he => ha ⟨turn, he⟩).topics, ht]

theorem after_unregistered (hw : w.Orderly) (ht : w.hub.topics.contains t = false)
    (hno : ∀ earlier a, earlier ++ [a] <+: run → ¬ (w.after earlier).Installs t a) :
    (w.after run).hub.topics.contains t = false := by
  induction run generalizing w with
  | nil => exact ht
  | cons a rest ih =>
    refine ih (hw.act a) (act_unregistered hw ht (hno [] a ?_)) fun earlier b hpre => ?_
    · exact List.cons_prefix_cons.mpr ⟨rfl, List.nil_prefix⟩
    · exact hno (a :: earlier) b (List.cons_prefix_cons.mpr ⟨rfl, hpre⟩)

structure Asked (w : World) (t : Topic) (w' : World) : Prop where
  bus : w'.bus = (w.bus.subscribe t).2
  ledger : w'.hub.ledger = w.hub.ledger ++ [.requested t (w.bus.subscribe t).1.isOk]
  /-- If the bus grants it, the hub has the registration on record and reads the channel. -/
  granted : ∀ hd, (w.bus.subscribe t).1 = .ok hd →
    w'.hub.topics.get? t = some ⟨hd.registration, 1⟩ ∧ w'.hub.feeds.get? t = some hd
  refused : ∀ e, (w.bus.subscribe t).1 = .error e → w'.hub.topics = w.hub.topics

/-- To install a subscription on a topic that is not registered is to ask the bus for it. -/
theorem asked_of_install (hw : w.Orderly) (hr : w.hub.running = true) {rest : List Subscription}
    (hq : w.hub.installs = s :: rest) (ht : w.hub.topics.contains s.topic = false) :
    Asked w s.topic (w.act (.turn .install)) := by
  have hmem : s ∈ w.hub.installs := hq ▸ List.mem_cons_self
  have hinstall : w.act (.turn .install) = { w with hub.installs := rest }.install s := by
    simp only [act, if_pos hr, perform, hq]
  rw [hinstall]
  rcases install_cases { w with hub.installs := rest } s with
    ⟨hlight, hfull, -⟩ | ⟨hdup, -⟩ | ⟨e, -, -, hb, he⟩ | ⟨w', -, hreg, he⟩
  · -- what waits has passed this check
    have hadm := hw.roster.admitted s hmem
    rw [show w.hub.config.lightMode = true from hlight, hfull] at hadm
    cases hadm
  · have hnew := hw.roster.contains_eq_false hmem
    rw [show w.hub.contains s.id = true from hdup] at hnew
    cases hnew
  · have hb' : (w.bus.subscribe s.topic).1 = .error e := hb
    have hsame : (w.bus.subscribe s.topic).2 = w.bus :=
      (Bus.subscribe_error (Prod.ext hb' rfl : w.bus.subscribe s.topic = (.error e, _))).1
    rw [he]
    refine ⟨hsame.symm, ?_, fun hd hok => ?_, fun _ _ => rfl⟩
    · rw [hb']
      rfl
    · rw [hb'] at hok
      cases hok
  · rcases register_cases hreg with ⟨hin, -⟩ | ⟨-, hd, bus, hsub, rfl⟩
    · rw [show w.hub.topics.contains s.topic = true from hin] at ht
      cases ht
    · have hsub' : w.bus.subscribe s.topic = (.ok hd, bus) := hsub
      rw [he]
      refine ⟨by rw [hsub']; rfl, by rw [hsub']; rfl, fun hd' hok => ?_, fun e herr => ?_⟩
      · rw [hsub'] at hok
        obtain rfl : hd = hd' := Except.ok.inj hok
        rw [file_hub, registered_hub, Table.get?_update, if_pos rfl, Table.get?_set, if_pos rfl,
          Table.get?_set, if_pos rfl]
        exact ⟨rfl, rfl⟩
      · rw [hsub'] at herr
        cases herr

/-- A handle that the hub has had, and has no more, is not on the channel of a later one. -/
theorem channel_ne_of_subscribe {ch : TopicChannel} {next : Nat} (hf : w.Fed)
    (htrack : w.Tracked h ch next) (hlost : w.hub.feeds.get? h.topic ≠ some h) {hd : Handle}
    (hsub : (w.bus.subscribe t).1 = .ok hd) : hd.channel ≠ h.channel := by
  intro he
  have hroute := (Bus.subscribe_ok (Prod.ext hsub rfl : w.bus.subscribe t = (.ok hd, _))).2.2.2
  obtain ⟨hlt, -⟩ := List.getElem?_eq_some_iff.mp htrack.channel
  rcases (Bus.subscribe_goes hf.wired t).routed t _ hroute with hold | hle
  · exact htrack.detached hlost t (he ▸ hold)
  · omega

/-- Whatever happens until then, the next installation on a topic asks the bus for it, and what is
granted is not the channel of a certain handle. -/
def AsksAnew (w : World) (t : Topic) (h : Handle) : Prop :=
  ∀ run s rest,
    (∀ earlier a, earlier ++ [a] <+: run → ¬ (w.after earlier).Installs t a) →
    (w.after run).hub.running = true → (w.after run).hub.installs = s :: rest → s.topic = t →
    Asked (w.after run) t ((w.after run).act (.turn .install)) ∧
      ∀ hd, ((w.after run).bus.subscribe t).1 = .ok hd → hd.channel ≠ h.channel

theorem asksAnew_of_closedOut (hw : w.Orderly) (ht : w.hub.feeds.get? t = some h)
    (hclosed : ClosedOut w t h (w.act (.turn (.read t)))) :
    (w.act (.turn (.read t))).AsksAnew t h := by
  intro run s rest hno hr hq hst
  subst hst
  have hw' := hw.act (.turn (.read s.topic))
  have hgone : (w.act (.turn (.read s.topic))).hub.topics.contains s.topic = false := by
    rw [hclosed.topics, Table.contains, Table.get?_erase, if_pos rfl]
    rfl
  have hv := hw'.after run
  have hfree := after_unregistered hw' hgone hno
  refine ⟨?_, fun hd hsub => ?_⟩
  · exact asked_of_install hv hr hq hfree
  · obtain ⟨ch, next, hp, -⟩ := (hw.fed.serves s.topic h ht).position
    obtain ⟨ch', next', haccount⟩ :=
      after_account hw.fed hw.sound ht hp (.turn (.read s.topic) :: run)
    refine channel_ne_of_subscribe hv.fed haccount.tracked ?_ hsub
    rw [(hw.fed.serves s.topic h ht).topic]
    intro hkept
    rw [hv.sound.consistent.contains_of_feed hkept] at hfree
    cases hfree

/-! ## The whole -/

/--
**The end of a topic is a matter of that topic.** After any run of a new hub on a new bus:

* if the end of a topic is next to be read, then to read it closes this topic out and leaves
  everything else as it was, and the next installation there asks the bus anew;
* if the channel of a topic has ended and the hub reads it still, then whatever is held there is
  dispatched before the end is read, unless the hub gives the topic up first, and a hub that
  works until it rests has come to the one or the other.

In any world, the end of a topic that is not registered changes nothing.
-/
theorem closure_is_local (capacity : Nat) (config : Config) (governor : Governor)
    (before : List Action) (t : Topic) :
    let w := (start (Bus.sized capacity) config governor).after before
    (w.item? t = some .ended → ∃ h, w.hub.feeds.get? t = some h ∧
      ClosedOut w t h (w.act (.turn (.read t))) ∧ (w.act (.turn (.read t))).AsksAnew t h) ∧
    (∀ h, w.hub.feeds.get? t = some h → w.bus.hasEnded h = true →
      (∀ run, Drained w t h run) ∧ w.runHub.hub.feeds.get? t ≠ some h) ∧
    ∀ v : World, v.hub.topics.contains t = false → v.dispatch t .ended = v := by
  intro w
  have hw : w.Orderly := (start_orderly capacity config governor).after before
  refine ⟨fun hitem => ?_, fun h ht hend => ?_, fun v hno => ?_⟩
  · obtain ⟨h, next, ht, hend, hact⟩ := act_of_ended hw hitem
    have hclosed : ClosedOut w t h (w.act (.turn (.read t))) :=
      hact ▸ closedOut_of_closeTopic hw ht hend next
    exact ⟨h, ht, hclosed, asksAnew_of_closedOut hw ht hclosed⟩
  · exact ⟨drained_of_ended hw ht hend, lost_at_rest hw ht hend⟩
  · exact if_neg (Bool.eq_false_iff.mp hno)

/-- Two kinds of subscriptions share a topic, and a third listens to another one. The topic is ended
by somebody else when an event there has not been read yet: the hub dispatches the event, then
closes the topic out, and asks for it again when another subscription comes. -/
theorem closure_is_local_shared :
    let e : Event := ⟨transactionTopic, .transaction {}⟩
    let h : Handle := ⟨transactionTopic, 1, 0, 0⟩
    let before : List Action := [
      .makeWithin .logs none, .submit (.issued 0), .turn .install,
      .makeWithin .pendingTransactions none, .submit (.issued 1), .turn .install,
      .makeWithin .newHeads none, .submit (.issued 2), .turn .install,
      .publish e, .busUnsubscribe transactionTopic]
    let read : Action := .turn (.read transactionTopic)
    let w := (start (Bus.sized 4) {} .absent).after before
    let w₁ := (start (Bus.sized 4) {} .absent).after (before ++ [read])
    let later := (w₁.act read).after [.makeWithin .logs none, .submit (.issued 3)]
    w.bus.hasEnded h = true ∧ Drained w transactionTopic h [read] ∧
      eventsThrough h w [read] = [e] ∧ w₁.item? transactionTopic = some .ended ∧
      ClosedOut w₁ transactionTopic h (w₁.act read) ∧
      (w₁.act read).hub.index.values.map Subscription.id = [.issued 2] ∧
      Asked later transactionTopic (later.act (.turn .install)) ∧
      (later.act (.turn .install)).bus.registration? transactionTopic = some 3 := by
  intro e h before read w w₁ later
  have hfeed : w.hub.feeds.get? transactionTopic = some h := by decide
  have hend : w.bus.hasEnded h = true := by decide
  obtain ⟨-, hdrained, -⟩ := closure_is_local 4 {} .absent before transactionTopic
  have hfeed₁ : w₁.hub.feeds.get? transactionTopic = some h := by decide
  have hitem : w₁.item? transactionTopic = some .ended := rfl
  obtain ⟨hclosure, -, -⟩ := closure_is_local 4 {} .absent (before ++ [read]) transactionTopic
  obtain ⟨h', hfeed', hclosed, hanew⟩ := hclosure hitem
  obtain rfl : h' = h := Option.some.inj (hfeed'.symm.trans hfeed₁)
  have hidle : ∀ earlier a, earlier ++ [a] <+: [Action.makeWithin .logs none, .submit (.issued 3)] →
      ¬ ((w₁.act read).after earlier).Installs transactionTopic a := by
    rintro earlier a hpre ⟨rfl, -⟩
    have hmem := hpre.subset (List.mem_append_right _ (List.mem_singleton_self _))
    simp at hmem
  have hasked := (hanew _ ⟨.issued 3, .logs, transactionTopic, none⟩ [] hidle (by decide)
    (by decide) rfl).1
  exact ⟨hend, (hdrained h hfeed hend).1 [read], rfl, hitem, hclosed, by decide, hasked, by decide⟩

end World

end EventFanout
