/-
EventFanout.Proofs.Hub.Evolution — what holds of a hub whatever it is given to do.

`World.Step` is one operation of a hub's loop, with any argument and in any order, or
anything at all that others do: they may change the bus, the lines, the queues and the
filters as they like, as long as they keep off what only the loop writes. `Evolves` is
any number of such steps.

Main statements: the tables of the hub are in step after every run
(`consistent_of_evolves`), and the invariant behind that (`Evolves.sound`), on which
the discipline of registrations rests as well.

## How the proofs go

`Hub.Sound` is the invariant: the tables are consistent, the ledger accounts for
exactly the registered topics, and a hub that has stopped holds nothing. Each
operation comes to one of the cases of `Proofs.Hub.Work`, and each case is one lemma of
`Proofs.Hub.Index` and one of `Proofs.Hub.Ledger`. Giving an event out is counting
followed by uninstalls, so nothing is proved about it twice.
-/
import EventFanout.Proofs.Hub.Ledger
import EventFanout.Proofs.Hub.Work
import Mathlib.Logic.Relation

namespace EventFanout

structure Hub.Sound (h : Hub) : Prop where
  consistent : h.Consistent
  /-- The ledger accounts for the topics that are registered now. -/
  accounts : Accounts h.ledger h.topics.keys
  stopped : h.running = false → h.index = {} ∧ h.topics = {}

/-- What only the loop of a hub writes is the same in two hubs. -/
structure Hub.SameLoop (h h' : Hub) : Prop where
  index : h'.index = h.index
  topics : h'.topics = h.topics
  feeds : h'.feeds = h.feeds
  view : h'.view = h.view
  ledger : h'.ledger = h.ledger
  running : h'.running = h.running

theorem Hub.Sound.of_sameLoop {h h' : Hub} (hs : h.Sound) (he : h.SameLoop h') : h'.Sound where
  consistent := hs.consistent.of_eq he.index he.topics he.feeds he.view
  accounts := by
    rw [he.ledger, he.topics]
    exact hs.accounts
  stopped := by
    rw [he.running, he.index, he.topics]
    exact hs.stopped

/-- A hub that is registered anywhere runs. -/
theorem Hub.Sound.running {h : Hub} (hs : h.Sound) {t : Topic} (ht : h.topics.contains t = true) :
    h.running = true := by
  by_contra hstop
  rw [(hs.stopped (Bool.not_eq_true _ ▸ hstop)).2] at ht
  cases ht

namespace World

/-- One operation of the loop of a hub that runs, or whatever others do meanwhile. -/
inductive Step : World → World → Prop
  | install {w : World} (s : Subscription) : w.hub.running = true → Step w (w.install s)
  | uninstall {w : World} (id : SubscriptionId) (reason : SubscriptionError) :
      w.hub.running = true → Step w (w.uninstall id reason)
  | dispatch {w : World} (t : Topic) (item : Item Event) :
      w.hub.running = true → Step w (w.dispatch t item)
  | shutdown {w : World} : w.hub.running = true → Step w w.shutdown
  | others {w w' : World} : w.hub.SameLoop w'.hub → Step w w'

def Evolves : World → World → Prop := Relation.ReflTransGen Step

/-! ## Installing -/

theorem file_hub (w : World) (s : Subscription) :
    (w.file s).hub = { w.hub with
      topics := w.hub.topics.update s.topic Registration.grow
      index := w.hub.index.set (s.kind, s.id) s
      view := w.hub.topics.update s.topic Registration.grow
      metrics := w.hub.metrics.record .install } := rfl

theorem registered_hub (w : World) (t : Topic) (hd : Handle) (bus : Bus) :
    (w.registered t hd bus).hub = { w.hub with
      topics := w.hub.topics.set t ⟨hd.registration, 0⟩
      feeds := w.hub.feeds.set t hd
      ledger := w.hub.ledger ++ [.requested t true]
      metrics := w.hub.metrics.record .topicRegistered } := rfl

theorem refused_hub (w : World) (s : Subscription) (e : BusError) :
    (w.refused s e).hub = { w.hub with
      ledger := w.hub.ledger ++ [.requested s.topic false]
      metrics := w.hub.metrics.record .rejected } := rfl

theorem reject_hub (w : World) (s : Subscription) (cause : Rejection) :
    (w.reject s cause).hub = { w.hub with metrics := w.hub.metrics.record .rejected } := rfl

theorem file_sound {w : World} (hs : w.hub.Sound) (hr : w.hub.running = true) {s : Subscription}
    (hnew : w.hub.contains s.id = false) (ht : w.hub.topics.contains s.topic = true) :
    (w.file s).hub.Sound := by
  have hc := hs.consistent
  obtain ⟨r, hget⟩ := Option.isSome_iff_exists.mp ht
  constructor
  · refine hc.file hnew (fun t _ => rfl) ?_ hc.topics_once rfl rfl hc.feeds_eq rfl
    rw [hget, Option.map_some, hc.subscribers_eq _ r hget]
  · rw [file_hub]
    simpa using hs.accounts
  · rw [file_hub]
    simp [hr]

theorem registered_file_sound {w : World} (hs : w.hub.Sound) (hr : w.hub.running = true)
    {s : Subscription} (hnew : w.hub.contains s.id = false)
    (ht : w.hub.topics.contains s.topic = false) (hd : Handle) (bus : Bus) :
    ((w.registered s.topic hd bus).file s).hub.Sound := by
  have hc := hs.consistent
  have hk : s.topic ∉ w.hub.topics.keys := (Table.contains_eq_false_iff _ _).mp ht
  have hkeys := Table.keys_set_of_not_mem (⟨hd.registration, 0⟩ : Registration) hk
  have hnil := hc.listeners_eq_nil ht
  constructor
  · refine hc.file (b := w.hub.topics.set s.topic ⟨hd.registration, 0⟩) hnew ?_ ?_ ?_ rfl rfl ?_ rfl
    · intro t hne
      rw [Table.get?_set, if_neg fun e => hne e.symm]
    · rw [Table.get?_set, if_pos rfl, hnil]
      rfl
    · rw [hkeys]
      exact List.Nodup.append hc.topics_once (List.nodup_singleton _) (by simpa using hk)
    · show (w.hub.feeds.set s.topic hd).keys = _
      rw [Table.keys_set_of_not_mem _ (by rwa [hc.feeds_eq]), hkeys, hc.feeds_eq]
  · rw [file_hub, registered_hub]
    simp only [Table.keys_update, hkeys]
    exact hs.accounts.grant hk
  · rw [file_hub, registered_hub]
    simp [hr]

theorem install_sound {w : World} (hs : w.hub.Sound) (hr : w.hub.running = true)
    (s : Subscription) : (w.install s).hub.Sound := by
  rcases install_cases w s with ⟨_, _, h⟩ | ⟨_, h⟩ | ⟨e, _, ht, _, h⟩ | ⟨w', hnew, hreg, h⟩
  · rw [h, reject_hub]
    exact hs.of_sameLoop ⟨rfl, rfl, rfl, rfl, rfl, rfl⟩
  · rw [h, reject_hub]
    exact hs.of_sameLoop ⟨rfl, rfl, rfl, rfl, rfl, rfl⟩
  · rw [h, refused_hub]
    constructor
    · exact hs.consistent.of_eq rfl rfl rfl rfl
    · exact hs.accounts.refuse ((Table.contains_eq_false_iff _ _).mp ht)
    · exact hs.stopped
  · rw [h]
    rcases register_cases hreg with ⟨ht, rfl⟩ | ⟨ht, hd, bus, _, rfl⟩
    · exact file_sound hs hr hnew ht
    · exact registered_file_sound hs hr hnew ht hd bus

/-! ## Uninstalling -/

/-- The topic goes with its last subscription, and stays for the others. -/
theorem uninstall_sound {w : World} (hs : w.hub.Sound) (hr : w.hub.running = true)
    (id : SubscriptionId) (reason : SubscriptionError) :
    (w.uninstall id reason).hub.Sound ∧ (w.uninstall id reason).hub.running = true := by
  have hc := hs.consistent
  rcases uninstall_cases w id reason with ⟨_, h⟩ | ⟨k, s, hf, h⟩
  · rw [h]
    exact ⟨hs, hr⟩
  · obtain ⟨hm, -⟩ := Hub.mem_of_find? hf
    obtain ⟨r, hget, hcount⟩ := hc.get?_topic (Hub.mem_values.mpr ⟨_, hm⟩)
    rw [h]
    simp only [removed, closeLine_hub, publishView_hub, record_hub]
    rcases releaseTopic_cases { w with hub.index := w.hub.index.erase (k, id) } s.topic with
      ⟨hnone, _⟩ | ⟨r', hget', hmore, hrel⟩ | ⟨r', hget', hlast, hrel⟩
    · rw [show w.hub.topics.get? s.topic = none from hnone] at hget
      cases hget
    · rw [hrel]
      have hkeys := Table.keys_set_of_mem { r' with subscribers := r'.subscribers - 1 }
        (Table.mem_keys_of_get? hget')
      refine ⟨⟨hc.remove_one hm hget' hmore rfl rfl rfl rfl, ?_, by simp [hr]⟩, hr⟩
      simp only [hkeys]
      exact hs.accounts
    · rw [hrel, releaseOnBus_hub]
      refine ⟨⟨hc.remove_last hm hget' hlast rfl rfl rfl rfl, ?_, by simp [hr]⟩, hr⟩
      simp only [Table.keys_erase]
      exact hs.accounts.finish (Table.mem_keys_of_get? hget') (.inl rfl)

theorem foldl_uninstall_sound {w : World} (hs : w.hub.Sound) (hr : w.hub.running = true)
    (ids : List SubscriptionId) (reason : SubscriptionError) :
    (ids.foldl (fun w id => w.uninstall id reason) w).hub.Sound := by
  induction ids generalizing w with
  | nil => exact hs
  | cons id rest ih =>
    obtain ⟨hs', hr'⟩ := uninstall_sound hs hr id reason
    exact ih hs' hr'

/-! ## Events and ends -/

/-- The world in which an event has been counted and delivered, before those who are gone go. -/
def delivered (w : World) (t : Topic) (p : Payload) : World :=
  let results := w.outcomes t p
  let count (test : Outcome → Bool) : UInt64 := UInt64.ofNat (results.countP fun r => test r.2)
  let w := { w with lines := results.foldl Outcome.apply w.lines }
  ((w.record .event).record (.transientErrors (count Outcome.isFailed))).record
    (.delivered (count Outcome.isDelivered))

@[simp] theorem delivered_bus (w : World) (t : Topic) (p : Payload) :
    (w.delivered t p).bus = w.bus := by simp only [delivered, record_bus]

@[simp] theorem delivered_lines (w : World) (t : Topic) (p : Payload) :
    (w.delivered t p).lines = (w.outcomes t p).foldl Outcome.apply w.lines := by
  simp only [delivered, record_lines]

-- stated once, as comparing the two worlds field by field is slow
theorem delivered_sameLoop (w : World) (t : Topic) (p : Payload) :
    w.hub.SameLoop (w.delivered t p).hub := by
  constructor <;> simp only [delivered, record_hub]

/-- The subscriptions of a topic whose clients turn out to be gone. -/
def goneFrom (w : World) (t : Topic) (p : Payload) : List SubscriptionId :=
  ((w.outcomes t p).filter fun r => r.2.isGone).map (·.1)

theorem fanOut_eq (w : World) (t : Topic) (p : Payload) :
    w.fanOut t p = (w.goneFrom t p).foldl (fun w id => w.uninstall id .closed) (w.delivered t p) :=
  rfl

/-- All subscriptions of a topic go with it, so that nothing refers to the topic afterwards. -/
theorem closeTopic_sound {w : World} (hs : w.hub.Sound) (hr : w.hub.running = true) (t : Topic) :
    (w.closeTopic t).hub.Sound := by
  have hc := hs.consistent
  rcases closeTopic_cases hc.ids_once t with ⟨_, h⟩ | ⟨ht, m, h⟩
  · rw [h]
    exact hs
  · have hentries : (w.hub.index.entries.filter fun e =>
        e.1.2 ∉ (w.hub.listeners t).map Subscription.id) =
        w.hub.index.entries.filter fun e => e.2.topic ≠ t := by
      apply List.filter_congr
      intro e he
      rw [decide_eq_decide, not_iff_not, List.mem_map]
      constructor
      · rintro ⟨s, hs', hid⟩
        obtain ⟨hv, htopic⟩ := Hub.mem_listeners.mp hs'
        obtain ⟨key, hkey⟩ := Hub.mem_values.mp hv
        have hid' : key.2 = e.1.2 := by
          rw [hc.filed key s hkey]
          exact hid
        rw [← Hub.entry_unique hc.ids_once hkey he hid']
        exact htopic
      · intro htopic
        refine ⟨e.2, Hub.mem_listeners.mpr ⟨Hub.mem_values.mpr ⟨e.1, he⟩, htopic⟩, ?_⟩
        rw [hc.filed e.1 e.2 he]
    rw [hentries] at h
    rw [h]
    constructor
    · exact hc.end_topic rfl rfl rfl rfl
    · simp only [Table.keys_erase]
      exact hs.accounts.finish ((Table.contains_iff_mem_keys _ _).mp ht) (.inr rfl)
    · simp [hr]

theorem dispatch_sound {w : World} (hs : w.hub.Sound) (hr : w.hub.running = true) (t : Topic)
    (item : Item Event) : (w.dispatch t item).hub.Sound := by
  cases item with
  | entry e =>
    show (w.fanOut t e.payload).hub.Sound
    rw [fanOut_eq]
    have hd : (w.delivered t e.payload).hub.Sound :=
      hs.of_sameLoop (delivered_sameLoop w t e.payload)
    exact foldl_uninstall_sound hd hr _ _
  | lagged n => exact hs
  | ended => exact closeTopic_sound hs hr t

/-! ## Shutting down -/

theorem shutdown_sound {w : World} (hs : w.hub.Sound) : w.shutdown.hub.Sound := by
  obtain ⟨m, h⟩ := shutdown_hub w
  have hfeeds : (w.hub.feeds.entries.filter fun e => e.1 ∉ w.hub.topics.keys) = [] := by
    rw [List.filter_eq_nil_iff]
    intro e he
    simp only [decide_eq_true_eq, not_not]
    rw [← hs.consistent.feeds_eq]
    exact Table.mem_keys_of_mem he
  rw [hfeeds] at h
  rw [h]
  constructor
  · exact Hub.consistent_empty rfl rfl rfl rfl
  · exact hs.accounts.release_all hs.consistent.topics_once
  · exact fun _ => ⟨rfl, rfl⟩

/-! ## Runs -/

theorem Step.sound {w w' : World} (h : Step w w') (hs : w.hub.Sound) : w'.hub.Sound := by
  cases h with
  | install s hr => exact install_sound hs hr s
  | uninstall id reason hr => exact (uninstall_sound hs hr id reason).1
  | dispatch t item hr => exact dispatch_sound hs hr t item
  | shutdown _ => exact shutdown_sound hs
  | others he => exact hs.of_sameLoop he

theorem start_sound (bus : Bus) (config : Config) (governor : Governor) :
    (start bus config governor).hub.Sound where
  consistent := Hub.consistent_empty rfl rfl rfl rfl
  accounts := Accounts.empty
  stopped := fun _ => ⟨rfl, rfl⟩

theorem Evolves.sound {w w' : World} (h : Evolves w w') (hs : w.hub.Sound) : w'.hub.Sound := by
  induction h with
  | refl => exact hs
  | tail _ hstep ih => exact hstep.sound ih

/--
**The tables of a hub are in step after every run.** The topics are those of the installed
subscriptions, counted; the feeds are those of the topics; every subscription is filed once, where
it belongs; and the view shows the topics.
-/
theorem consistent_of_evolves {bus : Bus} {config : Config} {governor : Governor} {w : World}
    (h : Evolves (start bus config governor) w) : w.hub.Consistent :=
  (h.sound (start_sound bus config governor)).consistent

/-- Two kinds share a topic, one of the two subscriptions goes, and then the topic ends. -/
theorem consistent_of_evolves_shared :
    let s₁ : Subscription := ⟨.issued 0, .logs, transactionTopic, none⟩
    let s₂ : Subscription := ⟨.issued 1, .pendingTransactions, transactionTopic, none⟩
    let w := ((((start (Bus.sized 4) {} .absent).install s₁).install s₂).uninstall s₁.id
      .unsubscribed)
    Evolves (start (Bus.sized 4) {} .absent) (w.dispatch transactionTopic .ended) ∧
      w.hub.topics.keys = [transactionTopic] ∧
      (w.dispatch transactionTopic .ended).hub.Consistent := by
  intro s₁ s₂ w
  have hshared : Evolves (start (Bus.sized 4) {} .absent) w :=
    ((Relation.ReflTransGen.refl.tail (.install s₁ rfl)).tail (.install s₂ (by decide))).tail
      (.uninstall s₁.id .unsubscribed (by decide))
  have hrun : Evolves (start (Bus.sized 4) {} .absent) (w.dispatch transactionTopic .ended) :=
    hshared.tail (.dispatch transactionTopic .ended (by decide))
  exact ⟨hrun, by decide, consistent_of_evolves hrun⟩

end World

end EventFanout
