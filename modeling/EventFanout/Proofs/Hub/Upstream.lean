/-
EventFanout.Proofs.Hub.Upstream — the ledger tells of every call that a hub makes on the bus.

The ledger is written by the hub, so by itself it says what the hub notes, and not what it does. That
the two are one is shown by replaying the entries: made on the bus from which a step began, with the
handles that the hub had then, the calls that the new entries tell of get the answers that they tell
of, and come to the bus and the handles with which the step ended (`World.Calls`).

Main statements: `calls_of_step` and `perform_calls`, for every step of a hub, and `shutdown_calls`,
which says what calls a hub makes when it stops. What else is said of the ledger (how often topics
are asked for and given up, and when) is by these said of the bus.
-/
import EventFanout.Hub.Turn
import EventFanout.Proofs.Hub.Evolution

namespace EventFanout

/-- What a hub works with upstream: the bus, and the handles through which it reads its topics. -/
structure Upstream where
  bus : Bus
  feeds : Table Topic Handle

namespace Upstream

def dropFeed (u : Upstream) (t : Topic) : Upstream :=
  match u.feeds.get? t with
  | some h => ⟨u.bus.drop h, u.feeds.erase t⟩
  | none => u

/-- The call that an entry tells of, if it gets the answer that the entry tells of. The end of a
topic is no call: the hub only gives its handle up. -/
def replay (u : Upstream) : Entry → Option Upstream
  | .requested t granted =>
    match u.bus.subscribe t with
    | (.ok h, bus) => if granted then some ⟨bus, u.feeds.set t h⟩ else none
    | (.error _, bus) => if granted then none else some ⟨bus, u.feeds⟩
  | .released t => some ⟨((u.dropFeed t).bus.unsubscribe t).2, (u.dropFeed t).feeds⟩
  | .ended t => some (u.dropFeed t)

end Upstream

namespace World

def upstream (w : World) : Upstream := ⟨w.bus, w.hub.feeds⟩

/-- Between two worlds a hub has made the calls that these entries tell of, one after the other, and
no others, and has written the entries. -/
structure Calls (w : World) (entries : List Entry) (w' : World) : Prop where
  ledger : w'.hub.ledger = w.hub.ledger ++ entries
  replayed : entries.foldlM Upstream.replay w.upstream = some w'.upstream

variable {w w' w'' : World} {entries entries' : List Entry} {t : Topic}

namespace Calls

/-- Work that leaves bus, handles and ledger alone makes no call. -/
theorem none (hu : w'.upstream = w.upstream) (hl : w'.hub.ledger = w.hub.ledger) :
    Calls w [] w' where
  ledger := by rw [hl, List.append_nil]
  replayed := congrArg some hu.symm

theorem one {e : Entry} (hl : w'.hub.ledger = w.hub.ledger ++ [e])
    (hr : w.upstream.replay e = some w'.upstream) : Calls w [e] w' where
  ledger := hl
  replayed := by rw [List.foldlM_cons, hr]; rfl

theorem trans (h : Calls w entries w') (h' : Calls w' entries' w'') :
    Calls w (entries ++ entries') w'' where
  ledger := by rw [h'.ledger, h.ledger, List.append_assoc]
  replayed := by
    rw [List.foldlM_append, h.replayed]
    exact h'.replayed

end Calls

/-! ## Giving topics up -/

theorem dropFeed_upstream (w : World) (t : Topic) : (w.dropFeed t).upstream = w.upstream.dropFeed t := by
  simp only [dropFeed, Upstream.dropFeed, upstream]
  cases w.hub.feeds.get? t <;> rfl

theorem releaseOnBus_calls (w : World) (t : Topic) : w.Calls [.released t] (w.releaseOnBus t) := by
  refine .one (by rw [releaseOnBus_hub]) ?_
  rw [Upstream.replay, ← dropFeed_upstream]
  rfl

theorem foldl_releaseOnBus_calls (ts : List Topic) (w : World) :
    w.Calls (ts.map .released) (ts.foldl releaseOnBus w) := by
  induction ts generalizing w with
  | nil => exact .none rfl rfl
  | cons t rest ih => exact (releaseOnBus_calls w t).trans (ih _)

/-- Among releases there is no request. -/
theorem requested_not_mem_released {ts : List Topic} {granted : Bool} :
    Entry.requested t granted ∉ ts.map .released := by
  simp

/-- A hub that stops gives up every topic that it is registered on, and calls the bus for nothing
else. -/
theorem shutdown_calls (w : World) : w.Calls (w.hub.topics.keys.map .released) w.shutdown := by
  obtain ⟨m₁, h₁⟩ := refuseAll_hub w
  obtain ⟨m₂, h₂⟩ := endAll_hub w.refuseAll
  have hhub : w.refuseAll.endAll.hub.topics = w.hub.topics := by rw [h₂, h₁]
  have hbefore : w.Calls [] { w.refuseAll.endAll with hub.topics := {} } := by
    refine .none ?_ ?_
    · simp only [upstream, endAll_bus, refuseAll_bus, h₂, h₁]
    · simp only [h₂, h₁]
  have hreleased := hbefore.trans
    (foldl_releaseOnBus_calls w.hub.topics.keys { w.refuseAll.endAll with hub.topics := {} })
  rw [shutdown_eq, releaseAll, hhub]
  exact ⟨hreleased.ledger, hreleased.replayed⟩

/-! ## Installing -/

/-- A subscription is installed with a call for its topic, or without one where the hub is registered
on the topic or the subscription is turned away. -/
theorem install_calls (w : World) (s : Subscription) :
    w.Calls [] (w.install s) ∨
      w.hub.topics.contains s.topic = false ∧
        ∃ granted, w.Calls [.requested s.topic granted] (w.install s) := by
  rcases install_cases w s with ⟨-, -, h⟩ | ⟨-, h⟩ | ⟨e, -, ht, hb, h⟩ | ⟨w', -, hreg, h⟩ <;> rw [h]
  · exact .inl (.none rfl rfl)
  · exact .inl (.none rfl rfl)
  · refine .inr ⟨ht, false, .one (by rw [refused_hub]) ?_⟩
    obtain ⟨answer, bus, hs⟩ : ∃ answer bus, w.bus.subscribe s.topic = (answer, bus) := ⟨_, _, rfl⟩
    obtain rfl : answer = .error e := by rwa [hs] at hb
    simp only [Upstream.replay, upstream, hs, (Bus.subscribe_error hs).1]
    rfl
  · rcases register_cases hreg with ⟨-, rfl⟩ | ⟨ht, hd, bus, hs, rfl⟩
    · exact .inl (.none rfl (by rw [file_hub]))
    · refine .inr ⟨ht, true, .one (by rw [file_hub, registered_hub]) ?_⟩
      simp only [Upstream.replay, upstream, hs]
      rfl

/-! ## Uninstalling -/

/-- No more than one topic is given up with a subscription. -/
theorem uninstall_calls (w : World) (id : SubscriptionId) (reason : SubscriptionError) :
    ∃ ts : List Topic, ts.length ≤ 1 ∧ w.Calls (ts.map .released) (w.uninstall id reason) := by
  rcases uninstall_cases w id reason with ⟨-, h⟩ | ⟨k, s, -, h⟩ <;> rw [h]
  · exact ⟨[], Nat.zero_le _, .none rfl rfl⟩
  · rcases releaseTopic_cases { w with hub.index := w.hub.index.erase (k, id) } s.topic with
      ⟨-, hrel⟩ | ⟨r, -, -, hrel⟩ | ⟨r, -, -, hrel⟩
    · exact ⟨[], Nat.zero_le _, .none (by rw [removed, hrel]; rfl) (by rw [removed, hrel]; rfl)⟩
    · exact ⟨[], Nat.zero_le _, .none (by rw [removed, hrel]; rfl) (by rw [removed, hrel]; rfl)⟩
    · have hreleased := releaseOnBus_calls
        { w with hub.index := w.hub.index.erase (k, id), hub.topics := w.hub.topics.erase s.topic }
        s.topic
      rw [removed, hrel]
      exact ⟨[s.topic], Nat.le_refl _, hreleased.ledger, hreleased.replayed⟩

theorem foldl_uninstall_calls (ids : List SubscriptionId) (reason : SubscriptionError) (w : World) :
    ∃ ts : List Topic,
      w.Calls (ts.map .released) (ids.foldl (fun w id => w.uninstall id reason) w) := by
  induction ids generalizing w with
  | nil => exact ⟨[], .none rfl rfl⟩
  | cons id rest ih =>
    obtain ⟨first, -, h⟩ := uninstall_calls w id reason
    obtain ⟨ts, hrest⟩ := ih (w.uninstall id reason)
    refine ⟨first ++ ts, ?_⟩
    rw [List.map_append]
    exact h.trans hrest

/-! ## Events and ends -/

/-- When a topic ends, no call is made: the hub gives its handle up, and notes the end. -/
theorem closeTopic_calls (w : World) (t : Topic) :
    w.Calls [] (w.closeTopic t) ∨ w.Calls [.ended t] (w.closeTopic t) := by
  unfold closeTopic
  split
  · right
    have hkept : ∀ (l : List Subscription) (w : World),
        ((l.foldl (endWithTopic t) w).upstream, (l.foldl (endWithTopic t) w).hub.ledger) =
          (w.upstream, w.hub.ledger) :=
      foldl_kept (g := fun w => (w.upstream, w.hub.ledger)) fun w s => by
        unfold endWithTopic
        split <;> rfl
    have hends := hkept (w.hub.listeners t)
      ({ w with hub.topics := w.hub.topics.erase t }.dropFeed t)
    rw [dropFeed_upstream, dropFeed_hub, Prod.mk.injEq] at hends
    refine .one ?_ ?_
    · rw [publishView_hub, record_hub, note_hub, hends.2]
    · exact congrArg some hends.1.symm
  · exact .inl (.none rfl rfl)

theorem dispatch_calls (w : World) (t : Topic) (item : Item Event) :
    ∃ entries, w.Calls entries (w.dispatch t item) ∧
      ∀ t' granted, .requested t' granted ∉ entries := by
  cases item with
  | entry e =>
    have hdelivered : w.Calls [] (w.delivered t e.payload) :=
      .none (by rw [upstream, delivered_bus, (delivered_sameLoop w t e.payload).feeds]; rfl)
        (delivered_sameLoop w t e.payload).ledger
    obtain ⟨ts, hgone⟩ := foldl_uninstall_calls (w.goneFrom t e.payload) .closed
      (w.delivered t e.payload)
    exact ⟨_, hdelivered.trans hgone, fun _ _ => requested_not_mem_released⟩
  | lagged n => exact ⟨[], .none rfl rfl, fun _ _ => List.not_mem_nil⟩
  | ended =>
    rcases closeTopic_calls w t with h | h
    · exact ⟨[], h, fun _ _ => List.not_mem_nil⟩
    · exact ⟨[.ended t], h, fun _ _ hm => by cases List.mem_singleton.mp hm⟩

/-! ## Steps -/

/-- **The ledger tells of every call.** A step of a hub writes the entries of the calls that it makes
on the bus, and of no others, and it asks only for topics that the hub is not registered on. Whatever
others do is no call of the hub, and leaves its ledger alone. -/
theorem calls_of_step (h : Step w w') :
    (∃ entries, w.Calls entries w' ∧
      ∀ t granted, .requested t granted ∈ entries → w.hub.topics.contains t = false) ∨
    w.hub.SameLoop w'.hub := by
  cases h with
  | install s _ =>
    rcases install_calls w s with h | ⟨ht, granted, h⟩
    · exact .inl ⟨_, h, fun _ _ hm => absurd hm List.not_mem_nil⟩
    · refine .inl ⟨_, h, fun t granted' hm => ?_⟩
      rw [List.mem_singleton, Entry.requested.injEq] at hm
      exact hm.1 ▸ ht
  | uninstall id reason _ =>
    obtain ⟨ts, -, h⟩ := uninstall_calls w id reason
    exact .inl ⟨_, h, fun _ _ hm => absurd hm requested_not_mem_released⟩
  | dispatch t item _ =>
    obtain ⟨entries, h, hno⟩ := dispatch_calls w t item
    exact .inl ⟨entries, h, fun _ _ hm => absurd hm (hno _ _)⟩
  | shutdown _ =>
    exact .inl ⟨_, shutdown_calls w, fun _ _ hm => absurd hm requested_not_mem_released⟩
  | others he => exact .inr he

/-- The calls of a step that a hub takes by itself, by which step it is. One that reads has taken an
item from the bus before. -/
theorem perform_calls (w : World) (turn : Turn) :
    ∃ bus entries, { w with bus }.Calls entries (w.perform turn) ∧
      ((∃ t, turn = .read t) ∨ bus = w.bus) ∧
      ∀ t granted, .requested t granted ∈ entries →
        turn = .install ∧ ∃ s, w.hub.installs.head? = some s ∧ s.topic = t := by
  cases turn with
  | stop =>
    exact ⟨w.bus, _, shutdown_calls w, .inr rfl, fun _ _ hm => absurd hm requested_not_mem_released⟩
  | install =>
    cases hq : w.hub.installs with
    | nil =>
      refine ⟨w.bus, [], ?_, .inr rfl, fun _ _ hm => absurd hm List.not_mem_nil⟩
      simp only [perform, hq]
      exact .none rfl rfl
    | cons s rest =>
      simp only [perform, hq]
      rcases install_calls { w with hub.installs := rest } s with h | ⟨-, granted, h⟩
      · exact ⟨w.bus, [], ⟨h.ledger, h.replayed⟩, .inr rfl, fun _ _ hm => absurd hm List.not_mem_nil⟩
      · refine ⟨w.bus, _, ⟨h.ledger, h.replayed⟩, .inr rfl, fun t granted' hm => ?_⟩
        rw [List.mem_singleton, Entry.requested.injEq] at hm
        exact ⟨trivial, s, rfl, hm.1.symm⟩
  | remove =>
    cases hq : w.hub.removals with
    | nil =>
      refine ⟨w.bus, [], ?_, .inr rfl, fun _ _ hm => absurd hm List.not_mem_nil⟩
      simp only [perform, hq]
      exact .none rfl rfl
    | cons id rest =>
      simp only [perform, hq]
      obtain ⟨ts, -, h⟩ := uninstall_calls { w with hub.removals := rest } id .unsubscribed
      exact ⟨w.bus, _, ⟨h.ledger, h.replayed⟩, .inr rfl,
        fun _ _ hm => absurd hm requested_not_mem_released⟩
  | read t =>
    simp only [perform]
    split
    · exact ⟨w.bus, [], .none rfl rfl, .inr rfl, fun _ _ hm => absurd hm List.not_mem_nil⟩
    · rename_i item bus _
      obtain ⟨entries, h, hno⟩ := dispatch_calls { w with bus } t item
      exact ⟨bus, entries, h, .inl ⟨t, rfl⟩, fun _ _ hm => absurd hm (hno _ _)⟩

end World

end EventFanout
