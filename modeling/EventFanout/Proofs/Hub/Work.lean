/-
EventFanout.Proofs.Hub.Work — what each step of a hub's work can come to.

First the small pieces (counting, noting, giving a feed up, closing a line): each
changes one part of the world, and an equation for the hub, the bus and the lines says
which. Then one inversion for every step that has a choice (`install_cases`,
`register_cases`, `releaseTopic_cases`, `uninstall_cases`); they say all that the step
can do, guards included, so that no later proof has to open it.
-/
import EventFanout.Hub.Work
import EventFanout.Proofs.Hub.Index

namespace EventFanout.World

/-! ## The small pieces -/

@[simp] theorem record_bus (w : World) (t : Metrics.Tally) : (w.record t).bus = w.bus := rfl
@[simp] theorem record_lines (w : World) (t : Metrics.Tally) : (w.record t).lines = w.lines := rfl
@[simp] theorem record_held (w : World) (t : Metrics.Tally) : (w.record t).held = w.held := rfl
@[simp] theorem record_issued (w : World) (t : Metrics.Tally) :
    (w.record t).issued = w.issued := rfl
@[simp] theorem record_hub (w : World) (t : Metrics.Tally) :
    (w.record t).hub = { w.hub with metrics := w.hub.metrics.record t } := rfl

@[simp] theorem note_bus (w : World) (e : Entry) : (w.note e).bus = w.bus := rfl
@[simp] theorem note_lines (w : World) (e : Entry) : (w.note e).lines = w.lines := rfl
@[simp] theorem note_held (w : World) (e : Entry) : (w.note e).held = w.held := rfl
@[simp] theorem note_issued (w : World) (e : Entry) : (w.note e).issued = w.issued := rfl
@[simp] theorem note_hub (w : World) (e : Entry) :
    (w.note e).hub = { w.hub with ledger := w.hub.ledger ++ [e] } := rfl

@[simp] theorem publishView_bus (w : World) : w.publishView.bus = w.bus := rfl
@[simp] theorem publishView_lines (w : World) : w.publishView.lines = w.lines := rfl
@[simp] theorem publishView_held (w : World) : w.publishView.held = w.held := rfl
@[simp] theorem publishView_issued (w : World) : w.publishView.issued = w.issued := rfl
@[simp] theorem publishView_hub (w : World) :
    w.publishView.hub = { w.hub with view := w.hub.topics } := rfl

@[simp] theorem closeLine_bus (w : World) (id : SubscriptionId) (r : SubscriptionError) :
    (w.closeLine id r).bus = w.bus := rfl
@[simp] theorem closeLine_hub (w : World) (id : SubscriptionId) (r : SubscriptionError) :
    (w.closeLine id r).hub = w.hub := rfl
@[simp] theorem closeLine_held (w : World) (id : SubscriptionId) (r : SubscriptionError) :
    (w.closeLine id r).held = w.held := rfl
@[simp] theorem closeLine_issued (w : World) (id : SubscriptionId) (r : SubscriptionError) :
    (w.closeLine id r).issued = w.issued := rfl
@[simp] theorem closeLine_lines (w : World) (id : SubscriptionId) (r : SubscriptionError) :
    (w.closeLine id r).lines = w.lines.update id fun l => l.close r := rfl

@[simp] theorem dropFeed_lines (w : World) (t : Topic) : (w.dropFeed t).lines = w.lines := by
  unfold dropFeed; split <;> rfl
@[simp] theorem dropFeed_held (w : World) (t : Topic) : (w.dropFeed t).held = w.held := by
  unfold dropFeed; split <;> rfl
@[simp] theorem dropFeed_issued (w : World) (t : Topic) : (w.dropFeed t).issued = w.issued := by
  unfold dropFeed; split <;> rfl

/-- Where there is no feed to give up, erasing it changes nothing either. -/
@[simp] theorem dropFeed_hub (w : World) (t : Topic) :
    (w.dropFeed t).hub = { w.hub with feeds := w.hub.feeds.erase t } := by
  unfold dropFeed
  split
  · rfl
  · rename_i h
    rw [Table.erase_of_not_mem ((Table.get?_eq_none_iff _ _).mp h)]

@[simp] theorem releaseOnBus_lines (w : World) (t : Topic) :
    (w.releaseOnBus t).lines = w.lines := by simp [releaseOnBus]
@[simp] theorem releaseOnBus_held (w : World) (t : Topic) :
    (w.releaseOnBus t).held = w.held := by simp [releaseOnBus]
@[simp] theorem releaseOnBus_issued (w : World) (t : Topic) :
    (w.releaseOnBus t).issued = w.issued := by simp [releaseOnBus]
@[simp] theorem releaseOnBus_hub (w : World) (t : Topic) :
    (w.releaseOnBus t).hub =
      { w.hub with
        feeds := w.hub.feeds.erase t
        ledger := w.hub.ledger ++ [.released t]
        metrics := w.hub.metrics.record .topicReleased } := by
  simp [releaseOnBus]

/-! ## Installing -/

/-- The world in which the hub has just been registered on a topic that nobody listens to yet. -/
def registered (w : World) (t : Topic) (h : Handle) (bus : Bus) : World :=
  let w := { w with
    bus
    hub.topics := w.hub.topics.set t ⟨h.registration, 0⟩
    hub.feeds := w.hub.feeds.set t h }
  (w.note (.requested t true)).record .topicRegistered

theorem register_cases {w w' : World} {t : Topic} (h : w.register t = .ok w') :
    (w.hub.topics.contains t = true ∧ w' = w) ∨
    (w.hub.topics.contains t = false ∧
      ∃ hd bus, w.bus.subscribe t = (.ok hd, bus) ∧ w' = w.registered t hd bus) := by
  unfold register at h
  split at h
  · rename_i hc
    exact .inl ⟨hc, by simpa using h.symm⟩
  · rename_i hc
    split at h
    · simp at h
    · rename_i hd bus hs
      exact .inr ⟨by simpa using hc, hd, bus, hs, (Except.ok.inj h).symm⟩

theorem register_error {w : World} {t : Topic} {e : BusError} (h : w.register t = .error e) :
    w.hub.topics.contains t = false ∧ (w.bus.subscribe t).1 = .error e := by
  unfold register at h
  split at h
  · simp at h
  · rename_i hc
    split at h
    · rename_i e' bus hs
      exact ⟨by simpa using hc, by rw [hs]; simpa using h⟩
    · simp at h

def refused (w : World) (s : Subscription) (e : BusError) : World :=
  ((w.note (.requested s.topic false)).record .rejected).closeLine s.id (.registrationFailed e)

/-- A subscription is turned away, or fails with the bus, or is filed on its topic. -/
theorem install_cases (w : World) (s : Subscription) :
    (w.hub.config.lightMode = true ∧ s.kind.requiresFullNode = true ∧
      w.install s = w.reject s (.lightMode s.kind)) ∨
    (w.hub.contains s.id = true ∧ w.install s = w.reject s (.duplicateId s.id)) ∨
    (∃ e, w.hub.contains s.id = false ∧ w.hub.topics.contains s.topic = false ∧
      (w.bus.subscribe s.topic).1 = .error e ∧ w.install s = w.refused s e) ∨
    (∃ w', w.hub.contains s.id = false ∧ w.register s.topic = .ok w' ∧
      w.install s = w'.file s) := by
  unfold install
  split
  · rename_i hl
    simp only [Bool.and_eq_true] at hl
    exact .inl ⟨hl.1, hl.2, rfl⟩
  · split
    · rename_i hc
      exact .inr (.inl ⟨hc, rfl⟩)
    · rename_i hc
      have hc' : w.hub.contains s.id = false := by simpa using hc
      split
      · rename_i w' hr
        exact .inr (.inr (.inr ⟨w', hc', hr, rfl⟩))
      · rename_i e hr
        obtain ⟨ht, hb⟩ := register_error hr
        exact .inr (.inr (.inl ⟨e, hc', ht, hb, rfl⟩))

/-! ## Uninstalling -/

/-- A topic loses one of several subscribers, or its last one and with it the registration. -/
theorem releaseTopic_cases (w : World) (t : Topic) :
    (w.hub.topics.get? t = none ∧ w.releaseTopic t = w) ∨
    (∃ r, w.hub.topics.get? t = some r ∧ 1 < r.subscribers ∧
      w.releaseTopic t =
        { w with hub.topics := w.hub.topics.set t { r with subscribers := r.subscribers - 1 } }) ∨
    (∃ r, w.hub.topics.get? t = some r ∧ r.subscribers ≤ 1 ∧
      w.releaseTopic t = { w with hub.topics := w.hub.topics.erase t }.releaseOnBus t) := by
  cases h : w.hub.topics.get? t with
  | none => exact .inl ⟨rfl, by simp only [releaseTopic, h]⟩
  | some r =>
    right
    simp only [releaseTopic, h]
    by_cases hl : 1 < r.subscribers
    · exact .inl ⟨r, rfl, hl, if_pos (by omega)⟩
    · exact .inr ⟨r, rfl, by omega, if_neg (by omega)⟩

@[simp] theorem releaseTopic_lines (w : World) (t : Topic) :
    (w.releaseTopic t).lines = w.lines := by
  rcases releaseTopic_cases w t with ⟨_, h⟩ | ⟨r, _, _, h⟩ | ⟨r, _, _, h⟩ <;> simp [h]
@[simp] theorem releaseTopic_held (w : World) (t : Topic) :
    (w.releaseTopic t).held = w.held := by
  rcases releaseTopic_cases w t with ⟨_, h⟩ | ⟨r, _, _, h⟩ | ⟨r, _, _, h⟩ <;> simp [h]
@[simp] theorem releaseTopic_issued (w : World) (t : Topic) :
    (w.releaseTopic t).issued = w.issued := by
  rcases releaseTopic_cases w t with ⟨_, h⟩ | ⟨r, _, _, h⟩ | ⟨r, _, _, h⟩ <;> simp [h]

def removed (w : World) (key : Kind × SubscriptionId) (s : Subscription)
    (reason : SubscriptionError) : World :=
  let w := { w with hub.index := w.hub.index.erase key }
  (((w.releaseTopic s.topic).record .uninstall).publishView).closeLine key.2 reason

theorem uninstall_cases (w : World) (id : SubscriptionId) (reason : SubscriptionError) :
    (w.hub.find? id = none ∧ w.uninstall id reason = w) ∨
    (∃ k s, w.hub.find? id = some ((k, id), s) ∧
      w.uninstall id reason = w.removed (k, id) s reason) := by
  unfold uninstall
  split
  · rename_i h
    exact .inl ⟨h, rfl⟩
  · rename_i key s h
    have hid : key.2 = id := by
      have := List.find?_some h
      simpa using this
    obtain ⟨k, id'⟩ := key
    subst hid
    exact .inr ⟨k, s, h, rfl⟩

/-- Nobody is removed where nobody of that identity is installed. -/
theorem uninstall_of_not_mem {w : World} {id : SubscriptionId} (h : id ∉ w.hub.ids)
    (r : SubscriptionError) : w.uninstall id r = w := by
  rcases uninstall_cases w id r with ⟨-, he⟩ | ⟨k, s, hf, -⟩
  · exact he
  · rw [(Hub.find?_eq_none_iff w.hub id).mpr h] at hf
    cases hf

/-! ## Ending a topic -/

/-- Ending a subscription with its topic takes it out of the index and counts it. -/
theorem endWithTopic_hub {w : World} (hn : w.hub.ids.Nodup) (t : Topic) (s : Subscription) :
    ∃ m, (endWithTopic t w s).hub = { w.hub with
      index := ⟨w.hub.index.entries.filter fun e => e.1.2 ≠ s.id⟩, metrics := m } := by
  unfold endWithTopic
  split
  · rename_i hf
    have hkeep : (w.hub.index.entries.filter fun e => e.1.2 ≠ s.id) = w.hub.index.entries := by
      rw [List.filter_eq_self]
      intro e he
      simp only [ne_eq, decide_eq_true_eq]
      intro hid
      exact (Hub.find?_eq_none_iff _ _).mp hf (Hub.mem_ids.mpr ⟨e.1.1, e.2, by rwa [← hid]⟩)
    exact ⟨w.hub.metrics, by rw [hkeep]⟩
  · rename_i key s' hf
    obtain ⟨he, hid⟩ := Hub.mem_of_find? hf
    refine ⟨w.hub.metrics.record .uninstall, ?_⟩
    rw [← hid, ← Hub.erase_eq_filter hn he]
    rfl

/-- Ending subscriptions one after the other takes their entries out of the index, and else changes
only the counters. -/
theorem foldl_endWithTopic_hub (t : Topic) (l : List Subscription) {w : World}
    (hn : w.hub.ids.Nodup) :
    ∃ m, (l.foldl (endWithTopic t) w).hub = { w.hub with
      index := ⟨w.hub.index.entries.filter fun e => e.1.2 ∉ l.map Subscription.id⟩
      metrics := m } := by
  induction l generalizing w with
  | nil =>
    refine ⟨w.hub.metrics, ?_⟩
    have hkeep : (w.hub.index.entries.filter fun e => e.1.2 ∉ ([] : List Subscription).map
        Subscription.id) = w.hub.index.entries := by
      rw [List.filter_eq_self]
      simp
    rw [hkeep]
    rfl
  | cons s rest ih =>
    obtain ⟨m₁, h₁⟩ := endWithTopic_hub hn t s
    have hn₁ : (endWithTopic t w s).hub.ids.Nodup := by
      rw [h₁]
      exact hn.sublist ((List.filter_sublist.map _).map _)
    obtain ⟨m₂, h₂⟩ := ih hn₁
    refine ⟨m₂, ?_⟩
    rw [List.foldl_cons, h₂, h₁]
    simp only [List.filter_filter, Hub.mk.injEq, Table.mk.injEq, true_and, and_true]
    apply List.filter_congr
    intro e _
    by_cases he : e.1.2 = s.id <;> simp [he]

/-- The end of a topic takes the topic, its feed and its subscriptions away, and nothing else. -/
theorem closeTopic_cases {w : World} (hn : w.hub.ids.Nodup) (t : Topic) :
    (w.hub.topics.contains t = false ∧ w.closeTopic t = w) ∨
    (w.hub.topics.contains t = true ∧ ∃ m, (w.closeTopic t).hub = { w.hub with
      index := ⟨w.hub.index.entries.filter fun e => e.1.2 ∉ (w.hub.listeners t).map Subscription.id⟩
      topics := w.hub.topics.erase t
      feeds := w.hub.feeds.erase t
      view := w.hub.topics.erase t
      ledger := w.hub.ledger ++ [.ended t]
      metrics := m }) := by
  unfold closeTopic
  split
  · rename_i hc
    refine .inr ⟨hc, ?_⟩
    have hn' : ({ w with hub.topics := w.hub.topics.erase t }.dropFeed t).hub.ids.Nodup := by
      rw [dropFeed_hub]
      exact hn
    obtain ⟨m, h⟩ := foldl_endWithTopic_hub t (w.hub.listeners t) hn'
    refine ⟨m.record .topicReleased, ?_⟩
    simp only [publishView_hub, record_hub, note_hub, h, dropFeed_hub]
  · rename_i hc
    exact .inl ⟨by simpa using hc, rfl⟩

/-! ## Shutting down -/

/-- Work that leaves a part of the world alone, done for each of a list, leaves it alone. -/
theorem foldl_kept {α β : Type} {f : World → α → World} {g : World → β}
    (hf : ∀ w a, g (f w a) = g w) (l : List α) (w : World) : g (l.foldl f w) = g w := by
  induction l generalizing w with
  | nil => rfl
  | cons a rest ih => exact (ih (f w a)).trans (hf w a)

/-- Work that only counts, done for each of a list, only counts. -/
theorem foldl_metrics {α : Type} (f : World → α → World)
    (hf : ∀ w a, ∃ m, (f w a).hub = { w.hub with metrics := m }) (l : List α) (w : World) :
    ∃ m, (l.foldl f w).hub = { w.hub with metrics := m } := by
  induction l generalizing w with
  | nil => exact ⟨w.hub.metrics, rfl⟩
  | cons a rest ih =>
    obtain ⟨m₁, h₁⟩ := hf w a
    obtain ⟨m₂, h₂⟩ := ih (f w a)
    exact ⟨m₂, by rw [List.foldl_cons, h₂, h₁]⟩

/-- Giving topics up one after the other takes their feeds, and adds to the ledger one release for each. -/
theorem foldl_releaseOnBus_hub (ts : List Topic) (w : World) :
    ∃ m, (ts.foldl releaseOnBus w).hub = { w.hub with
      feeds := ⟨w.hub.feeds.entries.filter fun e => e.1 ∉ ts⟩
      ledger := w.hub.ledger ++ ts.map .released
      metrics := m } := by
  induction ts generalizing w with
  | nil =>
    refine ⟨w.hub.metrics, ?_⟩
    have hkeep : (w.hub.feeds.entries.filter fun e => e.1 ∉ ([] : List Topic)) =
        w.hub.feeds.entries := by
      rw [List.filter_eq_self]
      simp
    rw [hkeep, List.map_nil, List.append_nil]
    rfl
  | cons t rest ih =>
    obtain ⟨m, h⟩ := ih (w.releaseOnBus t)
    refine ⟨m, ?_⟩
    rw [List.foldl_cons, h, releaseOnBus_hub]
    simp only [Table.erase, List.filter_filter, List.map_cons, List.append_assoc,
      List.singleton_append, Hub.mk.injEq, Table.mk.injEq, true_and, and_true]
    apply List.filter_congr
    intro e _
    by_cases he : e.1 = t <;> simp [he]

def refuseAll (w : World) : World :=
  let w := w.hub.installs.foldl refuseWaiting { w with hub.installs := [] }
  { w with hub.removals := [] }

def endAll (w : World) : World :=
  w.hub.index.values.foldl endInstalled { w with hub.index := {} }

def releaseAll (w : World) : World :=
  w.hub.topics.keys.foldl releaseOnBus { w with hub.topics := {} }

theorem shutdown_eq (w : World) :
    w.shutdown = { w.refuseAll.endAll.releaseAll.publishView with hub.running := false } := rfl

theorem refuseAll_hub (w : World) :
    ∃ m, w.refuseAll.hub = { w.hub with installs := [], removals := [], metrics := m } := by
  obtain ⟨m, h⟩ := foldl_metrics refuseWaiting (fun w s => ⟨w.hub.metrics.record .rejected, rfl⟩)
    w.hub.installs { w with hub.installs := [] }
  exact ⟨m, by simp only [refuseAll, h]⟩

theorem endAll_hub (w : World) :
    ∃ m, w.endAll.hub = { w.hub with index := {}, metrics := m } := by
  obtain ⟨m, h⟩ := foldl_metrics endInstalled (fun w s => ⟨w.hub.metrics.record .uninstall, rfl⟩)
    w.hub.index.values { w with hub.index := {} }
  exact ⟨m, h⟩

theorem releaseAll_hub (w : World) :
    ∃ m, w.releaseAll.hub = { w.hub with
      topics := {}
      feeds := ⟨w.hub.feeds.entries.filter fun e => e.1 ∉ w.hub.topics.keys⟩
      ledger := w.hub.ledger ++ w.hub.topics.keys.map .released
      metrics := m } := by
  obtain ⟨m, h⟩ := foldl_releaseOnBus_hub w.hub.topics.keys { w with hub.topics := {} }
  exact ⟨m, h⟩

theorem refuseAll_bus (w : World) : w.refuseAll.bus = w.bus :=
  foldl_kept (f := refuseWaiting) (g := World.bus) (fun _ _ => rfl) _ { w with hub.installs := [] }

theorem endAll_bus (w : World) : w.endAll.bus = w.bus :=
  foldl_kept (f := endInstalled) (g := World.bus) (fun _ _ => rfl) _ { w with hub.index := {} }

/-- Giving a topic up takes its route on the bus away. -/
theorem releaseOnBus_routes (w : World) (t : Topic) :
    (w.releaseOnBus t).bus.routes = w.bus.routes.erase t := by
  have hdrop : (w.dropFeed t).bus.routes = w.bus.routes := by
    unfold dropFeed
    split <;> rfl
  have hleave : ∀ b : Bus, (b.unsubscribe t).2.routes = b.routes.erase t := by
    intro b
    unfold Bus.unsubscribe
    split
    · rfl
    · rename_i hn
      rw [Table.erase_of_not_mem ((Table.get?_eq_none_iff _ _).mp hn)]
  simp only [releaseOnBus, record_bus, note_bus, hleave, hdrop]

theorem foldl_releaseOnBus_routes (ts : List Topic) (w : World) (t : Topic) :
    (ts.foldl releaseOnBus w).bus.routes.get? t =
      if t ∈ ts then none else w.bus.routes.get? t := by
  induction ts generalizing w with
  | nil => rw [if_neg List.not_mem_nil, List.foldl_nil]
  | cons t' rest ih =>
    rw [List.foldl_cons, ih, releaseOnBus_routes, Table.get?_erase]
    by_cases ht : t' = t
    · simp [ht]
    · have ht' : ¬ t = t' := fun e => ht e.symm
      simp [ht, ht']

/-- A hub that shuts down takes the routes of its topics away, and no others. -/
theorem shutdown_routes (w : World) (t : Topic) :
    w.shutdown.bus.routes.get? t =
      if t ∈ w.hub.topics.keys then none else w.bus.routes.get? t := by
  obtain ⟨m₁, h₁⟩ := refuseAll_hub w
  obtain ⟨m₂, h₂⟩ := endAll_hub w.refuseAll
  have htopics : w.refuseAll.endAll.hub.topics = w.hub.topics := by rw [h₂, h₁]
  have hbus : w.refuseAll.endAll.bus = w.bus := (endAll_bus _).trans (refuseAll_bus w)
  have hrelease := foldl_releaseOnBus_routes w.refuseAll.endAll.hub.topics.keys
    { w.refuseAll.endAll with hub.topics := {} } t
  rw [htopics, hbus] at hrelease
  rw [shutdown_eq, publishView_bus, ← hrelease, ← htopics]
  rfl

/-- A hub that has shut down holds nothing, and has given up every topic it was registered on. -/
theorem shutdown_hub (w : World) :
    ∃ m, w.shutdown.hub = { w.hub with
      installs := [], removals := [], index := {}, topics := {}, view := {}
      feeds := ⟨w.hub.feeds.entries.filter fun e => e.1 ∉ w.hub.topics.keys⟩
      ledger := w.hub.ledger ++ w.hub.topics.keys.map .released
      running := false, metrics := m } := by
  obtain ⟨m₁, h₁⟩ := refuseAll_hub w
  obtain ⟨m₂, h₂⟩ := endAll_hub w.refuseAll
  obtain ⟨m₃, h₃⟩ := releaseAll_hub w.refuseAll.endAll
  exact ⟨m₃, by rw [shutdown_eq]; simp only [publishView_hub, h₃, h₂, h₁]⟩

end EventFanout.World
