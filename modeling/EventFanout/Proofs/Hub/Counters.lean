/-
EventFanout.Proofs.Hub.Counters — what the counters of a hub say of its tables.

A subscription is counted when it comes into the index and when it leaves it, and a topic when it
is registered and when its registration ends, in whichever of several ways that happens.
`Hub.discrepancy` is by how much the counters miss the sizes of the two tables. Counters wrap, so
it is a difference modulo 2^64.

Main statements: no action of a run changes the discrepancy (`act_discrepancy`), and a new hub
has none, so the counters are right after every run (`after_counters`).
-/
import EventFanout.Proofs.Hub.Lines
import EventFanout.Proofs.Run

namespace EventFanout

/-- By how much the counters miss the number of installed subscriptions and of registered topics. -/
def Hub.discrepancy (h : Hub) : UInt64 × UInt64 :=
  (h.metrics.installs - h.metrics.uninstalls - .ofNat h.index.size,
    h.metrics.topicsRegistered - h.metrics.topicsReleased - .ofNat h.topics.size)

namespace World

/-! ## Installing and uninstalling -/

/-- What comes into the index is counted. -/
theorem file_discrepancy {w : World} {s : Subscription} (hnew : (s.kind, s.id) ∉ w.hub.index.keys) :
    (w.file s).hub.discrepancy = w.hub.discrepancy := by
  have hsize := Table.size_set_of_not_mem s hnew
  simp only [Hub.discrepancy, file_hub, Metrics.record, hsize, Table.size_update, UInt64.ofNat_add,
    Prod.mk.injEq, and_true]
  grind

/-- What is registered is counted. -/
theorem registered_discrepancy {w : World} {t : Topic} (ht : t ∉ w.hub.topics.keys) (hd : Handle)
    (bus : Bus) : (w.registered t hd bus).hub.discrepancy = w.hub.discrepancy := by
  have hsize := Table.size_set_of_not_mem (⟨hd.registration, 0⟩ : Registration) ht
  simp only [Hub.discrepancy, registered_hub, Metrics.record, hsize, UInt64.ofNat_add,
    Prod.mk.injEq, true_and]
  grind

theorem install_discrepancy (w : World) (s : Subscription) :
    (w.install s).hub.discrepancy = w.hub.discrepancy := by
  rcases install_cases w s with ⟨_, _, h⟩ | ⟨_, h⟩ | ⟨e, _, _, _, h⟩ | ⟨w', hnew, hreg, h⟩
  · rw [h]
    rfl
  · rw [h]
    rfl
  · rw [h]
    rfl
  · have hkey : (s.kind, s.id) ∉ w.hub.index.keys := fun hm =>
      (Hub.contains_eq_false_iff _ _).mp hnew (List.mem_map.mpr ⟨_, hm, rfl⟩)
    rw [h]
    rcases register_cases hreg with ⟨_, rfl⟩ | ⟨ht, hd, bus, _, rfl⟩
    · exact file_discrepancy hkey
    · rw [file_discrepancy (by exact hkey)]
      exact registered_discrepancy ((Table.contains_eq_false_iff _ _).mp ht) hd bus

/-- What leaves the index is counted, and so is the registration that it takes with it. -/
theorem uninstall_discrepancy {w : World} (hc : w.hub.Consistent) (id : SubscriptionId)
    (r : SubscriptionError) : (w.uninstall id r).hub.discrepancy = w.hub.discrepancy := by
  rcases uninstall_cases w id r with ⟨_, h⟩ | ⟨k, s, hf, h⟩
  · rw [h]
  · have hindex := Table.size_erase hc.keys_once (Hub.mem_of_find? hf).1
    rw [h]
    simp only [removed, closeLine_hub, publishView_hub, record_hub]
    rcases releaseTopic_cases { w with hub.index := w.hub.index.erase (k, id) } s.topic with
      ⟨_, hrel⟩ | ⟨reg, hget, _, hrel⟩ | ⟨reg, hget, _, hrel⟩
    · simp only [hrel, Hub.discrepancy, Metrics.record, hindex, UInt64.ofNat_add, Prod.mk.injEq,
        and_true]
      grind
    · have htopics := Table.size_set_of_mem { reg with subscribers := reg.subscribers - 1 }
        (Table.mem_keys_of_get? hget)
      simp only at htopics
      simp only [hrel, Hub.discrepancy, Metrics.record, hindex, htopics, UInt64.ofNat_add,
        Prod.mk.injEq, and_true]
      grind
    · have htopics := Table.size_erase hc.topics_once (Table.mem_entries_of_get? hget)
      simp only [hrel, releaseOnBus_hub, Hub.discrepancy, Metrics.record, hindex, htopics,
        UInt64.ofNat_add, Prod.mk.injEq]
      grind

theorem foldl_uninstall_discrepancy {w : World} (hs : w.hub.Sound) (hr : w.hub.running = true)
    (ids : List SubscriptionId) (r : SubscriptionError) :
    (ids.foldl (fun w id => w.uninstall id r) w).hub.discrepancy = w.hub.discrepancy := by
  induction ids generalizing w with
  | nil => rfl
  | cons id rest ih =>
    obtain ⟨hs', hr'⟩ := uninstall_sound hs hr id r
    exact (ih hs' hr').trans (uninstall_discrepancy hs.consistent id r)

/-! ## Events and ends -/

theorem delivered_discrepancy (w : World) (t : Topic) (p : Payload) :
    (w.delivered t p).hub.discrepancy = w.hub.discrepancy := by
  simp only [delivered, record_hub, Hub.discrepancy, Metrics.record]

theorem endWithTopic_discrepancy {w : World} (hn : w.hub.ids.Nodup) (t : Topic)
    (s : Subscription) : (endWithTopic t w s).hub.discrepancy = w.hub.discrepancy := by
  unfold endWithTopic
  split
  · rfl
  · rename_i key s' hf
    have hindex := Table.size_erase hn.of_map (Hub.mem_of_find? hf).1
    simp only [closeLine_hub, record_hub, Hub.discrepancy, Metrics.record, hindex,
      UInt64.ofNat_add, Prod.mk.injEq, and_true]
    grind

theorem foldl_endWithTopic_discrepancy {w : World} (hn : w.hub.ids.Nodup) (t : Topic)
    (l : List Subscription) :
    (l.foldl (endWithTopic t) w).hub.discrepancy = w.hub.discrepancy := by
  induction l generalizing w with
  | nil => rfl
  | cons s rest ih =>
    exact (ih ((endWithTopic_removal hn t s).nodup hn)).trans (endWithTopic_discrepancy hn t s)

/-- The end of a topic is counted together with those whom it takes out of the index. -/
theorem closeTopic_discrepancy {w : World} (hc : w.hub.Consistent) (t : Topic) :
    (w.closeTopic t).hub.discrepancy = w.hub.discrepancy := by
  unfold closeTopic
  split
  · rename_i ht
    obtain ⟨reg, hget⟩ := Option.isSome_iff_exists.mp ht
    have hsize := Table.size_erase hc.topics_once (Table.mem_entries_of_get? hget)
    have hn : ({ w with hub.topics := w.hub.topics.erase t }.dropFeed t).hub.ids.Nodup := by
      rw [dropFeed_hub]
      exact hc.ids_once
    -- without its topic the hub is off by one, and the last count makes up for that
    have hfold := foldl_endWithTopic_discrepancy hn t (w.hub.listeners t)
    simp only [dropFeed_hub, Hub.discrepancy, Prod.mk.injEq] at hfold
    simp only [publishView_hub, record_hub, note_hub, Hub.discrepancy, Metrics.record, hsize,
      UInt64.ofNat_add, Prod.mk.injEq]
    grind
  · rfl

theorem dispatch_discrepancy {w : World} (hs : w.hub.Sound) (hr : w.hub.running = true) (t : Topic)
    (item : Item Event) : (w.dispatch t item).hub.discrepancy = w.hub.discrepancy := by
  cases item with
  | entry e =>
    have hd : (w.delivered t e.payload).hub.Sound :=
      hs.of_sameLoop (delivered_sameLoop w t e.payload)
    show (w.fanOut t e.payload).hub.discrepancy = _
    rw [fanOut_eq, foldl_uninstall_discrepancy hd
      ((delivered_sameLoop w t e.payload).running.trans hr), delivered_discrepancy]
  | lagged n => rfl
  | ended => exact closeTopic_discrepancy hs.consistent t

/-! ## Shutting down -/

/-- Work that counts one thing for each of a list counts the list. The counter of that thing is
the variable of `g`. -/
theorem foldl_tally {α : Type} {f : World → α → World} {t : Metrics.Tally} {g : UInt64 → Metrics}
    (hf : ∀ w x, (f w x).hub.metrics = w.hub.metrics.record t)
    (hg : ∀ n, (g n).record t = g (n + 1)) (l : List α) {w : World} {n : UInt64}
    (hw : w.hub.metrics = g n) : (l.foldl f w).hub.metrics = g (n + .ofNat l.length) := by
  induction l generalizing w n with
  | nil => simpa using hw
  | cons x rest ih =>
    have hx : (f w x).hub.metrics = g (n + 1) := by rw [hf, hw, hg]
    rw [List.foldl_cons, ih hx, List.length_cons, UInt64.ofNat_add, UInt64.add_assoc,
      UInt64.add_comm 1]
    rfl

/-- A hub that shuts down counts all that it refuses, ends and gives up. -/
theorem shutdown_metrics (w : World) :
    w.shutdown.hub.metrics = { w.hub.metrics with
      rejected := w.hub.metrics.rejected + .ofNat w.hub.installs.length
      uninstalls := w.hub.metrics.uninstalls + .ofNat w.hub.index.size
      topicsReleased := w.hub.metrics.topicsReleased + .ofNat w.hub.topics.size } := by
  have hrefuse : w.refuseAll.hub.metrics = { w.hub.metrics with
      rejected := w.hub.metrics.rejected + .ofNat w.hub.installs.length } :=
    foldl_tally (f := refuseWaiting) (t := .rejected)
      (g := fun n => { w.hub.metrics with rejected := n })
      (fun _ _ => rfl) (fun _ => rfl) w.hub.installs rfl
  have hend : ∀ w : World, w.endAll.hub.metrics = { w.hub.metrics with
      uninstalls := w.hub.metrics.uninstalls + .ofNat w.hub.index.size } := by
    intro w
    rw [← Table.length_values]
    exact foldl_tally (f := endInstalled) (t := .uninstall)
      (g := fun n => { w.hub.metrics with uninstalls := n }) (fun _ _ => rfl) (fun _ => rfl) w.hub.index.values rfl
  have hrelease : ∀ w : World, w.releaseAll.hub.metrics = { w.hub.metrics with
      topicsReleased := w.hub.metrics.topicsReleased + .ofNat w.hub.topics.size } := by
    intro w
    rw [← Table.length_keys]
    exact foldl_tally (f := releaseOnBus) (t := .topicReleased)
      (g := fun n => { w.hub.metrics with topicsReleased := n })
      (fun w t => by rw [releaseOnBus_hub]) (fun _ => rfl) w.hub.topics.keys rfl
  obtain ⟨m₁, h₁⟩ := refuseAll_hub w
  obtain ⟨m₂, h₂⟩ := endAll_hub w.refuseAll
  have hindex : w.refuseAll.hub.index = w.hub.index := by rw [h₁]
  have htopics : w.refuseAll.endAll.hub.topics = w.hub.topics := by rw [h₂, h₁]
  rw [shutdown_eq]
  simp only [publishView_hub, hrelease, htopics, hend, hindex, hrefuse]

theorem shutdown_discrepancy (w : World) : w.shutdown.hub.discrepancy = w.hub.discrepancy := by
  obtain ⟨m, h⟩ := shutdown_hub w
  have hmetrics := shutdown_metrics w
  have hindex : w.shutdown.hub.index = {} := by rw [h]
  have htopics : w.shutdown.hub.topics = {} := by rw [h]
  simp only [Hub.discrepancy, hmetrics, hindex, htopics, Prod.mk.injEq]
  have hnone : UInt64.ofNat 0 = 0 := rfl
  simp only [Table.size, List.length_nil, hnone]
  grind

/-! ## Runs -/

/-- A step of the hub changes the counters by as much as its tables. -/
theorem perform_discrepancy {w : World} (hs : w.hub.Sound) (hr : w.hub.running = true) (t : Turn) :
    (w.perform t).hub.discrepancy = w.hub.discrepancy := by
  cases t with
  | stop => exact shutdown_discrepancy w
  | install =>
    simp only [perform]
    split
    · rfl
    · rename_i s rest _
      exact install_discrepancy { w with hub.installs := rest } s
  | remove =>
    simp only [perform]
    split
    · rfl
    · rename_i id rest _
      have hc : ({ w with hub.removals := rest } : World).hub.Consistent :=
        hs.consistent.of_eq rfl rfl rfl rfl
      exact uninstall_discrepancy hc id .unsubscribed
  | read topic =>
    simp only [perform]
    split
    · rfl
    · rename_i item bus _
      exact dispatch_discrepancy (w := { w with bus }) hs hr topic item

/-- What is no step of the hub leaves these counters alone. -/
theorem call_discrepancy {w w' : World} {asked : Option SubscriptionId}
    (h : w.hub.Called asked w'.hub) : w'.hub.discrepancy = w.hub.discrepancy := by
  obtain ⟨rejected, filtersExpired, hm⟩ := h.metrics
  simp only [Hub.discrepancy, hm, h.loop.index, h.loop.topics]

/-- No action changes by how much the counters are off. -/
theorem act_discrepancy {w : World} (hs : w.hub.Sound) (a : Action) :
    (w.act a).hub.discrepancy = w.hub.discrepancy := by
  by_cases ha : ∃ t, a = .turn t
  · obtain ⟨t, rfl⟩ := ha
    simp only [act]
    split
    · rename_i hr
      exact perform_discrepancy hs hr t
    · rfl
  · exact call_discrepancy (act_hub w fun t h => ha ⟨t, h⟩)

theorem after_discrepancy {w : World} (hs : w.hub.Sound) (run : List Action) :
    (w.after run).hub.discrepancy = w.hub.discrepancy := by
  induction run generalizing w with
  | nil => rfl
  | cons a rest ih => exact (ih (after_sound hs [a])).trans (act_discrepancy hs a)

/-- After every run of a new hub, the counters say how many subscriptions are installed and how
many topics are registered. -/
theorem after_counters (bus : Bus) (config : Config) (governor : Governor) (run : List Action) :
    let h := ((start bus config governor).after run).hub
    h.metrics.installs = h.metrics.uninstalls + .ofNat h.index.size ∧
      h.metrics.topicsRegistered = h.metrics.topicsReleased + .ofNat h.topics.size := by
  intro h
  have hkept := after_discrepancy (start_sound bus config governor) run
  have hnone : (start bus config governor).hub.discrepancy = (0, 0) := by
    simp [start, Hub.discrepancy, Table.size]
  rw [hnone, Hub.discrepancy, Prod.mk.injEq] at hkept
  grind

end World

end EventFanout
