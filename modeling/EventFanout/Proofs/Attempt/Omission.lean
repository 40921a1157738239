/-
EventFanout.Proofs.Attempt.Omission — a world with a subscription left out of it.

A subscription that has never been installed is nowhere but with its client, in the queues of the
hub and in the count of what was rejected. `World.leaveOut` takes it out of all these, and
`World.Without` says of a second world that it is the first without the subscription. Only the
ledgers may differ: one of them keeps that the bus was asked for a topic in vain.

The work of the hub that is not about the subscription leaves the second world the first without it,
which is one lemma an operation; the names are those of the operations. What is the subscription's
own does so when it is done in the first world only (`own_line` and its like).
-/
import EventFanout.Proofs.Table
import EventFanout.Proofs.Hub.Work

namespace EventFanout.World

/-- The world without a subscription that is not installed, and without `cost` of what was counted
as rejected. -/
def leaveOut (id : SubscriptionId) (cost : UInt64) (ledger : List Entry) (w : World) : World :=
  { w with
    lines := w.lines.erase id
    held := w.held.erase id
    hub := { w.hub with
      installs := w.hub.installs.filter (·.id ≠ id)
      removals := w.hub.removals.filter (· ≠ id)
      metrics := { w.hub.metrics with rejected := w.hub.metrics.rejected - cost }
      ledger } }

/-- The second world is the first without a subscription, whatever their ledgers say. -/
def Without (id : SubscriptionId) (cost : UInt64) (w v : World) : Prop :=
  ∃ ledger, v = w.leaveOut id cost ledger

variable {w v : World} {id id' : SubscriptionId} {cost : UInt64} {s : Subscription}

namespace Without

/-! ## What the two worlds share -/

theorem bus (h : Without id cost w v) : v.bus = w.bus := by
  obtain ⟨ledger, rfl⟩ := h
  rfl

theorem config (h : Without id cost w v) : v.hub.config = w.hub.config := by
  obtain ⟨ledger, rfl⟩ := h
  rfl

theorem running (h : Without id cost w v) : v.hub.running = w.hub.running := by
  obtain ⟨ledger, rfl⟩ := h
  rfl

theorem index (h : Without id cost w v) : v.hub.index = w.hub.index := by
  obtain ⟨ledger, rfl⟩ := h
  rfl

theorem topics (h : Without id cost w v) : v.hub.topics = w.hub.topics := by
  obtain ⟨ledger, rfl⟩ := h
  rfl

theorem feeds (h : Without id cost w v) : v.hub.feeds = w.hub.feeds := by
  obtain ⟨ledger, rfl⟩ := h
  rfl

theorem installs (h : Without id cost w v) :
    v.hub.installs = w.hub.installs.filter (·.id ≠ id) := by
  obtain ⟨ledger, rfl⟩ := h
  rfl

theorem removals (h : Without id cost w v) : v.hub.removals = w.hub.removals.filter (· ≠ id) := by
  obtain ⟨ledger, rfl⟩ := h
  rfl

/-- Another that is first in a queue is first in both worlds. -/
theorem installs_cons (h : Without id cost w v) {rest : List Subscription}
    (hq : w.hub.installs = s :: rest) (hne : s.id ≠ id) :
    v.hub.installs = s :: rest.filter (·.id ≠ id) := by
  rw [h.installs, hq, List.filter_cons_of_pos (by simpa using hne)]

theorem removals_cons (h : Without id cost w v) {rest : List SubscriptionId}
    (hq : w.hub.removals = id' :: rest) (hne : id' ≠ id) :
    v.hub.removals = id' :: rest.filter (· ≠ id) := by
  rw [h.removals, hq, List.filter_cons_of_pos (by simpa using hne)]

theorem held (h : Without id cost w v) (hne : id' ≠ id) : v.held.get? id' = w.held.get? id' := by
  obtain ⟨ledger, rfl⟩ := h
  exact (Table.get?_erase _ _ _).trans (if_neg hne.symm)

theorem line (h : Without id cost w v) (hne : id' ≠ id) : v.lines.get? id' = w.lines.get? id' := by
  obtain ⟨ledger, rfl⟩ := h
  exact (Table.get?_erase _ _ _).trans (if_neg hne.symm)

theorem listeners (h : Without id cost w v) (t : Topic) :
    v.hub.listeners t = w.hub.listeners t := by
  rw [Hub.listeners, h.index, Hub.listeners]

/-! ## Single changes -/

theorem record (h : Without id cost w v) (t : Metrics.Tally) :
    Without id cost (w.record t) (v.record t) := by
  obtain ⟨ledger, rfl⟩ := h
  refine ⟨ledger, ?_⟩
  cases t with
  | rejected =>
    have hcount : w.hub.metrics.rejected - cost + 1 = w.hub.metrics.rejected + 1 - cost := by grind
    simp only [World.record, leaveOut, Metrics.record, hcount]
  | _ => rfl

theorem note (h : Without id cost w v) (e : Entry) : Without id cost (w.note e) (v.note e) := by
  obtain ⟨ledger, rfl⟩ := h
  exact ⟨ledger ++ [e], rfl⟩

theorem publishView (h : Without id cost w v) : Without id cost w.publishView v.publishView := by
  obtain ⟨ledger, rfl⟩ := h
  exact ⟨ledger, rfl⟩

theorem updateLine (h : Without id cost w v) (hne : id' ≠ id) (f : Line → Line) :
    Without id cost { w with lines := w.lines.update id' f }
      { v with lines := v.lines.update id' f } := by
  obtain ⟨ledger, rfl⟩ := h
  refine ⟨ledger, ?_⟩
  simp only [leaveOut, Table.update_erase _ hne]

theorem closeLine (h : Without id cost w v) (hne : id' ≠ id) (r : SubscriptionError) :
    Without id cost (w.closeLine id' r) (v.closeLine id' r) := h.updateLine hne _

theorem setIndex (h : Without id cost w v) (index : Table (Kind × SubscriptionId) Subscription) :
    Without id cost { w with hub.index := index } { v with hub.index := index } := by
  obtain ⟨ledger, rfl⟩ := h
  exact ⟨ledger, rfl⟩

theorem setTopics (h : Without id cost w v) (topics : Table Topic Registration) :
    Without id cost { w with hub.topics := topics } { v with hub.topics := topics } := by
  obtain ⟨ledger, rfl⟩ := h
  exact ⟨ledger, rfl⟩

theorem setInstalls (h : Without id cost w v) (installs : List Subscription) :
    Without id cost { w with hub.installs := installs }
      { v with hub.installs := installs.filter (·.id ≠ id) } := by
  obtain ⟨ledger, rfl⟩ := h
  exact ⟨ledger, rfl⟩

theorem setRemovals (h : Without id cost w v) (removals : List SubscriptionId) :
    Without id cost { w with hub.removals := removals }
      { v with hub.removals := removals.filter (· ≠ id) } := by
  obtain ⟨ledger, rfl⟩ := h
  exact ⟨ledger, rfl⟩

theorem setBus (h : Without id cost w v) (bus : Bus) :
    Without id cost { w with bus } { v with bus } := by
  obtain ⟨ledger, rfl⟩ := h
  exact ⟨ledger, rfl⟩

theorem dropFeed (h : Without id cost w v) (t : Topic) :
    Without id cost (w.dropFeed t) (v.dropFeed t) := by
  obtain ⟨ledger, rfl⟩ := h
  refine ⟨ledger, ?_⟩
  show (w.leaveOut id cost ledger).dropFeed t = _
  cases hf : w.hub.feeds.get? t with
  | none => simp only [World.dropFeed, leaveOut, hf]
  | some hd => simp only [World.dropFeed, leaveOut, hf]

theorem releaseOnBus (h : Without id cost w v) (t : Topic) :
    Without id cost (w.releaseOnBus t) (v.releaseOnBus t) := by
  have hdrop := h.dropFeed t
  simp only [World.releaseOnBus, hdrop.bus]
  exact ((hdrop.setBus _).note _).record _

theorem releaseTopic (h : Without id cost w v) (t : Topic) :
    Without id cost (w.releaseTopic t) (v.releaseTopic t) := by
  simp only [World.releaseTopic, h.topics]
  split
  · exact h
  · split
    · exact h.setTopics _
    · exact (h.setTopics _).releaseOnBus t

/-! ## Operations of the hub -/

theorem reject (h : Without id cost w v) (hne : s.id ≠ id) (cause : Rejection) :
    Without id cost (w.reject s cause) (v.reject s cause) := (h.record _).closeLine hne _

theorem register (h : Without id cost w v) (t : Topic) :
    (∃ w' v', w.register t = .ok w' ∧ v.register t = .ok v' ∧ Without id cost w' v') ∨
      ∃ e, w.register t = .error e ∧ v.register t = .error e := by
  simp only [World.register, h.topics, h.feeds, h.bus]
  split
  · exact .inl ⟨w, v, rfl, rfl, h⟩
  · split
    · exact .inr ⟨_, rfl, rfl⟩
    · rename_i hd bus _
      obtain ⟨ledger, rfl⟩ := h
      exact .inl ⟨_, _, rfl, rfl, ledger ++ [.requested t true], rfl⟩

theorem file (h : Without id cost w v) (hne : s.id ≠ id) :
    Without id cost (w.file s) (v.file s) := by
  have htables := (h.setTopics (w.hub.topics.update s.topic Registration.grow)).setIndex
    (w.hub.index.set (s.kind, s.id) s)
  simp only [World.file, h.topics, h.index]
  exact (htables.record .install).publishView.updateLine hne Line.markInstalled

theorem install (h : Without id cost w v) (hne : s.id ≠ id) :
    Without id cost (w.install s) (v.install s) := by
  have hcontains : v.hub.contains s.id = w.hub.contains s.id := by
    rw [Hub.contains, h.index, Hub.contains]
  simp only [World.install, h.config, hcontains]
  split
  · exact h.reject hne _
  · split
    · exact h.reject hne _
    · rcases h.register s.topic with ⟨w', v', hw, hv, h'⟩ | ⟨e, hw, hv⟩
      · rw [hw, hv]
        exact h'.file hne
      · rw [hw, hv]
        exact ((h.note _).record _).closeLine hne _

theorem uninstall (h : Without id cost w v) (hne : id' ≠ id) (r : SubscriptionError) :
    Without id cost (w.uninstall id' r) (v.uninstall id' r) := by
  have hfind : v.hub.find? id' = w.hub.find? id' := by rw [Hub.find?, h.index, Hub.find?]
  simp only [World.uninstall, hfind, h.index]
  split
  · exact h
  · exact (((h.setIndex _).releaseTopic _).record _).publishView.closeLine hne r

/-- Work on one thing after the other. -/
theorem foldl {α : Type} {f : World → α → World} {l : List α}
    (hf : ∀ x ∈ l, ∀ w v, Without id cost w v → Without id cost (f w x) (f v x))
    (h : Without id cost w v) : Without id cost (l.foldl f w) (l.foldl f v) := by
  induction l generalizing w v with
  | nil => exact h
  | cons x rest ih =>
    exact ih (fun y hy => hf y (List.mem_cons_of_mem _ hy)) (hf x List.mem_cons_self w v h)

/-! ## Handling what was read -/

/-- What an event comes to for the others does not depend on a line that is none of theirs. -/
theorem outcomes (h : Without id cost w v) {t : Topic}
    (hnot : id ∉ (w.hub.listeners t).map Subscription.id) (p : Payload) :
    v.outcomes t p = w.outcomes t p := by
  rw [World.outcomes, World.outcomes, h.listeners]
  refine List.map_congr_left fun s hs => ?_
  have hne : s.id ≠ id := fun e => hnot (e ▸ List.mem_map_of_mem hs)
  simp only [outcome, h.line hne]

theorem erase_foldl_apply {results : List (SubscriptionId × Outcome)}
    (hnot : id ∉ results.map (·.1)) (lines : Lines) :
    (results.foldl Outcome.apply lines).erase id =
      results.foldl Outcome.apply (lines.erase id) := by
  induction results generalizing lines with
  | nil => rfl
  | cons result rest ih =>
    rw [List.map_cons, List.mem_cons, not_or] at hnot
    rw [List.foldl_cons, List.foldl_cons, ih hnot.2]
    congr 1
    simp only [Outcome.apply]
    split
    · exact Table.set_erase _ (Ne.symm hnot.1) _
    · rfl

theorem fanOut (h : Without id cost w v) {t : Topic}
    (hnot : id ∉ (w.hub.listeners t).map Subscription.id) (p : Payload) :
    Without id cost (w.fanOut t p) (v.fanOut t p) := by
  have hids : (w.outcomes t p).map (·.1) = (w.hub.listeners t).map Subscription.id := by
    rw [World.outcomes, List.map_map]
    rfl
  have hlines : Without id cost
      { w with lines := (w.outcomes t p).foldl Outcome.apply w.lines }
      { v with lines := (w.outcomes t p).foldl Outcome.apply v.lines } := by
    obtain ⟨ledger, rfl⟩ := h
    refine ⟨ledger, ?_⟩
    simp only [leaveOut, erase_foldl_apply (hids ▸ hnot)]
  simp only [World.fanOut, h.outcomes hnot]
  refine foldl (fun id' hm w v h' => h'.uninstall ?_ _) (((hlines.record _).record _).record _)
  rintro rfl
  obtain ⟨r, hr, rfl⟩ := List.mem_map.mp hm
  exact hnot (hids ▸ List.mem_map_of_mem (List.mem_filter.mp hr).1)

theorem endWithTopic (h : Without id cost w v) (t : Topic) (hne : s.id ≠ id) :
    Without id cost (endWithTopic t w s) (endWithTopic t v s) := by
  have hfind : v.hub.find? s.id = w.hub.find? s.id := by rw [Hub.find?, h.index, Hub.find?]
  simp only [World.endWithTopic, hfind, h.index]
  split
  · exact h
  · exact ((h.setIndex _).record _).closeLine hne _

theorem closeTopic (h : Without id cost w v) {t : Topic}
    (hnot : id ∉ (w.hub.listeners t).map Subscription.id) :
    Without id cost (w.closeTopic t) (v.closeTopic t) := by
  simp only [World.closeTopic, h.topics, h.listeners]
  split
  · have hended : Without id cost
        ((w.hub.listeners t).foldl (World.endWithTopic t)
          ({ w with hub.topics := w.hub.topics.erase t }.dropFeed t))
        ((w.hub.listeners t).foldl (World.endWithTopic t)
          ({ v with hub.topics := w.hub.topics.erase t }.dropFeed t)) := by
      refine foldl (fun s hs w v h' => h'.endWithTopic t ?_) ((h.setTopics _).dropFeed t)
      exact fun e => hnot (e ▸ List.mem_map_of_mem hs)
    exact ((hended.note _).record _).publishView
  · exact h

theorem dispatch (h : Without id cost w v) {t : Topic}
    (hnot : id ∉ (w.hub.listeners t).map Subscription.id) (item : Item Event) :
    Without id cost (w.dispatch t item) (v.dispatch t item) := by
  cases item with
  | entry e => exact h.fanOut hnot e.payload
  | lagged n => exact h
  | ended => exact h.closeTopic hnot

/-! ## What is the subscription's own -/

theorem own_rejected (h : Without id cost w v) : Without id (cost + 1) (w.record .rejected) v := by
  obtain ⟨ledger, rfl⟩ := h
  refine ⟨ledger, ?_⟩
  have hcount : w.hub.metrics.rejected + 1 - (cost + 1) = w.hub.metrics.rejected - cost := by grind
  simp only [World.record, leaveOut, Metrics.record, hcount]

theorem own_line (h : Without id cost w v) (f : Line → Line) :
    Without id cost { w with lines := w.lines.update id f } v := by
  obtain ⟨ledger, rfl⟩ := h
  refine ⟨ledger, ?_⟩
  simp only [leaveOut, Table.erase_update]

theorem own_held (h : Without id cost w v) :
    Without id cost { w with held := w.held.erase id } v := by
  obtain ⟨ledger, rfl⟩ := h
  refine ⟨ledger, ?_⟩
  simp only [leaveOut, Table.erase_erase]

theorem own_note (h : Without id cost w v) (e : Entry) : Without id cost (w.note e) v := by
  obtain ⟨ledger, rfl⟩ := h
  exact ⟨ledger, rfl⟩

theorem own_installs (h : Without id cost w v) {installs : List Subscription}
    (hq : installs.filter (·.id ≠ id) = w.hub.installs.filter (·.id ≠ id)) :
    Without id cost { w with hub.installs := installs } v := by
  obtain ⟨ledger, rfl⟩ := h
  refine ⟨ledger, ?_⟩
  simp only [leaveOut, hq]

theorem own_removals (h : Without id cost w v) {removals : List SubscriptionId}
    (hq : removals.filter (· ≠ id) = w.hub.removals.filter (· ≠ id)) :
    Without id cost { w with hub.removals := removals } v := by
  obtain ⟨ledger, rfl⟩ := h
  refine ⟨ledger, ?_⟩
  simp only [leaveOut, hq]

/-! ## Shutting down -/

/-- Of what waits, the others are refused in both worlds. -/
theorem foldl_refuseWaiting (h : Without id cost w v) (l : List Subscription) :
    Without id (cost + .ofNat (l.countP (·.id = id))) (l.foldl refuseWaiting w)
      ((l.filter (·.id ≠ id)).foldl refuseWaiting v) := by
  induction l generalizing w v cost with
  | nil => simpa using h
  | cons s rest ih =>
    by_cases hs : s.id = id
    · have hown : Without id (cost + 1) (refuseWaiting w s) v := by
        rw [refuseWaiting, hs]
        exact h.own_rejected.own_line _
      have hcount : cost + .ofNat ((s :: rest).countP (·.id = id)) =
          cost + 1 + .ofNat (rest.countP (·.id = id)) := by
        rw [List.countP_cons_of_pos (by simpa using hs), UInt64.ofNat_add]
        grind
      rw [List.filter_cons_of_neg (by simpa using hs), hcount]
      exact ih hown
    · rw [List.filter_cons_of_pos (by simpa using hs), List.countP_cons_of_neg (by simpa using hs)]
      exact ih ((h.record .rejected).closeLine hs .shutdown)

theorem refuseAll (h : Without id cost w v) :
    Without id (cost + .ofNat (w.hub.installs.countP (·.id = id))) w.refuseAll v.refuseAll := by
  have hrefused := (h.setInstalls []).foldl_refuseWaiting w.hub.installs
  rw [World.refuseAll, World.refuseAll, h.installs]
  exact hrefused.setRemovals []

theorem endAll (h : Without id cost w v) (hx : id ∉ w.hub.index.values.map Subscription.id) :
    Without id cost w.endAll v.endAll := by
  rw [World.endAll, World.endAll, h.index]
  refine foldl (fun s hs w v h' => ?_) (h.setIndex {})
  exact (h'.record _).closeLine (fun e => hx (e ▸ List.mem_map_of_mem hs)) _

theorem releaseAll (h : Without id cost w v) : Without id cost w.releaseAll v.releaseAll := by
  rw [World.releaseAll, World.releaseAll, h.topics]
  exact foldl (fun t _ w v h' => h'.releaseOnBus t) (h.setTopics {})

/-- If the subscription waits it is refused, and counted, where it has not been left out. -/
theorem shutdown (h : Without id cost w v) (hx : id ∉ w.hub.index.values.map Subscription.id) :
    Without id (cost + .ofNat (w.hub.installs.countP (·.id = id))) w.shutdown v.shutdown := by
  have hindex : w.refuseAll.hub.index = w.hub.index := by
    obtain ⟨m, hm⟩ := refuseAll_hub w
    rw [hm]
  obtain ⟨ledger, he⟩ := (h.refuseAll.endAll (hindex ▸ hx)).releaseAll.publishView
  rw [shutdown_eq, shutdown_eq, he]
  exact ⟨ledger, rfl⟩

end Without

end EventFanout.World
