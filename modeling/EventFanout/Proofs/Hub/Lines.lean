/-
EventFanout.Proofs.Hub.Lines — what the hub's work does to the line of one subscription.

Removing subscriptions, for whatever reason and however many, is one relation
(`Removal`): their entries go from the index, their lines are closed for that reason if
they were installed, and nothing else that a client could see changes. Uninstalling,
ending a topic and letting go of those who are gone are all removals. Shutting down
closes the lines of all that waits or is installed (`shutdown_lines`), and delivering
an event pushes at most one notification on each line (`delivered_lines`).
-/
import EventFanout.Proofs.Hub.Evolution

namespace EventFanout

/-- A subscription is only ever given notifications of its own kind. -/
theorem Subscription.kind_of_notification {s : Subscription} {p : Payload} {n : Notification}
    (h : s.notification p = .ok (some n)) : n.kind = s.kind := by
  unfold Subscription.notification at h
  split at h
  · rename_i hk
    cases ht : s.transaction p with
    | error e => simp [ht, bind, Except.bind] at h
    | ok tx =>
      simp only [ht, bind, Except.bind, pure, Except.pure, Except.ok.injEq] at h
      split at h
      · cases h
      · cases h
        rw [hk]
        rfl
  · rename_i hk
    cases ht : s.transaction p with
    | error e => simp [ht, bind, Except.bind] at h
    | ok tx =>
      simp only [ht, bind, Except.bind, pure, Except.pure, Except.ok.injEq] at h
      cases h
      rw [hk]
      rfl
  · rename_i hk
    cases ht : s.header p with
    | error e => simp [ht, bind, Except.bind] at h
    | ok hd =>
      simp only [ht, bind, Except.bind, pure, Except.pure, Except.ok.injEq] at h
      cases h
      rw [hk]
      rfl

namespace World

/-- What waits to be installed, what is held, and what was made is the same in two worlds. -/
structure SameIntake (w w' : World) : Prop where
  installs : w'.hub.installs = w.hub.installs
  config : w'.hub.config = w.hub.config
  held : w'.held = w.held
  issued : w'.issued = w.issued

theorem SameIntake.trans {w w' w'' : World} (h : SameIntake w w') (h' : SameIntake w' w'') :
    SameIntake w w'' where
  installs := h'.installs.trans h.installs
  config := h'.config.trans h.config
  held := h'.held.trans h.held
  issued := h'.issued.trans h.issued

/-! ## Removals -/

/-- The subscriptions of some identities have been removed, all for one reason. -/
structure Removal (r : SubscriptionError) (ids : List SubscriptionId) (w w' : World) : Prop where
  index : w'.hub.index.entries = w.hub.index.entries.filter fun e => e.1.2 ∉ ids
  lines : ∀ id, w'.lines.get? id =
    if id ∈ ids ∧ id ∈ w.hub.ids then (w.lines.get? id).map (·.close r) else w.lines.get? id
  intake : SameIntake w w'

namespace Removal

variable {r : SubscriptionError} {ids ids' : List SubscriptionId} {w w' w'' : World}

/-- No identity of a removed subscription is left in the index. -/
theorem mem_ids (h : Removal r ids w w') (id : SubscriptionId) :
    id ∈ w'.hub.ids ↔ id ∈ w.hub.ids ∧ id ∉ ids := by
  simp only [Hub.mem_ids, h.index, List.mem_filter, decide_eq_true_eq]
  constructor
  · rintro ⟨k, s, hm, hid⟩
    exact ⟨⟨k, s, hm⟩, hid⟩
  · rintro ⟨⟨k, s, hm⟩, hid⟩
    exact ⟨k, s, hm, hid⟩

theorem refl (r : SubscriptionError) (w : World) : Removal r [] w w where
  index := by rw [List.filter_eq_self.mpr]; simp
  lines := by simp
  intake := ⟨rfl, rfl, rfl, rfl⟩

theorem trans (h : Removal r ids w w') (h' : Removal r ids' w' w'') :
    Removal r (ids ++ ids') w w'' where
  index := by
    rw [h'.index, h.index, List.filter_filter]
    apply List.filter_congr
    intro e _
    by_cases h₁ : e.1.2 ∈ ids <;> by_cases h₂ : e.1.2 ∈ ids' <;> simp [h₁, h₂]
  lines := by
    intro id
    simp only [h'.lines, h.lines, h.mem_ids]
    by_cases h₁ : id ∈ ids <;> by_cases h₂ : id ∈ ids' <;> simp [h₁, h₂]
  intake := h.intake.trans h'.intake

end Removal

/-- To remove one subscription is to erase its entry and to close its line, if it is installed. -/
theorem Removal.single {r : SubscriptionError} {id : SubscriptionId} {w w' : World}
    (hn : w.hub.ids.Nodup)
    (hnone : w.hub.find? id = none → w' = w)
    (hsome : ∀ k s, w.hub.find? id = some ((k, id), s) →
      w'.hub.index = w.hub.index.erase (k, id) ∧ w'.lines = w.lines.update id (·.close r) ∧
        SameIntake w w') :
    Removal r [id] w w' := by
  cases hf : w.hub.find? id with
  | none =>
    have hid : id ∉ w.hub.ids := (Hub.find?_eq_none_iff _ _).mp hf
    rw [hnone hf]
    refine ⟨?_, ?_, ⟨rfl, rfl, rfl, rfl⟩⟩
    · rw [List.filter_eq_self.mpr]
      intro e he
      simp only [List.mem_singleton, decide_eq_true_eq]
      rintro rfl
      exact hid (Hub.mem_ids.mpr ⟨e.1.1, e.2, he⟩)
    · intro id'
      rw [if_neg]
      rintro ⟨hm, hi⟩
      rw [List.mem_singleton.mp hm] at hi
      exact hid hi
  | some e =>
    obtain ⟨⟨k, id'⟩, s⟩ := e
    obtain ⟨he, hid⟩ := Hub.mem_of_find? hf
    simp only at hid
    subst hid
    obtain ⟨hi, hl, hin⟩ := hsome k s hf
    refine ⟨?_, ?_, hin⟩
    · rw [hi, Hub.erase_eq_filter hn he]
      apply List.filter_congr
      intro e' _
      simp
    · intro id
      rw [hl, Table.get?_update]
      by_cases h : id' = id
      · subst h
        have hmem : id' ∈ w.hub.ids := Hub.mem_ids.mpr ⟨k, s, he⟩
        simp [hmem]
      · have h' : ¬ id = id' := fun e => h e.symm
        simp [h, h']

theorem uninstall_removal {w : World} (hn : w.hub.ids.Nodup) (id : SubscriptionId)
    (r : SubscriptionError) : Removal r [id] w (w.uninstall id r) := by
  refine .single hn ?_ ?_
  · intro hf
    rcases uninstall_cases w id r with ⟨_, h⟩ | ⟨k, s, hf', _⟩
    · exact h
    · rw [hf] at hf'
      cases hf'
  · intro k s hf
    rcases uninstall_cases w id r with ⟨hf', _⟩ | ⟨k', s', hf', h⟩
    · rw [hf] at hf'
      cases hf'
    · rw [hf] at hf'
      cases hf'
      rw [h]
      rcases releaseTopic_cases { w with hub.index := w.hub.index.erase (k, id) } s.topic with
        ⟨_, hrel⟩ | ⟨_, _, _, hrel⟩ | ⟨_, _, _, hrel⟩ <;>
      exact ⟨by simp [removed, hrel], by simp [removed],
        ⟨by simp [removed, hrel], by simp [removed, hrel], by simp [removed], by simp [removed]⟩⟩

theorem endWithTopic_removal {w : World} (hn : w.hub.ids.Nodup) (t : Topic) (s : Subscription) :
    Removal (.topicClosed t) [s.id] w (endWithTopic t w s) := by
  refine .single hn ?_ ?_
  · intro hf
    simp [endWithTopic, hf]
  · intro k s' hf
    simp only [endWithTopic, hf]
    exact ⟨rfl, rfl, ⟨rfl, rfl, rfl, rfl⟩⟩

theorem Removal.nodup {r : SubscriptionError} {ids : List SubscriptionId} {w w' : World}
    (h : Removal r ids w w') (hn : w.hub.ids.Nodup) : w'.hub.ids.Nodup := by
  rw [Hub.ids, Table.keys, h.index]
  exact hn.sublist ((List.filter_sublist.map _).map _)

theorem foldl_uninstall_removal {w : World} (hn : w.hub.ids.Nodup) (ids : List SubscriptionId)
    (r : SubscriptionError) : Removal r ids w (ids.foldl (fun w id => w.uninstall id r) w) := by
  induction ids generalizing w with
  | nil => exact .refl r w
  | cons id rest ih =>
    have h := uninstall_removal hn id r
    exact h.trans (ih (h.nodup hn))

theorem foldl_endWithTopic_removal {w : World} (hn : w.hub.ids.Nodup) (t : Topic)
    (l : List Subscription) :
    Removal (.topicClosed t) (l.map Subscription.id) w (l.foldl (endWithTopic t) w) := by
  induction l generalizing w with
  | nil => exact .refl _ w
  | cons s rest ih =>
    have h := endWithTopic_removal hn t s
    exact h.trans (ih (h.nodup hn))

/-- The end of a topic removes its listeners, if the hub is registered on it. -/
theorem closeTopic_removal {w : World} (hn : w.hub.ids.Nodup) {t : Topic}
    (ht : w.hub.topics.contains t = true) :
    Removal (.topicClosed t) ((w.hub.listeners t).map Subscription.id) w (w.closeTopic t) := by
  have hids : ({ w with hub.topics := w.hub.topics.erase t }.dropFeed t).hub.ids = w.hub.ids := by
    rw [dropFeed_hub]
    rfl
  have h := foldl_endWithTopic_removal (hids ▸ hn) t (w.hub.listeners t)
  have he : w.closeTopic t = (((w.hub.listeners t).foldl (endWithTopic t)
      ({ w with hub.topics := w.hub.topics.erase t }.dropFeed t)).note (.ended t)
        |>.record .topicReleased).publishView := if_pos ht
  rw [he]
  refine ⟨?_, ?_, ⟨?_, ?_, ?_, ?_⟩⟩
  · simpa using h.index
  · intro id
    have hl := h.lines id
    simp only [hids, dropFeed_lines] at hl
    simpa using hl
  · simpa using h.intake.installs
  · simpa using h.intake.config
  · simpa using h.intake.held
  · simpa using h.intake.issued

/-! ## Shutting down -/

theorem foldl_close_lines {f : World → Subscription → World} {r : SubscriptionError}
    (hf : ∀ w s, (f w s).lines = w.lines.update s.id (·.close r)) (l : List Subscription)
    (w : World) (id : SubscriptionId) :
    (l.foldl f w).lines.get? id =
      if id ∈ l.map Subscription.id then (w.lines.get? id).map (·.close r)
      else w.lines.get? id := by
  induction l generalizing w with
  | nil => simp
  | cons s rest ih =>
    rw [List.foldl_cons, ih, hf, Table.get?_update]
    by_cases hs : s.id = id
    · subst hs
      by_cases hr : s.id ∈ rest.map Subscription.id
      · simp only [hr, if_true, List.map_cons, List.mem_cons, or_true, Option.map_map]
        rfl
      · simp [hr]
    · have hs' : ¬ id = s.id := fun e => hs e.symm
      simp [hs, hs']

theorem foldl_releaseOnBus_lines (ts : List Topic) (w : World) :
    (ts.foldl releaseOnBus w).lines = w.lines :=
  foldl_kept releaseOnBus_lines ts w

theorem refuseAll_lines (w : World) (id : SubscriptionId) :
    w.refuseAll.lines.get? id =
      if id ∈ w.hub.installs.map Subscription.id then (w.lines.get? id).map (·.close .shutdown)
      else w.lines.get? id :=
  foldl_close_lines (f := refuseWaiting) (fun _ _ => rfl) _ { w with hub.installs := [] } id

theorem endAll_lines (w : World) (id : SubscriptionId) :
    w.endAll.lines.get? id =
      if id ∈ w.hub.index.values.map Subscription.id then
        (w.lines.get? id).map (·.close .shutdown)
      else w.lines.get? id :=
  foldl_close_lines (f := endInstalled) (fun _ _ => rfl) _ { w with hub.index := {} } id

theorem releaseAll_lines (w : World) : w.releaseAll.lines = w.lines :=
  foldl_releaseOnBus_lines _ { w with hub.topics := {} }

/-- All that waits and all that is installed is told that the hub has shut down. -/
theorem shutdown_lines (w : World) (id : SubscriptionId) :
    w.shutdown.lines.get? id =
      if id ∈ w.hub.installs.map Subscription.id ∨ id ∈ w.hub.index.values.map Subscription.id then
        (w.lines.get? id).map (·.close .shutdown)
      else w.lines.get? id := by
  obtain ⟨m, hhub⟩ := refuseAll_hub w
  rw [shutdown_eq, publishView_lines, releaseAll_lines, endAll_lines, refuseAll_lines, hhub]
  by_cases hq : id ∈ w.hub.installs.map Subscription.id <;>
    by_cases hx : id ∈ w.hub.index.values.map Subscription.id <;>
    simp only [hq, hx, if_true, if_false, or_true, true_or, or_self, Option.map_map]
  all_goals rfl

theorem shutdown_intake (w : World) :
    w.shutdown.held = w.held ∧ w.shutdown.issued = w.issued := by
  -- who is held, and how many were made, are left alone together
  let g (w : World) := (w.held, w.issued)
  have h₁ : g w.refuseAll = g w :=
    foldl_kept (f := refuseWaiting) (g := g) (fun _ _ => rfl) _ { w with hub.installs := [] }
  have h₂ : g w.refuseAll.endAll = g w.refuseAll :=
    foldl_kept (f := endInstalled) (g := g) (fun _ _ => rfl) _
      { w.refuseAll with hub.index := {} }
  have h₃ : g w.refuseAll.endAll.releaseAll = g w.refuseAll.endAll :=
    foldl_kept (f := releaseOnBus) (g := g)
      (fun w t => Prod.ext (releaseOnBus_held w t) (releaseOnBus_issued w t)) _
      { w.refuseAll.endAll with hub.topics := {} }
  have h : g w.refuseAll.endAll.releaseAll = g w := (h₃.trans h₂).trans h₁
  rw [shutdown_eq]
  simp only [publishView_held, publishView_issued]
  exact Prod.mk.inj h

/-! ## Giving an event out -/

def Outcome.lineAfter (before : Option Line) : Outcome → Option Line
  | .delivered l => some l
  | _ => before

theorem foldl_apply_of_not_mem {results : List (SubscriptionId × Outcome)} {id : SubscriptionId}
    (lines : Lines) (h : id ∉ results.map (·.1)) :
    (results.foldl Outcome.apply lines).get? id = lines.get? id := by
  induction results generalizing lines with
  | nil => rfl
  | cons result rest ih =>
    simp only [List.map_cons, List.mem_cons, not_or] at h
    rw [List.foldl_cons, ih _ h.2]
    unfold Outcome.apply
    split
    · rw [Table.get?_set, if_neg fun e => h.1 e.symm]
    · rfl

theorem foldl_apply_of_mem {results : List (SubscriptionId × Outcome)} {id : SubscriptionId}
    {o : Outcome} (lines : Lines) (hn : (results.map (·.1)).Nodup) (h : (id, o) ∈ results) :
    (results.foldl Outcome.apply lines).get? id = o.lineAfter (lines.get? id) := by
  induction results generalizing lines with
  | nil => simp at h
  | cons result rest ih =>
    obtain ⟨hnot, hrest⟩ := List.nodup_cons.mp hn
    rw [List.foldl_cons]
    rcases List.mem_cons.mp h with rfl | hm
    · rw [foldl_apply_of_not_mem _ hnot]
      cases o <;> simp [Outcome.apply, Outcome.lineAfter, Table.get?_set]
    · obtain ⟨id', o'⟩ := result
      have hne : ¬ id' = id := by
        rintro rfl
        exact hnot (List.mem_map.mpr ⟨_, hm, rfl⟩)
      have hkeep : (Outcome.apply lines (id', o')).get? id = lines.get? id := by
        cases o' <;> simp [Outcome.apply, Table.get?_set, hne]
      rw [ih _ hrest hm, hkeep]

/-- What an event comes to for a subscription whose line is known. -/
theorem outcome_cases {lines : Lines} {s : Subscription} {l : Line} (p : Payload)
    (hl : lines.get? s.id = some l) (hk : l.kind = s.kind) :
    (l.receiver = none ∧ outcome lines p s = .gone) ∨
    (l.receiver ≠ none ∧ ∃ n, s.notification p = .ok (some n) ∧
      outcome lines p s = .delivered { l with buffer := l.buffer.push n }) ∨
    (l.receiver ≠ none ∧ (∀ n, s.notification p ≠ .ok (some n)) ∧
      (outcome lines p s = .skipped ∨ outcome lines p s = .failed)) := by
  unfold outcome
  rw [hl]
  obtain ⟨kind, buffer, installed, reason, receiver⟩ := l
  simp only [Line.isListening] at hk ⊢
  cases receiver with
  | none => exact .inl ⟨rfl, rfl⟩
  | some r =>
    right
    simp only [Option.isSome_some, Bool.not_true, Bool.false_eq_true, if_false]
    cases hs : s.notification p with
    | error e => exact .inr ⟨by simp, by simp, .inr rfl⟩
    | ok o =>
      cases o with
      | none => exact .inr ⟨by simp, by simp, .inl rfl⟩
      | some n =>
        have hkind : n.kind = kind := (Subscription.kind_of_notification hs).trans hk.symm
        refine .inl ⟨by simp, n, rfl, ?_⟩
        simp only [Line.send, hkind, if_true, Line.isListening, Option.isSome_some]

/-- What is delivered is one notification more on a line whose client listens. -/
theorem outcome_delivered {lines : Lines} {p : Payload} {s : Subscription} {l' : Line}
    (h : outcome lines p s = .delivered l') :
    ∃ l n, lines.get? s.id = some l ∧ l.isListening = true ∧ l'.buffer = l.buffer.push n := by
  unfold outcome at h
  split at h
  · cases h
  · rename_i l hl
    split at h
    · cases h
    · rename_i hlisten
      split at h
      · cases h
      · cases h
      · rename_i n _
        simp only [Line.send] at h
        split at h
        · rename_i hsent
          split at hsent
          · split at hsent
            · cases h
              cases hsent
              exact ⟨l, n, hl, by simpa using hlisten, rfl⟩
            · cases hsent
          · cases hsent
        · cases h
        · cases h

theorem delivered_sameIntake (w : World) (t : Topic) (p : Payload) :
    SameIntake w (w.delivered t p) := by
  constructor <;> simp only [delivered, record_hub, record_held, record_issued]

theorem delivered_ids (w : World) (t : Topic) (p : Payload) :
    (w.delivered t p).hub.ids = w.hub.ids := by
  rw [Hub.ids, (delivered_sameLoop w t p).index, Hub.ids]

/-- Whoever does not listen to the topic is given nothing. -/
theorem delivered_lines_of_not_mem {w : World} {t : Topic} {id : SubscriptionId} (p : Payload)
    (h : id ∉ (w.hub.listeners t).map Subscription.id) :
    (w.delivered t p).lines.get? id = w.lines.get? id := by
  rw [delivered_lines]
  refine foldl_apply_of_not_mem w.lines ?_
  rw [outcomes, List.map_map]
  exact h

/-- Whoever listens to the topic gets what the event comes to for it. -/
theorem delivered_lines_of_mem {w : World} (hc : w.hub.Consistent) {t : Topic} {s : Subscription}
    (p : Payload) (h : s ∈ w.hub.listeners t) :
    (w.delivered t p).lines.get? s.id =
      (outcome w.lines p s).lineAfter (w.lines.get? s.id) := by
  have hm : (s.id, outcome w.lines p s) ∈ w.outcomes t p := List.mem_map.mpr ⟨s, h, rfl⟩
  rw [delivered_lines]
  refine foldl_apply_of_mem w.lines ?_ hm
  rw [outcomes, List.map_map]
  exact hc.listeners_ids_once t

/-- A listener turns out to be gone if the event comes to that for it. -/
theorem mem_goneFrom {w : World} (hc : w.hub.Consistent) {t : Topic} {s : Subscription}
    (p : Payload) (h : s ∈ w.hub.listeners t) :
    s.id ∈ w.goneFrom t p ↔ (outcome w.lines p s).isGone = true := by
  simp only [goneFrom, outcomes, List.mem_map, List.mem_filter]
  constructor
  · rintro ⟨_, ⟨⟨s', hs', rfl⟩, hg⟩, hid⟩
    rw [hc.listener_unique hs' h hid] at hg
    exact hg
  · intro hg
    exact ⟨(s.id, outcome w.lines p s), ⟨⟨s, h, rfl⟩, hg⟩, rfl⟩

theorem not_mem_goneFrom {w : World} {t : Topic} {id : SubscriptionId} (p : Payload)
    (h : id ∉ (w.hub.listeners t).map Subscription.id) : id ∉ w.goneFrom t p := by
  simp only [goneFrom, outcomes, List.mem_map, List.mem_filter]
  rintro ⟨_, ⟨⟨s, hs, rfl⟩, -⟩, rfl⟩
  exact h (List.mem_map.mpr ⟨s, hs, rfl⟩)

theorem fanOut_removal {w : World} (hn : w.hub.ids.Nodup) (t : Topic) (p : Payload) :
    Removal .closed (w.goneFrom t p) (w.delivered t p) (w.fanOut t p) :=
  foldl_uninstall_removal (w := w.delivered t p) ((delivered_ids w t p).symm ▸ hn) _ _

end World

end EventFanout
