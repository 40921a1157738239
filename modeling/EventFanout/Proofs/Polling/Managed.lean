/-
EventFanout.Proofs.Polling.Managed — what holds of a system with polling filters at all times.

Every deed is a run of actions, writing the books among them (`Deed.after`), so all that is known
of runs is known of moves. The books stay tidy, whatever is done, and who is on them was made by the
hub and is traced: this is `World.Managed`. It is what a move needs to be a begun creation or some
deeds (`move_cases`): the identity that a new subscription gets must be on no list yet.

Main statement: `through_managed`, over any moves after the registry was opened, whatever had
happened before.
-/
import EventFanout.Proofs.Lifecycle.Traced
import EventFanout.Proofs.Polling.Moves

namespace EventFanout.World

variable {w w' : World} {limit : UInt64} {s : Subscription} {request : FilterRequest}

/-! ## Deeds as runs -/

/-- Writing the books is an action. -/
theorem act_keepBooks (w : World) (p : Polling) : w.act (.keepBooks p 0) = { w with polling := p } :=
  record_none { w with polling := p }

theorem leavesBooks_of_foreign {a : Action} {p : Polling} (h : a.foreign p = true) :
    a.leavesBooks = true := by
  cases a with
  | keepBooks polling expired => cases h
  | _ => rfl

theorem Deed.after (h : Deed w w') : ∃ run, w' = w.after run := by
  cases h with
  | @call a _ => exact ⟨[a], rfl⟩
  | @entered c l r f _ _ _ _ =>
    refine ⟨[.askInstalled c.id, .keepBooks (w.polling.entered c.id f) 0], ?_⟩
    rw [after_cons, after_cons, after_nil, act_keepBooks]
  | @failed c l r e _ _ _ =>
    refine ⟨[.askInstalled c.id, .keepBooks (w.polling.failed c.id) 0, .dropReceiver c.id], ?_⟩
    rw [after_cons, after_cons, after_cons, after_nil, act_keepBooks]
  | @changed id f f' _ _ => exact ⟨[.keepBooks (w.polling.changed id f') 0], (act_keepBooks w _).symm⟩
  | @looked id _ => exact ⟨[.receive id], rfl⟩
  | @removed id _ =>
    refine ⟨[.keepBooks (w.polling.removed id) 0, .requestRemoval id], ?_⟩
    rw [after_cons, after_cons, after_nil, act_keepBooks]
  | @expired id _ =>
    refine ⟨[.keepBooks (w.polling.expired id) 0, .dropReceiver id], ?_⟩
    rw [after_cons, after_cons, after_nil, act_keepBooks]
  | @left id _ _ =>
    refine ⟨[.keepBooks (w.polling.left id) 0, .dropReceiver id], ?_⟩
    rw [after_cons, after_cons, after_nil, act_keepBooks]
  | clocked due now expired =>
    exact ⟨[.setClock now, .keepBooks { w.polling with sweepDue := due } expired], rfl⟩
  | closed _ => exact ⟨[.keepBooks w.polling.closed 0], (act_keepBooks w _).symm⟩

theorem Deeds.after (h : Deeds w w') : ∃ run, w' = w.after run := by
  induction h with
  | refl => exact ⟨[], rfl⟩
  | tail _ hd ih =>
    obtain ⟨run, rfl⟩ := ih
    obtain ⟨run', rfl⟩ := hd.after
    exact ⟨run ++ run', (after_append _ _ _).symm⟩

theorem Begins.after (h : Begins w request s w') : w' = w.after [
    .makeWithin request.kind request.criteria, .submit s.id,
    .keepBooks (w.polling.begun ⟨s.id, request⟩) 0] := by
  rw [after_cons, after_cons, after_cons, after_nil, act_keepBooks]
  exact h.eq

theorem Deed.config (h : Deed w w') : w'.hub.config = w.hub.config := by
  obtain ⟨run, rfl⟩ := h.after
  exact after_config w run

theorem Deeds.config (h : Deeds w w') : w'.hub.config = w.hub.config := by
  induction h with
  | refl => rfl
  | tail _ hd ih => exact hd.config.trans ih

theorem Begins.config (h : Begins w request s w') : w'.hub.config = w.hub.config := by
  rw [h.after]
  exact after_config w _

/-! ## The books -/

theorem Begins.polling (h : Begins w request s w') :
    w'.polling = w.polling.begun ⟨s.id, request⟩ := by
  rw [h.eq]

/-- A deed is one change of the books. -/
theorem Deed.changes (h : Deed w w') : w.polling.Changes w'.polling := by
  cases h with
  | call ha =>
    rw [act_polling w (leavesBooks_of_foreign ha)]
    exact .same
  | entered hc _ _ hf => exact .entered hc hf
  | failed hc _ _ =>
    rw [act_polling _ rfl]
    exact .failed hc
  | changed hf hreq => exact .changed hf hreq
  | looked _ =>
    rw [act_polling _ rfl]
    exact .same
  | removed hf =>
    rw [act_polling _ rfl]
    exact .removed hf
  | expired hf =>
    rw [act_polling _ rfl]
    exact .expired hf
  | left _ hd =>
    rw [act_polling _ rfl]
    exact .left hd
  | clocked due _ _ => exact .due due
  | closed hc => exact .closed hc

/-- What every change of the books keeps holds of the books after any deeds. -/
theorem Deeds.kept {P : Polling → Prop} (hP : ∀ {p p'}, p.Changes p' → P p → P p')
    (h : Deeds w w') (hw : P w.polling) : P w'.polling := by
  induction h with
  | refl => exact hw
  | tail _ hd ih => exact hP hd.changes ih

theorem Deeds.tidy (h : Deeds w w') (ht : w.polling.Tidy limit) : w'.polling.Tidy limit :=
  h.kept (fun hc => hc.tidy) ht

theorem Deeds.shrinks (h : Deeds w w') : w.polling.Shrinks w'.polling :=
  h.kept (fun hc hs => hs.trans hc.shrinks) (.refl _)

/-! ## The invariant -/

/-- What holds of a system with polling filters at all times. -/
structure Managed (w : World) : Prop where
  roster : w.Roster
  fits : w.AllFit
  tidy : w.polling.Tidy w.hub.config.maxFilters
  /-- Who is on the books is traced. -/
  known : ∀ id ∈ w.polling.ids, ∃ s p l, s.id = id ∧ w.Traced s p l

namespace Managed

theorem deed (hw : w.Managed) (h : Deed w w') : w'.Managed := by
  obtain ⟨run, hrun⟩ := h.after
  refine ⟨?_, ?_, h.config ▸ h.changes.tidy hw.tidy, ?_⟩
  · rw [hrun]
    exact after_roster hw.roster run
  · rw [hrun]
    exact after_allFit hw.roster hw.fits run
  · intro id hid
    obtain ⟨s, p, l, rfl, htraced⟩ := hw.known id (h.changes.shrinks.ids id hid)
    obtain ⟨p', l', htraced', -⟩ := htraced.after run
    rw [hrun]
    exact ⟨s, p', l', rfl, htraced'⟩

theorem deeds (hw : w.Managed) (h : Deeds w w') : w'.Managed := by
  induction h with
  | refl => exact hw
  | tail _ hd ih => exact ih.deed hd

/-- The identity that is next is not on the books. -/
theorem issued_fresh (hw : w.Managed) : .issued w.issued ∉ w.polling.ids := by
  intro hid
  obtain ⟨s, p, l, he, htraced⟩ := hw.known _ hid
  obtain ⟨n, hn, hlt⟩ := hw.roster.issued_of_in htraced.place
  rw [he, SubscriptionId.issued.injEq] at hn
  omega

theorem fresh (hw : w.Managed) {w₁ : World}
    (hs : w.newSubscription request.kind request.criteria = .ok (s, w₁)) :
    s.id ∉ w.polling.ids := (newSubscription_ok hs).1 ▸ hw.issued_fresh

theorem begins (hw : w.Managed) (h : Begins w request s w') : w'.Managed := by
  obtain ⟨w₁, hs⟩ := h.made
  have hrun := h.after
  refine ⟨?_, ?_, ?_, ?_⟩
  · rw [hrun]
    exact after_roster hw.roster _
  · rw [hrun]
    exact after_allFit hw.roster hw.fits _
  · rw [h.polling, h.config]
    exact hw.tidy.begun h.live h.free (hw.fresh hs)
  · intro id hid
    rw [h.polling, (Polling.ids_begun _ _).mem_iff, List.mem_cons] at hid
    rw [hrun]
    rcases hid with rfl | hid
    · obtain ⟨buffer, htraced⟩ := traced_of_newSubscription hw.roster hs
      exact ⟨s, _, _, rfl, (htraced.act (.submit s.id)).act (.keepBooks _ 0)⟩
    · obtain ⟨s', p, l, rfl, htraced⟩ := hw.known id hid
      obtain ⟨p', l', htraced', -⟩ := htraced.after _
      exact ⟨s', p', l', rfl, htraced'⟩

end Managed

/-! ## Moves as deeds -/

theorem removeFilter_eq (w : World) (id : SubscriptionId) :
    w.removeFilter id = { w with polling := w.polling.removed id }.act (.requestRemoval id) := rfl

theorem removeFilter_polling (w : World) (id : SubscriptionId) :
    (w.removeFilter id).polling = w.polling.removed id := by
  rw [removeFilter_eq, act_polling _ rfl]

theorem mem_filters_removeFilter {id id' : SubscriptionId} :
    id' ∈ (w.removeFilter id).polling.filters.keys ↔
      id' ∈ w.polling.filters.keys ∧ id' ≠ id := by
  rw [removeFilter_polling]
  simp only [Polling.removed, Table.keys_erase, List.mem_filter, decide_eq_true_eq]

/-- Removing filters, no two of them the same, one after the other. -/
theorem foldl_removeFilter {ids : List SubscriptionId} (hn : ids.Nodup)
    (hids : ∀ id ∈ ids, id ∈ w.polling.filters.keys) : Deeds w (ids.foldl removeFilter w) := by
  induction ids generalizing w with
  | nil => exact .refl
  | cons id rest ih =>
    obtain ⟨hnot, hrest⟩ := List.nodup_cons.mp hn
    refine .head (.removed (hids id List.mem_cons_self)) (ih hrest fun id' hid' => ?_)
    refine mem_filters_removeFilter.mpr ⟨hids id' (List.mem_cons_of_mem _ hid'), ?_⟩
    rintro rfl
    exact hnot hid'

/-- Those that have expired are filters, each listed once. -/
theorem expired_once (h : w.polling.filters.keys.Nodup) :
    w.expired.Nodup ∧ ∀ id ∈ w.expired, id ∈ w.polling.filters.keys := by
  have hsub : w.expired.Sublist w.polling.filters.keys := List.filter_sublist.map _
  exact ⟨h.sublist hsub, fun id hid => hsub.subset hid⟩

/-- A system that counts expired filters, with the clock and the next sweep as they were. -/
theorem Deed.counted (w : World) (n : UInt64) : Deed w (w.record (.filtersExpired n)) :=
  .clocked w.polling.sweepDue w.now n

theorem sweep_deeds (h : w.polling.filters.keys.Nodup) : Deeds w w.sweep.2 := by
  obtain ⟨hn, hids⟩ := expired_once h
  exact (foldl_removeFilter hn hids).tail (.counted _ _)

theorem runSweeper_deeds (h : w.polling.filters.keys.Nodup) : Deeds w w.runSweeper := by
  unfold runSweeper
  split
  · have hdue : Deed w { w with polling.sweepDue := w.nextSweep } := by
      have hclock := Deed.clocked (w := w) w.nextSweep w.now 0
      rwa [record_none] at hclock
    exact .head hdue (sweep_deeds (w := { w with polling.sweepDue := w.nextSweep }) h)
  · exact .refl

theorem finishFilter_deeds {c : Creation} {result : Except FilterError Unit}
    (hc : c ∈ w.polling.creations) (h : w.finishFilter c = (some result, w')) : Deeds w w' := by
  have hbooks := act_polling w (a := .askInstalled c.id) rfl
  rcases finishFilter_cases w c with ⟨hask, he⟩ | ⟨e, hask, he⟩ | he
  · obtain ⟨-, l, r, hr, hanswer⟩ := askInstalled_some hask
    rw [he, Prod.mk.injEq] at h
    obtain ⟨-, rfl⟩ := h
    have hdeed := Deed.entered
      (f := ⟨c.request, (w.act (.askInstalled c.id)).now, (w.act (.askInstalled c.id)).now,
        .empty c.request.kind⟩) hc hr hanswer rfl
    rw [← hbooks] at hdeed
    exact .single hdeed
  · obtain ⟨-, l, r, hr, hanswer⟩ := askInstalled_some hask
    rw [he, Prod.mk.injEq] at h
    obtain ⟨-, rfl⟩ := h
    have hdeed := Deed.failed hc hr hanswer
    rw [← hbooks] at hdeed
    exact .single hdeed
  · rw [h] at he
    cases he

theorem drainStep_deeds {id : SubscriptionId} (h : w.drainStep id = some w') : Deeds w w' := by
  have hbooks := act_polling w (a := .receive id) rfl
  have hlook : ∀ {d : Drain}, d ∈ w.polling.drains → d.id = id → Deed w (w.act (.receive id)) :=
    fun hd he => .looked (List.mem_map.mpr ⟨_, hd, he⟩)
  rcases drainStep_cases w id with he | ⟨hd, he⟩ | ⟨hd, n, -, he⟩ | ⟨hd, e, -, he⟩ <;>
    rw [h] at he <;> cases he
  · exact .single (.left (List.mem_map_of_mem hd) (.inl hd))
  · refine .head (hlook hd rfl) ?_
    simp only [collect, Table.update]
    split
    · rename_i f hf
      exact .single (.changed hf rfl)
    · exact .refl
  · refine .head (hlook hd rfl) (.single ?_)
    unfold expireDrain
    split
    · rename_i hf
      exact .expired ((Table.contains_iff_mem_keys _ _).mp hf)
    · rename_i hf
      refine .left ?_ (.inr fun hm => hf ((Table.contains_iff_mem_keys _ _).mpr hm))
      rw [hbooks]
      exact List.mem_map_of_mem hd

/-- A move is some deeds, or the beginning of a creation. -/
theorem move_cases (hw : w.Managed) (m : Move) :
    (w.createdBy m = none ∧ Deeds w (w.move m)) ∨
      ∃ request s, m = .create request ∧ w.createdBy m = some s.id ∧
        Begins w request s (w.move m) := by
  cases m with
  | act a =>
    refine .inl ⟨rfl, ?_⟩
    simp only [move]
    split
    · rename_i ha
      exact .single (.call ha)
    · exact .refl
  | create request =>
    cases hl : w.polling.live with
    | false =>
      refine .inl ⟨?_, ?_⟩
      · simp only [createdBy, hl, Bool.false_eq_true, if_false]
      · simp only [move, hl, Bool.false_eq_true, if_false]
        exact .refl
    | true =>
      simp only [createdBy, move, hl, if_true]
      rcases beginFilter_cases w request with ⟨_, h⟩ | ⟨_, e, w', h, -, -, hw'⟩ |
        ⟨hfree, s, w₁, hs, h⟩ <;> rw [h]
      · exact .inl ⟨rfl, .refl⟩
      · refine .inl ⟨rfl, ?_⟩
        rcases hw' with rfl | ⟨s, w₁, hs, rfl⟩
        · exact .refl
        · have hbooks : ∀ {w : World} {a : Action}, a.leavesBooks = true →
              s.id ∉ w.polling.ids → s.id ∉ (w.act a).polling.ids := by
            intro w a ha hnot
            rw [act_polling w ha]
            exact hnot
          have hnot := hbooks (a := .submit s.id) rfl
            (hbooks (a := .makeWithin request.kind request.criteria) rfl (hw.fresh hs))
          exact .head (.call rfl) (.head (.call rfl) (.single
            (.call (a := .dropReceiver s.id) (decide_eq_true hnot))))
      · exact .inr ⟨request, s, rfl, rfl, hl, hfree, ⟨w₁, hs⟩, rfl⟩
  | finish id =>
    refine .inl ⟨rfl, ?_⟩
    simp only [move]
    split
    · exact .refl
    · rename_i c hfind
      split
      · rename_i hfinish
        exact finishFilter_deeds (List.mem_of_find?_eq_some hfind) hfinish
      · exact .refl
  | poll id =>
    refine .inl ⟨rfl, ?_⟩
    simp only [move, poll]
    split
    · exact .refl
    · rename_i f hf
      exact .single (.changed hf rfl)
  | uninstall id =>
    refine .inl ⟨rfl, ?_⟩
    simp only [move, uninstallFilter]
    split
    · rename_i hf
      exact .single (.removed ((Table.contains_iff_mem_keys _ _).mp hf))
    · exact .refl
  | sweep =>
    refine .inl ⟨rfl, ?_⟩
    simp only [move]
    split
    · exact sweep_deeds hw.tidy.filed
    · exact .refl
  | tick => exact .inl ⟨rfl, runSweeper_deeds hw.tidy.filed⟩
  | drain id =>
    refine .inl ⟨rfl, ?_⟩
    simp only [move]
    cases h : w.drainStep id with
    | none => exact .refl
    | some w' => exact drainStep_deeds h
  | advance time =>
    refine .inl ⟨rfl, ?_⟩
    have hclock := Deed.clocked (w := w) w.polling.sweepDue (w.now + time) 0
    rw [record_none] at hclock
    exact .single hclock
  | close =>
    refine .inl ⟨rfl, ?_⟩
    simp only [move]
    split
    · rename_i h
      have hc := List.isEmpty_iff.mp (Bool.and_eq_true_iff.mp h).2
      exact .single (.closed hc)
    · exact .refl

theorem Managed.move (hw : w.Managed) (m : Move) : (w.move m).Managed := by
  rcases move_cases hw m with ⟨-, h⟩ | ⟨request, s, -, -, h⟩
  · exact hw.deeds h
  · exact hw.begins h

theorem Managed.through (hw : w.Managed) (moves : List Move) : (w.through moves).Managed := by
  induction moves generalizing w with
  | nil => exact hw
  | cons m rest ih => exact ih (hw.move m)

theorem Managed.through_config (hw : w.Managed) (moves : List Move) :
    (w.through moves).hub.config = w.hub.config := by
  induction moves generalizing w with
  | nil => rfl
  | cons m rest ih =>
    rw [through_cons, ih (hw.move m)]
    rcases move_cases hw m with ⟨-, h⟩ | ⟨request, s, -, -, h⟩
    · exact h.config
    · exact h.config

/-- A registry that has just been opened has nothing on its books. -/
theorem openPolling_managed (bus : Bus) (config : Config) (governor : Governor)
    (before : List Action) : (((start bus config governor).after before).openPolling).Managed := by
  have hstart := start_roster bus config governor
  have hroster := after_roster hstart before
  have hfits := after_allFit hstart (start_allFit bus config governor) before
  have hopen : ∀ w : World,
      w.act (.keepBooks { live := true, sweepDue := w.intervalAfter w.now } 0) = w.openPolling :=
    fun w => act_keepBooks w _
  refine ⟨?_, ?_, .fresh _ _, by simp [openPolling, Polling.ids]⟩
  · rw [← hopen]
    exact act_roster hroster _
  · rw [← hopen]
    exact act_allFit hroster hfits _

/-- After any run of a new hub a registry is opened; from then on the system is managed. -/
theorem through_managed (bus : Bus) (config : Config) (governor : Governor) (before : List Action)
    (moves : List Move) :
    ((((start bus config governor).after before).openPolling).through moves).Managed :=
  (openPolling_managed bus config governor before).through moves

end EventFanout.World
