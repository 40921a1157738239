/-
EventFanout.Proofs.Polling.Receivers — who has the receiver of a polling filter.

A subscription that the registry made is listened to by its creation, as long as that is under
way, then by the task of its filter, and then by nobody (`World.Minded`). A creation asks no
receiver twice, so the task begins only when the subscription has been installed. Hence a task that
gives the receiver up asks for the removal of a subscription that is installed, or gone: the request
cannot come too early and be forgotten. A creation gives its receiver up only when the subscription
is gone.

Main statement: `Deed.minded`. The steps of it are few: the receiver is not touched and nobody
changes hands (`Minded.act`, `Minded.write`), or the receiver is given up (`Minded.dropped`).
-/
import EventFanout.Proofs.Departure
import EventFanout.Proofs.Lifecycle.Signal
import EventFanout.Proofs.Polling.Managed

namespace EventFanout

namespace Line

variable {l : Line} {r : Receiver}

/-- Who asks for the first time and is told of the installation has been told the truth. -/
theorem installed_of_asked (hr : r.asked = false) (h : (l.askInstalled r).1 = .installed) :
    l.installed = true := by
  unfold askInstalled at h
  split at h
  · cases h
  · simp only [hr, Bool.false_eq_true, if_false] at h
    split at h
    · assumption
    · split at h <;> cases h

/-- A receiver stays, unless it is given up. -/
theorem receiverAfter_isSome {id : SubscriptionId} {a : Action} (hr : l.receiver ≠ none)
    (ha : a ≠ .dropReceiver id) : l.receiverAfter id a ≠ none := by
  intro hnone
  rcases receiverAfter_eq_none hnone with h | h
  · exact hr h
  · exact ha h

end Line

@[simp] def Action.callee? : Action → Option SubscriptionId
  | .askInstalled id | .tryError id | .receive id | .dropReceiver id => some id
  | _ => none

/-- A receiver that an action does not call stays as it is. -/
theorem Line.receiverAfter_of_callee {id : SubscriptionId} {a : Action} (h : a.callee? ≠ some id)
    (l : Line) : l.receiverAfter id a = l.receiver := by
  cases a with
  | askInstalled | tryError | receive | dropReceiver => exact if_neg fun he => h (congrArg some he)
  | _ => rfl

/-- Others do not call a receiver that is on the books. -/
theorem Action.callee?_of_foreign {a : Action} {p : Polling} (h : a.foreign p = true)
    {id : SubscriptionId} (hid : id ∈ p.ids) : a.callee? ≠ some id := by
  cases a with
  | askInstalled | tryError | receive | dropReceiver =>
    rintro ⟨⟩
    exact of_decide_eq_true h hid
  | _ => simp

namespace World

variable {w w' : World} {s : Subscription} {p : Place} {l : Line} {a : Action}

/-! ## Abandoned subscriptions -/

/-- Nobody listens to a subscription, which is gone, or installed and to be removed. -/
structure Abandoned (w : World) (s : Subscription) (p : Place) (l : Line) : Prop where
  receiver : l.receiver = none
  place : p = .gone ∨ p = .indexed ∧ (w.hub.running = true → s.id ∈ w.hub.removals)

/-- A subscription that is installed stays so, or goes. -/
theorem place_of_indexed {c : Change} (h : c.Fitting .indexed l) :
    c.place .indexed = .indexed ∨ c.place .indexed = .gone := by
  cases c with
  | nothing => exact .inl rfl
  | heard e => exact .inl rfl
  | ended r => exact .inr rfl
  | _ => cases h

/-- A request for the removal of a subscription that is installed stays in the queue, or ends it. -/
theorem Traced.mem_removals_of_indexed (h : w.Traced s .indexed l) (hm : s.id ∈ w.hub.removals)
    (hr : (w.act a).hub.running = true) (hp : (w.change s a).place .indexed ≠ .gone) :
    s.id ∈ (w.act a).hub.removals := by
  rw [act_removals hr]
  cases ht : a.takesRemoval with
  | false =>
    rw [if_neg Bool.false_ne_true, List.drop_zero]
    exact List.mem_append_left _ hm
  | true =>
    obtain rfl := eq_remove_of_takesRemoval ht
    cases hq : w.hub.removals with
    | nil =>
      rw [hq] at hm
      cases hm
    | cons id rest =>
      rw [hq] at hm
      rcases List.mem_cons.mp hm with rfl | hm
      · have hends := (EndsBy.cancelled (running_of_act hr) (by rw [hq, List.head?_cons])
          h.place).change
        rw [hends] at hp
        exact absurd rfl hp
      · exact List.mem_append_left _ hm

/-- What is abandoned stays so. -/
theorem Traced.abandoned_act (h : w.Traced s p l) (ha : w.Abandoned s p l) (a : Action) :
    (w.act a).Abandoned s ((w.change s a).place p) (((w.change s a).line s l).called s.id a) := by
  refine ⟨Line.receiverAfter_of_none ((Change.line_receiver s l _).trans ha.receiver) _ a, ?_⟩
  rcases ha.place with rfl | ⟨rfl, hasked⟩
  · rw [h.change_gone]
    exact .inl rfl
  · rcases place_of_indexed (change_fitting h.roster h.place h.line a) with hp | hp
    · refine .inr ⟨hp, fun hr => ?_⟩
      exact h.mem_removals_of_indexed (hasked (running_of_act hr)) hr (by simp [hp])
    · exact .inl hp

/-- To give up the receiver of a subscription that has been installed is to abandon it. -/
theorem Traced.abandoned_dropReceiver (h : w.Traced s p l) (hp : p = .indexed ∨ p = .gone)
    (hsome : l.receiver ≠ none) (hatt : ∀ r, l.receiver = some r → r.attached = true) :
    (w.act (.dropReceiver s.id)).Abandoned s p (l.called s.id (.dropReceiver s.id)) := by
  refine ⟨if_pos rfl, ?_⟩
  rcases hp with rfl | rfl
  · refine .inr ⟨rfl, fun hr => ?_⟩
    obtain ⟨r, hr'⟩ := Option.ne_none_iff_exists'.mp hsome
    rw [act_removals hr, h.requested_of_dropReceiver (running_of_act hr) hr' (hatt r hr')]
    simp [Action.takesRemoval]
  · exact .inl rfl

/-! ## Subscriptions of filters -/

/-- A subscription that the registry made is listened to by its creation, then by the task of its
filter, then by nobody. -/
structure Minded (w : World) (s : Subscription) (p : Place) (l : Line) : Prop where
  traced : w.Traced s p l
  attached : ∀ r, l.receiver = some r → r.attached = true
  waiting : s.id ∈ w.polling.creations.map Creation.id →
    ∃ r, l.receiver = some r ∧ r.asked = false
  tasked : s.id ∈ w.polling.drains.map Drain.id → l.receiver ≠ none ∧ l.installed = true
  left : s.id ∉ w.polling.ids → w.Abandoned s p l

/-- A subscription that has been told of its installation is installed, or gone. -/
theorem Traced.place_of_installed (h : w.Traced s p l) (hi : l.installed = true) :
    p = .indexed ∨ p = .gone := by
  have hnot : ¬ (p = .held ∨ p = .queued) := fun hp =>
    Bool.false_ne_true ((h.fits.waiting hp).1.symm.trans hi)
  cases p with
  | held => exact absurd (.inl rfl) hnot
  | queued => exact absurd (.inr rfl) hnot
  | indexed => exact .inl rfl
  | gone => exact .inr rfl

/-- A subscription whose line is closed is gone. -/
theorem Traced.gone_of_closed (h : w.Traced s p l) (hc : l.isClosed = true) : p = .gone := by
  by_contra hp
  exact Bool.false_ne_true ((h.fits.unclosed hp).1.symm.trans hc)

/-- A receiver is attached after an action if it was before. -/
theorem attached_after (h : ∀ r, l.receiver = some r → r.attached = true) {c : Change}
    {id : SubscriptionId} :
    ∀ r, ((c.line s l).called id a).receiver = some r → r.attached = true := by
  intro r' hr'
  obtain ⟨r, hr, hatt⟩ := Line.receiverAfter_attached hr'
  rw [Change.line_receiver] at hr
  rw [hatt, h r hr]

/-- The receiver is given up, with the subscription installed or gone. -/
theorem Traced.minded_dropped (h : w.Traced s p l)
    (hatt : ∀ r, l.receiver = some r → r.attached = true) (hp : p = .indexed ∨ p = .gone)
    (hsome : l.receiver ≠ none) {p' : Polling} (hnot : s.id ∉ p'.ids) :
    ∃ p₁ l₁, Minded ({ w with polling := p' }.act (.dropReceiver s.id)) s p₁ l₁ := by
  have htraced := h.act (.keepBooks p' 0)
  rw [act_keepBooks] at htraced
  have hact : ({ w with polling := p' }.act (.dropReceiver s.id)).polling = p' :=
    act_polling _ rfl
  refine ⟨_, _, htraced.act (.dropReceiver s.id), attached_after (attached_after hatt), ?_, ?_, ?_⟩
  · intro hm
    rw [hact] at hm
    exact absurd (Polling.mem_ids.mpr (.inl hm)) hnot
  · intro hm
    rw [hact] at hm
    exact absurd (Polling.mem_ids.mpr (.inr hm)) hnot
  · exact fun _ => htraced.abandoned_dropReceiver hp hsome hatt

namespace Minded

/-- Where nobody changes hands, the books may be written anew. -/
theorem write (h : w.Minded s p l) {p' : Polling}
    (hc : s.id ∈ p'.creations.map Creation.id ↔ s.id ∈ w.polling.creations.map Creation.id)
    (hd : s.id ∈ p'.drains.map Drain.id ↔ s.id ∈ w.polling.drains.map Drain.id) :
    Minded { w with polling := p' } s p l where
  traced := by
    have hact := h.traced.act (.keepBooks p' 0)
    rwa [act_keepBooks] at hact
  attached := h.attached
  waiting := fun hm => h.waiting (hc.mp hm)
  tasked := fun hm => h.tasked (hd.mp hm)
  left := by
    intro hm
    rw [Polling.mem_ids, hc, hd, ← Polling.mem_ids] at hm
    exact ⟨(h.left hm).receiver, (h.left hm).place⟩

/-- An action that does not touch the receiver while its creation is under way, and leaves it to
its task. -/
theorem act (h : w.Minded s p l) (hbooks : a.leavesBooks = true)
    (hwait : s.id ∈ w.polling.creations.map Creation.id →
      ∀ l : Line, l.receiverAfter s.id a = l.receiver)
    (hkeep : s.id ∈ w.polling.drains.map Drain.id → a ≠ .dropReceiver s.id) :
    ∃ p' l', (w.act a).Minded s p' l' := by
  have hsame := act_polling w hbooks
  refine ⟨_, _, h.traced.act a, attached_after h.attached, ?_, ?_, ?_⟩
  · intro hm
    rw [hsame] at hm
    obtain ⟨r, hr, hasked⟩ := h.waiting hm
    refine ⟨r, ?_, hasked⟩
    rw [Line.called, hwait hm, Change.line_receiver, hr]
  · intro hm
    rw [hsame] at hm
    obtain ⟨hsome, hi⟩ := h.tasked hm
    refine ⟨Line.receiverAfter_isSome ?_ (hkeep hm), (Change.line_installed s l p _).2 hi⟩
    rw [Change.line_receiver]
    exact hsome
  · intro hm
    rw [hsame] at hm
    exact h.traced.abandoned_act (h.left hm) a

/-- An action that is no call on the receiver. -/
theorem act_other (h : w.Minded s p l) (hbooks : a.leavesBooks = true)
    (ha : ∀ l : Line, l.receiverAfter s.id a = l.receiver) : ∃ p' l', (w.act a).Minded s p' l' := by
  refine h.act hbooks (fun _ => ha) fun hm => ?_
  rintro rfl
  have hnone := ha l
  rw [show l.receiverAfter s.id (.dropReceiver s.id) = none from if_pos rfl] at hnone
  exact (h.tasked hm).1 hnone.symm

/-- The receiver goes from the creation to the task of the filter. -/
theorem entered (h : w.Minded s p l) {l₀ : Line} {r₀ : Receiver}
    (hm : s.id ∈ w.polling.creations.map Creation.id)
    (hr₀ : w.receiver? s.id = some (l₀, r₀)) (hanswer : (l₀.askInstalled r₀).1 = .installed)
    {p' : Polling} (hc : s.id ∉ p'.creations.map Creation.id)
    (hd : s.id ∈ p'.drains.map Drain.id) :
    ∃ p₁ l₁, Minded { w.act (.askInstalled s.id) with polling := p' } s p₁ l₁ := by
  obtain ⟨hl₀, hr⟩ := receiver?_eq_some.mp hr₀
  rw [h.traced.line, Option.some.injEq] at hl₀
  subst hl₀
  obtain ⟨r, hr', hasked⟩ := h.waiting hm
  rw [hr, Option.some.injEq] at hr'
  subst hr'
  have hi := Line.installed_of_asked hasked hanswer
  have htraced := (h.traced.act (.askInstalled s.id)).act (.keepBooks p' 0)
  rw [act_keepBooks] at htraced
  refine ⟨_, _, htraced, attached_after (attached_after h.attached), fun hm' => absurd hm' hc,
    fun _ => ⟨?_, hi⟩, fun hnot => absurd (Polling.mem_ids.mpr (.inr hd)) hnot⟩
  refine Line.receiverAfter_isSome (a := .askInstalled s.id) ?_ (by simp)
  rw [Change.line_receiver, hr]
  simp

/-- A creation whose subscription is installed hands the receiver on. -/
theorem creation_entered (h : w.Minded s p l) {c : Creation} {l₀ : Line} {r : Receiver}
    (hc : c ∈ w.polling.creations) (hr : w.receiver? c.id = some (l₀, r))
    (hanswer : (l₀.askInstalled r).1 = .installed) (f : Filter) :
    ∃ p₁ l₁, Minded { w.act (.askInstalled c.id) with polling := w.polling.entered c.id f }
      s p₁ l₁ := by
  by_cases hid : s.id = c.id
  · rw [← hid] at hr ⊢
    refine h.entered (hid ▸ List.mem_map_of_mem hc) hr hanswer ?_ ?_
    · exact fun hm => (mem_map_filter_ne.mp hm).2 rfl
    · simp [Polling.entered]
  · obtain ⟨p₁, l₁, h₁⟩ := h.act_other (a := .askInstalled c.id) rfl
      fun l => if_neg fun e => hid e.symm
    refine ⟨p₁, l₁, h₁.write ?_ ?_⟩
    · rw [act_polling _ rfl]
      exact mem_map_filter_ne.trans (and_iff_left hid)
    · rw [act_polling _ rfl]
      simp [Polling.entered, hid]

/-- A creation that is told of an error gives its receiver up: the subscription is gone. -/
theorem creation_failed (h : w.Minded s p l) {limit : UInt64} (ht : w.polling.Tidy limit)
    {c : Creation} {l₀ : Line} {r : Receiver} {e : SubscriptionError}
    (hc : c ∈ w.polling.creations) (hr : w.receiver? c.id = some (l₀, r))
    (hanswer : (l₀.askInstalled r).1 = .failed e) :
    ∃ p₁ l₁, Minded ({ w.act (.askInstalled c.id) with polling := w.polling.failed c.id }.act
      (.dropReceiver c.id)) s p₁ l₁ := by
  by_cases hid : s.id = c.id
  · have hnot := ht.not_mem_ids_failed hc
    rw [← hid] at hr hnot ⊢
    obtain ⟨hl₀, hr⟩ := receiver?_eq_some.mp hr
    rw [h.traced.line, Option.some.injEq] at hl₀
    subst hl₀
    obtain rfl := h.traced.gone_of_closed ((h.traced.fits.honest r hr).askInstalled.2 e hanswer).1
    refine (h.traced.gone_act (.askInstalled s.id)).minded_dropped
      (attached_after (s := s) (c := .nothing) h.attached) (.inr rfl) ?_ hnot
    exact Line.receiverAfter_isSome (l := l) (a := .askInstalled s.id) (by simp [hr]) (by simp)
  · have hother : ∀ l : Line, l.receiverAfter s.id (.askInstalled c.id) = l.receiver :=
      fun l => if_neg fun e => hid e.symm
    obtain ⟨p₁, l₁, h₁⟩ := h.act_other (a := .askInstalled c.id) rfl hother
    have hwrite : Minded { w.act (.askInstalled c.id) with polling := w.polling.failed c.id }
        s p₁ l₁ := by
      refine h₁.write ?_ ?_
      · rw [act_polling _ rfl]
        exact mem_map_filter_ne.trans (and_iff_left hid)
      · rw [act_polling _ rfl]
        exact .rfl
    exact hwrite.act_other rfl fun l => if_neg fun e => hid e.symm

/-- A task that ends gives its receiver up. -/
theorem task_left (h : w.Minded s p l) {limit : UInt64} (ht : w.polling.Tidy limit)
    {id : SubscriptionId} (hd : id ∈ w.polling.drains.map Drain.id) {p' : Polling}
    (hcreations : p'.creations = w.polling.creations)
    (hdrains : p'.drains = (w.polling.left id).drains) :
    ∃ p₁ l₁, Minded ({ w with polling := p' }.act (.dropReceiver id)) s p₁ l₁ := by
  by_cases hid : id = s.id
  · subst hid
    obtain ⟨hsome, hi⟩ := h.tasked hd
    refine h.traced.minded_dropped h.attached (h.traced.place_of_installed hi) hsome ?_
    rw [Polling.ids, hcreations, hdrains]
    exact ht.not_mem_ids_left hd
  · have hwrite : Minded { w with polling := p' } s p l := by
      refine h.write (by rw [hcreations]) ?_
      rw [hdrains]
      exact mem_map_filter_ne.trans (and_iff_left fun e => hid e.symm)
    exact hwrite.act_other rfl fun l => if_neg hid

end Minded

/-! ## Deeds -/

/-- Whatever the registry and others do, a subscription that the registry made is minded. -/
theorem Deed.minded (h : Deed w w') (hw : w.Managed) (hm : w.Minded s p l) :
    ∃ p' l', w'.Minded s p' l' := by
  have ht := hw.tidy
  cases h with
  | @call a ha =>
    refine hm.act (leavesBooks_of_foreign ha) (fun hc => ?_) fun hd => ?_
    · exact Line.receiverAfter_of_callee
        (Action.callee?_of_foreign ha (Polling.mem_ids.mpr (.inl hc)))
    · rintro rfl
      exact Action.callee?_of_foreign ha (Polling.mem_ids.mpr (.inr hd)) rfl
  | entered hc hr hanswer _ => exact hm.creation_entered hc hr hanswer _
  | failed hc hr hanswer => exact hm.creation_failed ht hc hr hanswer
  | changed _ _ => exact ⟨p, l, hm.write .rfl .rfl⟩
  | @looked id hd =>
    refine hm.act rfl (fun hc l => if_neg ?_) fun _ => by simp
    rintro rfl
    exact ht.not_drained hc hd
  | @removed id hf =>
    have hwrite : Minded { w with polling := w.polling.removed id } s p l :=
      hm.write .rfl (by rw [Polling.drains_removed])
    exact hwrite.act_other rfl fun _ => rfl
  | @expired id hf => exact hm.task_left ht (ht.mem_drains hf) rfl rfl
  | @left id hd _ => exact hm.task_left ht hd rfl rfl
  | clocked due now expired =>
    have htraced := (hm.traced.act (.setClock now)).act
      (.keepBooks { w.polling with sweepDue := due } expired)
    exact ⟨p, l, htraced, hm.attached, hm.waiting, hm.tasked,
      fun hnot => ⟨(hm.left hnot).receiver, (hm.left hnot).place⟩⟩
  | closed hc => exact ⟨p, l, hm.write .rfl (by rw [Polling.drains_closed])⟩

theorem Deeds.minded (h : Deeds w w') (hw : w.Managed) (hm : w.Minded s p l) :
    ∃ p' l', w'.Minded s p' l' := by
  induction h with
  | refl => exact ⟨p, l, hm⟩
  | tail hds hd ih =>
    obtain ⟨p₁, l₁, h₁⟩ := ih
    exact hd.minded (hw.deeds hds) h₁

/-! ## Beginnings -/

/-- A subscription that is there already does not have the identity of a new one. -/
theorem Traced.id_ne_of_new (h : w.Traced s p l) {kind : Kind} {criteria : Option Criteria}
    {s' : Subscription} (hs : w.newSubscription kind criteria = .ok (s', w')) : s.id ≠ s'.id := by
  obtain ⟨n, hn, hlt⟩ := h.roster.issued_of_in h.place
  rw [hn, (newSubscription_ok hs).1, ne_eq, SubscriptionId.issued.injEq]
  omega

/-- The others go on when a creation begins. -/
theorem Begins.minded {s' : Subscription} {request : FilterRequest}
    (h : Begins w request s' w') (hm : w.Minded s p l) : ∃ p' l', w'.Minded s p' l' := by
  obtain ⟨w₁, hs⟩ := h.made
  have hne := hm.traced.id_ne_of_new hs
  obtain ⟨p₁, l₁, h₁⟩ :=
    hm.act_other (a := .makeWithin request.kind request.criteria) rfl fun _ => rfl
  obtain ⟨p₂, l₂, h₂⟩ := h₁.act_other (a := .submit s'.id) rfl fun _ => rfl
  have hbooks := act_polling (w.act (.makeWithin request.kind request.criteria))
    (a := .submit s'.id) rfl
  rw [act_polling w rfl] at hbooks
  rw [h.eq]
  refine ⟨p₂, l₂, h₂.write ?_ ?_⟩
  · rw [hbooks]
    simp [Polling.begun, hne]
  · rw [hbooks]
    exact .rfl

/-- A creation that begins has the receiver of its subscription, and has not asked it. -/
theorem Begins.minded_new {request : FilterRequest} (h : Begins w request s w')
    (hw : w.Managed) : ∃ p l, w'.Minded s p l := by
  obtain ⟨w₁, hs⟩ := h.made
  obtain ⟨buffer, htraced⟩ := traced_of_newSubscription hw.roster hs
  have hwritten := (htraced.act (.submit s.id)).act
    (.keepBooks (w.polling.begun ⟨s.id, request⟩) 0)
  have hnew : s.id ∈ (w.polling.begun ⟨s.id, request⟩).creations.map Creation.id := by
    simp [Polling.begun]
  have hdrains : s.id ∉ (w.polling.begun ⟨s.id, request⟩).drains.map Drain.id :=
    fun hm => hw.fresh hs (Polling.mem_ids.mpr (.inr hm))
  rw [act_keepBooks] at hwritten
  rw [h.eq]
  refine ⟨_, _, hwritten, ?_, fun _ => ?_, fun hm => absurd hm hdrains,
    fun hm => absurd (Polling.mem_ids.mpr (.inl hnew)) hm⟩
  · refine attached_after (attached_after fun r hr => ?_)
    cases hr
    rfl
  · refine ⟨{ attached := true }, ?_, rfl⟩
    simp only [Line.called, Line.receiverAfter, Change.line_receiver]
    rfl

end World

end EventFanout
