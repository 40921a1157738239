/-
EventFanout.Proofs.Polling.Reading — the reader of a filter's subscription.

The receiver of a filter's subscription is with its creation and then with its task, and no other
move calls it (`not_calls`). While it is there its client has been told no error, and what waits for
it is what its line holds (`World.Reading`).

Main statement: `Reading.move`. In a move the reader receives what is first of what waits, if the
move is a step of its task that finds something, and otherwise it stays where it is.
-/
import EventFanout.Proofs.Polling.Clock

namespace EventFanout

/-- Whatever is done to a subscription adds to what is on its line, if anything. -/
theorem Change.line_grows (s : Subscription) (l : Line) (c : Change) :
    ∃ new, l.buffer.Extends (c.line s l).buffer new ∧ ∀ n ∈ new, n.kind = s.kind := by
  have hnone : ∀ n ∈ ([] : List Notification), n.kind = s.kind := by simp
  cases c with
  | nothing => exact ⟨[], .refl _, hnone⟩
  | handedIn => exact ⟨[], .refl _, hnone⟩
  | givenUp => exact ⟨[], .close _, hnone⟩
  | installed => exact ⟨[], .refl _, hnone⟩
  | ended r => exact ⟨[], .close _, hnone⟩
  | heard e =>
    simp only [Change.line]
    cases hn : s.notice? e with
    | none => exact ⟨[], .refl _, hnone⟩
    | some n =>
      refine ⟨[n], .push _ n, fun n' hn' => ?_⟩
      rw [List.mem_singleton.mp hn']
      unfold Subscription.notice? at hn
      split at hn
      · rename_i o ho
        exact Subscription.kind_of_notification (ho.trans (congrArg Except.ok hn))
      · cases hn

/-- Who has been told of no error, and asks and is told of the installation, is told of none. -/
theorem Line.askInstalled_of_installed {l : Line} {r : Receiver} (ht : r.terminal = none)
    (h : (l.askInstalled r).1 = .installed) :
    (l.askInstalled r).2.terminal = none ∧ (l.askInstalled r).2.next = r.next := by
  obtain ⟨asked, terminal, he, -⟩ := l.askInstalled_receiver r
  refine ⟨?_, by rw [he]⟩
  unfold askInstalled at h ⊢
  simp only [ht] at h ⊢
  split
  · exact ht
  · rename_i hasked
    simp only [if_neg hasked] at h
    split
    · rfl
    · rename_i hi
      simp only [if_neg hi] at h
      split at h <;> cases h

namespace World

variable {w w' : World} {id : SubscriptionId} {l l' : Line} {r r' : Receiver} {a : Action}
  {m : Move} {s : Subscription}

/-! ## Who reads -/

/-- Somebody has the receiver of the subscription of a filter, and has been told no error. -/
structure Reading (w : World) (s : Subscription) (l : Line) (r : Receiver) : Prop where
  traced : ∃ p, w.Traced s p l
  receiver : l.receiver = some r
  untold : r.terminal = none
  within : r.next ≤ l.buffer.size
  carries : ∀ n ∈ l.buffer.sent, n.kind = s.kind
  capacity : l.buffer.capacity = ringSize w.hub.config.deliveryBuffer.toNat

namespace Reading

theorem receiver? (h : w.Reading s l r) : w.receiver? s.id = some (l, r) := by
  obtain ⟨p, htraced⟩ := h.traced
  exact receiver?_eq_some.mpr ⟨htraced.line, h.receiver⟩

/-- An action that does not call the receiver adds to the line what it sends. -/
theorem spare (h : w.Reading s l r) (ha : a.callee? ≠ some s.id) :
    ∃ l' new, l.buffer.Extends l'.buffer new ∧ (w.act a).Reading s l' r := by
  obtain ⟨p, htraced⟩ := h.traced
  obtain ⟨new, hext, hnew⟩ := (w.change s a).line_grows s l
  refine ⟨((w.change s a).line s l).called s.id a, new, hext, ⟨_, htraced.act a⟩, ?_, h.untold,
    ?_, ?_, ?_⟩
  · show Line.receiverAfter _ s.id a = some r
    rw [Line.receiverAfter_of_callee ha, Change.line_receiver, h.receiver]
  · show r.next ≤ ((w.change s a).line s l).buffer.size
    rw [hext.size]
    exact h.within.trans (Nat.le_add_right _ _)
  · intro n hn
    have hsent : n ∈ ((w.change s a).line s l).buffer.sent := hn
    rw [hext.sent, List.mem_append] at hsent
    exact hsent.elim (h.carries n) (hnew n)
  · show ((w.change s a).line s l).buffer.capacity = _
    rw [hext.capacity, h.capacity, act_config]

/-- A call on the receiver, which is not told an error. -/
theorem call (h : w.Reading s l r) (ha : w.change s a = .nothing)
    (hr : l.receiverAfter s.id a = some r') (huntold : r'.terminal = none)
    (hle : r'.next ≤ l.buffer.size) : (w.act a).Reading s (l.called s.id a) r' := by
  obtain ⟨p, htraced⟩ := h.traced
  have hact := htraced.act a
  rw [ha] at hact
  refine ⟨⟨p, hact⟩, hr, huntold, hle, h.carries, ?_⟩
  rw [act_config]
  exact h.capacity

theorem write (h : w.Reading s l r) (p : Polling) : Reading { w with polling := p } s l r := by
  have hact := h.call (a := .keepBooks p 0) rfl h.receiver h.untold h.within
  rwa [act_keepBooks] at hact

theorem clocked (h : w.Reading s l r) (time due : Nat) : (w.clocked time due).Reading s l r := by
  have hwrite := h.write { w.polling with sweepDue := due }
  exact hwrite.call (a := .setClock time) rfl hwrite.receiver hwrite.untold hwrite.within

/-- A run that does not call the receiver adds to the line what it sends. -/
theorem runs {own : SubscriptionId → Prop} (h : w.Reading s l r) (hs : Runs own w w')
    (hown : ¬ own s.id) : ∃ l' new, l.buffer.Extends l'.buffer new ∧ w'.Reading s l' r := by
  obtain ⟨run, rfl, hrun⟩ := hs
  have hspared : ∀ a ∈ run, a.callee? ≠ some s.id := fun a ha hc =>
    hown ((hrun a ha).calls s.id hc)
  clear hrun
  induction run generalizing w l with
  | nil => exact ⟨l, [], .refl _, h⟩
  | cons a rest ih =>
    obtain ⟨l₁, new, hext, h₁⟩ := h.spare (hspared a List.mem_cons_self)
    obtain ⟨l', new', hext', h'⟩ := ih h₁ fun a' ha' => hspared a' (List.mem_cons_of_mem _ ha')
    exact ⟨l', new ++ new', hext.trans hext', h'⟩

end Reading

/-- Only its creation and its task call the receiver of a filter's subscription. -/
theorem not_calls (hw : w.Managed) (hid : id ∈ w.polling.ids) (hfinish : m ≠ .finish id)
    (hdrain : m ≠ .drain id) : ¬ w.calls m id := by
  cases m with
  | act a => exact fun h => h hid
  | create request =>
    rintro rfl
    exact hw.issued_fresh hid
  | finish id' =>
    rintro rfl
    exact hfinish rfl
  | drain id' =>
    rintro rfl
    exact hdrain rfl
  | _ => exact fun h => h

/-! ## What waits for the task of a filter -/

def sentTo (id : SubscriptionId) (w : World) : List Notification :=
  match w.lines.get? id with
  | some l => l.buffer.sent
  | none => []

namespace Reading

theorem sentTo_eq (h : w.Reading s l r) : w.sentTo s.id = l.buffer.sent := by
  obtain ⟨p, htraced⟩ := h.traced
  rw [World.sentTo, htraced.line]

theorem receive_eq (h : w.Reading s l r) :
    w.receive s.id = some ((l.receive r).1, w.act (.receive s.id)) := by
  have hreceive : w.receive s.id = some ((l.receive r).1, w.setReceiver s.id (l.receive r).2) := by
    simp only [World.receive, h.receiver?, bind, Option.bind, pure]
  rw [hreceive, ← receive_some hreceive]

/-- A reader for whom there is something reads it. -/
theorem read (h : w.Reading s l r) {n : Notification}
    (hn : l.buffer.sent[max r.next l.buffer.oldest]? = some n)
    (he : l.buffer.receive r.next = (.entry n, max r.next l.buffer.oldest + 1)) :
    (l.receive r).1 = .notification n ∧
      (w.act (.receive s.id)).Reading s (l.called s.id (.receive s.id))
        { r with next := max r.next l.buffer.oldest + 1 } := by
  have hreceive : l.receive r =
      (.notification n, { r with next := max r.next l.buffer.oldest + 1 }) := by
    simp only [Line.receive, h.untold, he]
  have hafter : l.receiverAfter s.id (.receive s.id) =
      some { r with next := max r.next l.buffer.oldest + 1 } := by
    rw [Line.receiverAfter, if_pos rfl, h.receiver, Option.map_some, hreceive]
  have hlt := (List.getElem?_eq_some_iff.mp hn).1
  rw [Channel.length_sent] at hlt
  exact ⟨by rw [hreceive], h.call rfl hafter h.untold hlt⟩

end Reading

theorem expireDrain_ids (w : World) (id : SubscriptionId) :
    (w.expireDrain id).polling.ids = (w.polling.left id).ids := by
  unfold expireDrain
  rw [endDrain_polling]
  split <;> rfl

/-- What a step of the task of a filter is: it takes what is first of what waits for it, or, where
nothing does, it goes on waiting or ends. -/
theorem Reading.drain_cases (h : w.Reading s l r) (hw : w.Managed)
    (hd : ⟨s.id, false⟩ ∈ w.polling.drains) :
    (∃ n l' r', drained s.id w (.drain s.id) = some n ∧ l'.buffer = l.buffer ∧
      l.buffer.held r.next = n :: l.buffer.held r'.next ∧
      (w.move (.drain s.id)).Reading s l' r' ∧
      (w.move (.drain s.id)).polling.drains = w.polling.drains) ∨
    (drained s.id w (.drain s.id) = none ∧ l.buffer.size ≤ max r.next l.buffer.oldest ∧
      (w.drainStep s.id = none ∨ s.id ∉ (w.move (.drain s.id)).polling.ids)) := by
  have hread := act_polling w (a := .receive s.id) rfl
  have hfind := drain?_of_mem hw.tidy hd
  have hanswer := h.receive_eq
  rcases Channel.receive_cases l.buffer r.next with ⟨n, hn, he⟩ | ⟨hle, he⟩
  · obtain ⟨hnotified, hreading⟩ := h.read hn he
    rw [hnotified] at hanswer
    have hstep : w.drainStep s.id = some ((w.act (.receive s.id)).collect s.id n) := by
      simp [drainStep, hfind, hanswer, bind, Option.bind]
    have hmove : w.move (.drain s.id) = (w.act (.receive s.id)).collect s.id n := by
      simp only [World.move, hstep, Option.getD_some]
    refine .inl ⟨n, l.called s.id (.receive s.id),
      { r with next := max r.next l.buffer.oldest + 1 }, by simp [drained, hd, hanswer], rfl,
      Channel.held_eq_cons hn, ?_, ?_⟩
    · rw [hmove]
      exact hreading.write _
    · rw [hmove, collect, hread]
  · cases hdelivery : (l.receive r).1 with
    | notification n =>
      cases hc : l.buffer.closed <;> simp [Line.receive, h.untold, he, hc] at hdelivery
    | pending =>
      rw [hdelivery] at hanswer
      exact .inr ⟨by simp [drained, hanswer], hle,
        .inl (by simp [drainStep, hfind, hanswer, bind, Option.bind])⟩
    | failed e =>
      rw [hdelivery] at hanswer
      have hstep : w.drainStep s.id = some ((w.act (.receive s.id)).expireDrain s.id) := by
        simp [drainStep, hfind, hanswer, bind, Option.bind]
      refine .inr ⟨by simp [drained, hanswer], hle, .inr ?_⟩
      simp only [World.move, hstep, Option.getD_some, expireDrain_ids, hread]
      exact hw.tidy.not_mem_ids_left (List.mem_map_of_mem hd)

/-- The creation of a filter hands the receiver on as it is. -/
theorem Reading.finish (h : w.Reading s l r) (hw : w.Managed)
    (hstay : s.id ∈ (w.move (.finish s.id)).polling.ids) :
    ∃ l' r', (w.move (.finish s.id)).Reading s l' r' ∧ l'.buffer = l.buffer ∧ r'.next = r.next := by
  simp only [World.move] at hstay ⊢
  split
  · exact ⟨l, r, h, rfl, rfl⟩
  · rename_i c hfind
    have hc := List.mem_of_find?_eq_some hfind
    have hid : c.id = s.id := by simpa using List.find?_some hfind
    have hask := act_polling w (a := .askInstalled c.id) rfl
    simp only [hfind] at hstay
    rcases finishFilter_cases w c with ⟨hinstalled, hf⟩ | ⟨e, -, hf⟩ | hf
    · obtain ⟨-, l₀, r₀, hr₀, hanswer⟩ := askInstalled_some hinstalled
      rw [hid, h.receiver?, Option.some.injEq, Prod.mk.injEq] at hr₀
      obtain ⟨rfl, rfl⟩ := hr₀
      obtain ⟨huntold, hnext⟩ := Line.askInstalled_of_installed h.untold hanswer
      have hafter : l.receiverAfter s.id (.askInstalled c.id) = some (l.askInstalled r).2 := by
        rw [Line.receiverAfter, if_pos hid, h.receiver, Option.map_some]
      have hreading := h.call (a := .askInstalled c.id) rfl hafter huntold (hnext ▸ h.within)
      rw [hf]
      exact ⟨_, _, hreading.write _, rfl, hnext⟩
    · rw [hf] at hstay
      simp only [dropReceiver_polling, releaseSlot, endCreation, hask] at hstay
      exact absurd hstay (hid ▸ hw.tidy.not_mem_ids_failed hc)
    · split
      · rename_i hsome
        rw [hsome] at hf
        cases hf
      · exact ⟨l, r, h, rfl, rfl⟩

/-- In a move the reader of a filter's subscription receives what is first of what waits; or it
receives nothing and stays where it is, and what the move sends is added. -/
theorem Reading.move (h : w.Reading s l r) (hw : w.Managed) (hid : s.id ∈ w.polling.ids)
    (hstay : s.id ∈ (w.move m).polling.ids) :
    ∃ l' r', (w.move m).Reading s l' r' ∧
      ((∃ n, m = .drain s.id ∧ drained s.id w m = some n ∧ l'.buffer = l.buffer ∧
          l.buffer.held r.next = n :: l.buffer.held r'.next) ∨
        (drained s.id w m = none ∧ r'.next = r.next ∧
          ∃ new, l.buffer.Extends l'.buffer new)) := by
  by_cases hfinish : m = .finish s.id
  · subst hfinish
    obtain ⟨l', r', h', hbuffer, hnext⟩ := h.finish hw hstay
    exact ⟨l', r', h', .inr ⟨rfl, hnext, [], hbuffer ▸ .refl _⟩⟩
  by_cases hdrain : m = .drain s.id
  · subst hdrain
    by_cases hd : ⟨s.id, false⟩ ∈ w.polling.drains
    · rcases h.drain_cases hw hd with ⟨n, l', r', hn, hbuffer, hheld, h', -⟩ | ⟨hn, -, hnone | hleft⟩
      · exact ⟨l', r', h', .inl ⟨n, rfl, hn, hbuffer, hheld⟩⟩
      · refine ⟨l, r, ?_, .inr ⟨hn, rfl, [], .refl _⟩⟩
        simpa only [World.move, hnone, Option.getD_none] using h
      · exact absurd hstay hleft
    · have hn : drained s.id w (.drain s.id) = none := if_neg fun hc => hd hc.2
      rcases drainStep_cases w s.id with he | ⟨hc, he⟩ | ⟨hc, -⟩ | ⟨hc, -⟩
      · refine ⟨l, r, ?_, .inr ⟨hn, rfl, [], .refl _⟩⟩
        simpa only [World.move, he, Option.getD_none] using h
      · simp only [World.move, he, Option.getD_some, endDrain_polling] at hstay
        exact absurd hstay (hw.tidy.not_mem_ids_left (List.mem_map_of_mem hc))
      · exact absurd hc hd
      · exact absurd hc hd
  · obtain ⟨l', new, hext, h'⟩ := (h.clocked _ _).runs (move_runs w m)
      (not_calls hw hid hfinish hdrain)
    refine ⟨l', r, h', .inr ⟨?_, rfl, new, hext⟩⟩
    cases m with
    | drain id' =>
      refine if_neg ?_
      rintro ⟨rfl, -⟩
      exact hdrain rfl
    | _ => rfl

end World

end EventFanout
