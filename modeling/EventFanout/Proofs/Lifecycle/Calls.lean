/-
EventFanout.Proofs.Lifecycle.Calls — what the calls of clients are to one subscription.

Most calls move nobody. Making a subscription adds one, handing it in or giving it up
takes it out of those that are held, and the others stay where they were.

Main statement: `act_shows`. What an action is to a subscription (`World.change`), the
world after it shows.
-/
import EventFanout.Proofs.Lifecycle.Change

namespace EventFanout

/-- The client's half of a line after an action: its own calls change it, and nothing else does. -/
def Line.receiverAfter (l : Line) (id : SubscriptionId) : Action → Option Receiver
  | .askInstalled id' =>
    if id' = id then l.receiver.map fun r => (l.askInstalled r).2 else l.receiver
  | .tryError id' => if id' = id then l.receiver.map fun r => (l.tryError r).2 else l.receiver
  | .receive id' => if id' = id then l.receiver.map fun r => (l.receive r).2 else l.receiver
  | .dropReceiver id' => if id' = id then none else l.receiver
  | _ => l.receiver

def Line.called (l : Line) (id : SubscriptionId) (a : Action) : Line :=
  { l with receiver := l.receiverAfter id a }

namespace World

variable {w w' : World} {s : Subscription} {p : Place} {l : Line}

/-! ## Calls on a receiver -/

/-- A call on the receiver of a subscription changes that receiver only. -/
theorem setReceiver_called (w : World) (f : Line → Receiver → Receiver) (id' id : SubscriptionId) :
    ((w.receiver? id').elim w fun p => w.setReceiver id' (f p.1 p.2)).lines.get? id =
      (w.lines.get? id).map fun l =>
        { l with receiver := if id' = id then l.receiver.map (f l) else l.receiver } := by
  cases hr : w.receiver? id' with
  | none =>
    show w.lines.get? id = _
    cases hl : w.lines.get? id with
    | none => rfl
    | some l =>
      by_cases hid : id' = id
      · subst hid
        rw [Option.map_some, if_pos rfl, receiver?_eq_none.mp hr l hl]
        have hn := receiver?_eq_none.mp hr l hl
        obtain ⟨kind, buffer, installed, reason, receiver⟩ := l
        simp only at hn
        subst hn
        rfl
      · rw [Option.map_some, if_neg hid]
  | some pair =>
    obtain ⟨l, r⟩ := pair
    obtain ⟨hl, hr'⟩ := receiver?_eq_some.mp hr
    simp only [Option.elim, setReceiver, Table.get?_update]
    by_cases hid : id' = id
    · subst hid
      rw [if_pos rfl, hl, Option.map_some, Option.map_some, if_pos rfl, hr']
      rfl
    · simp only [if_neg hid, Option.map_id']

theorem dropReceiver_called (w : World) (id' id : SubscriptionId) :
    (w.dropReceiver id').lines.get? id = (w.lines.get? id).map fun l =>
      { l with receiver := if id' = id then none else l.receiver } := by
  have hlines : (w.lines.update id' Line.dropReceiver).get? id = (w.lines.get? id).map fun l =>
      { l with receiver := if id' = id then none else l.receiver } := by
    rw [Table.get?_update]
    by_cases hid : id' = id
    · simp only [if_pos hid]
      rfl
    · simp only [if_neg hid, Option.map_id']
  unfold dropReceiver
  cases hr : w.receiver? id' with
  | none =>
    show w.lines.get? id = _
    rw [← hlines, Table.get?_update]
    by_cases hid : id' = id
    · subst hid
      rw [if_pos rfl]
      cases hl : w.lines.get? id' with
      | none => rfl
      | some l =>
        have hn := receiver?_eq_none.mp hr l hl
        obtain ⟨kind, buffer, installed, reason, receiver⟩ := l
        simp only at hn
        subst hn
        rfl
    · rw [if_neg hid]
  | some pair =>
    simp only
    split
    · rw [requestRemoval_lines]
      exact hlines
    · exact hlines

/-- What moves nobody is at most a call of a client. -/
theorem act_called (w : World) {a : Action} (ha : a.movesNobody = true) (id : SubscriptionId) :
    (w.act a).lines.get? id = (w.lines.get? id).map fun l => l.called id a := by
  have hsame : (w.act a).lines = w.lines → (∀ l : Line, l.receiverAfter id a = l.receiver) →
      (w.act a).lines.get? id = (w.lines.get? id).map fun l => l.called id a := by
    intro he hr
    simp only [he, Line.called, hr, Option.map_id']
  cases a with
  | make kind criteria topic buffer => cases ha
  | makeWithin kind criteria => cases ha
  | submit id => cases ha
  | discard id => cases ha
  | turn t => cases ha
  | requestRemoval id' => exact hsame (requestRemoval_lines w id') fun _ => rfl
  | dropReceiver id' => exact dropReceiver_called w id' id
  | askInstalled id' =>
    have he : w.act (.askInstalled id') = (w.receiver? id').elim w fun p =>
        w.setReceiver id' (p.1.askInstalled p.2).2 := by
      simp only [act, World.askInstalled]
      cases w.receiver? id' <;> rfl
    rw [he]
    exact setReceiver_called w (fun l r => (l.askInstalled r).2) id' id
  | tryError id' =>
    have he : w.act (.tryError id') = (w.receiver? id').elim w fun p =>
        w.setReceiver id' (p.1.tryError p.2).2 := by
      simp only [act, World.tryError]
      cases w.receiver? id' <;> rfl
    rw [he]
    exact setReceiver_called w (fun l r => (l.tryError r).2) id' id
  | receive id' =>
    have he : w.act (.receive id') = (w.receiver? id').elim w fun p =>
        w.setReceiver id' (p.1.receive p.2).2 := by
      simp only [act, World.receive]
      cases w.receiver? id' <;> rfl
    rw [he]
    exact setReceiver_called w (fun l r => (l.receive r).2) id' id
  | signal cancelled =>
    refine hsame ?_ fun _ => rfl
    simp only [act, signal]
    split <;> rfl
  | busReceive hd =>
    refine hsame ?_ fun _ => rfl
    simp only [act]
    split <;> rfl
  | busDrop hd =>
    refine hsame ?_ fun _ => rfl
    simp only [act]
    split <;> rfl
  | _ => exact hsame rfl fun _ => rfl

/-! ## Making, handing in, giving up -/

theorem made_shows (h : w.Roster) (hp : w.In s p) (hl : w.lines.get? s.id = some l)
    {s₀ : Subscription} (hid : s₀.id = .issued w.issued) (buffer : Nat) (attached : Bool) :
    Shows (w.made s₀ buffer attached) s p l .nothing := by
  obtain ⟨n, hn, hlt⟩ := h.issued_of_in hp
  have hne : ¬ s₀.id = s.id := by
    rw [hid, hn, SubscriptionId.issued.injEq]
    omega
  have hheld : (w.made s₀ buffer attached).held.values = w.held.values ++ [s₀] := h.values_made hid
  refine ⟨?_, ?_⟩
  · cases p with
    | held =>
      show s ∈ (w.made s₀ buffer attached).held.values
      rw [hheld]
      exact List.mem_append_left _ hp
    | queued => exact hp
    | indexed => exact hp
    | gone =>
      refine ⟨fun hm => ?_, n, hn, Nat.lt_succ_of_lt hlt⟩
      obtain ⟨s', hs', hid'⟩ := List.mem_map.mp hm
      rcases List.mem_cons.mp ((h.everyone_made hid buffer attached).mem_iff.mp hs') with rfl | hs'
      · exact hne hid'
      · exact hp.1 (List.mem_map.mpr ⟨s', hs', hid'⟩)
  · show (w.lines.set s₀.id _).get? s.id = some l
    rw [Table.get?_set, if_neg hne, hl]

/-- Who is still held after one has been taken out. -/
theorem Roster.mem_erase (h : w.Roster) {id : SubscriptionId} :
    s ∈ (w.held.erase id).values ↔ s ∈ w.held.values ∧ s.id ≠ id := by
  simp only [Table.values, List.mem_map]
  constructor
  · rintro ⟨e, he, rfl⟩
    obtain ⟨hm, hne⟩ := Table.mem_entries_erase.mp he
    exact ⟨⟨e, hm, rfl⟩, h.own e.1 e.2 hm ▸ hne⟩
  · rintro ⟨⟨e, he, rfl⟩, hne⟩
    exact ⟨e, Table.mem_entries_erase.mpr ⟨he, h.own e.1 e.2 he ▸ hne⟩, rfl⟩

/-- Taking one out of those held, to let it wait or to let it go, moves nobody else. -/
theorem Roster.in_unheld (h : w.Roster) (hp : w.In s p) {id : SubscriptionId} (hid : id ≠ s.id)
    (hh : w'.held = w.held.erase id) (hq : w.hub.installs ⊆ w'.hub.installs)
    (hx : w'.hub.index = w.hub.index) (hi : w'.issued = w.issued)
    (hsub : w'.everyone ⊆ w.everyone) : w'.In s p := by
  cases p with
  | held =>
    show s ∈ w'.held.values
    rw [hh, h.mem_erase]
    exact ⟨hp, fun e => hid e.symm⟩
  | queued => exact hq hp
  | indexed =>
    show s ∈ w'.hub.index.values
    rw [hx]
    exact hp
  | gone => exact hp.gone_kept hsub hi

/-- One that is no longer held and does not wait either is gone. -/
theorem Roster.gone_unheld (h : w.Roster) (hs : s ∈ w.held.values)
    (hh : w'.held = w.held.erase s.id) (hq : w'.hub.installs = w.hub.installs)
    (hx : w'.hub.index = w.hub.index) (hi : w'.issued = w.issued) : w'.In s .gone := by
  have hmem : ∀ s', s' ∈ w'.everyone ↔ (s' ∈ w.held.values ∧ s'.id ≠ s.id) ∨
      s' ∈ w.hub.installs ∨ s' ∈ w.hub.index.values := by
    intro s'
    rw [Roster.mem_everyone, hh, h.mem_erase, hq, hx]
  have hsub : w'.everyone ⊆ w.everyone := by
    intro s' hs'
    rw [Roster.mem_everyone]
    exact ((hmem s').mp hs').imp_left And.left
  obtain ⟨-, -, hhq, hhx, -⟩ := h.parts
  refine h.in_gone (Roster.mem_everyone.mpr (.inl hs)) hsub ?_ hi
  rw [hmem]
  rintro (⟨-, hne⟩ | hm | hm)
  · exact hne rfl
  · exact hhq s hs hm
  · exact hhx s hs hm

/-- Nobody is new where one that was held waits now, or is gone. -/
theorem Roster.everyone_unheld (h : w.Roster) (hs : s ∈ w'.everyone) {s₀ : Subscription}
    (hs₀ : s₀ ∈ w.held.values) (hh : w'.held = w.held.erase s₀.id)
    (hq : w'.hub.installs = w.hub.installs ∨ w'.hub.installs = w.hub.installs ++ [s₀])
    (hx : w'.hub.index = w.hub.index) : s ∈ w.everyone := by
  have hqs : ∀ s, s ∈ w'.hub.installs → s ∈ w.hub.installs ∨ s = s₀ := by
    intro s hs
    rcases hq with hq | hq
    · exact .inl (hq ▸ hs)
    · simpa [hq] using hs
  rw [Roster.mem_everyone, hh, h.mem_erase, hx] at hs
  rw [Roster.mem_everyone]
  rcases hs with hs | hs | hs
  · exact .inl hs.1
  · rcases hqs s hs with hs | rfl
    · exact .inr (.inl hs)
    · exact .inl hs₀
  · exact .inr (.inr hs)

/-- What handing a subscription in, or giving it up, is to the others. -/
theorem unheld_shows_other (h : w.Roster) (hp : w.In s p) (hl : w.lines.get? s.id = some l)
    {s₀ : Subscription} (hs₀ : s₀ ∈ w.held.values) (hid : s₀.id ≠ s.id) (f : Line → Line)
    (hh : w'.held = w.held.erase s₀.id)
    (hq : w'.hub.installs = w.hub.installs ∨ w'.hub.installs = w.hub.installs ++ [s₀])
    (hx : w'.hub.index = w.hub.index) (hi : w'.issued = w.issued)
    (hlines : w'.lines = w.lines ∨ w'.lines = w.lines.update s₀.id f) :
    Shows w' s p l .nothing := by
  have hqsub : w.hub.installs ⊆ w'.hub.installs := by
    rcases hq with hq | hq
    · rw [hq]
      exact List.Subset.refl _
    · rw [hq]
      exact List.subset_append_left _ _
  refine ⟨h.in_unheld hp hid hh hqsub hx hi fun _ hs => h.everyone_unheld hs hs₀ hh hq hx, ?_⟩
  rcases hlines with he | he
  · rw [he, hl]
    rfl
  · rw [he, Table.get?_update, if_neg hid, hl]
    rfl

theorem submit_shows (h : w.Roster) (hp : w.In s p) (hl : w.lines.get? s.id = some l)
    (id : SubscriptionId) : Shows (w.act (.submit id)) s p l (w.change s (.submit id)) := by
  simp only [change]
  cases hget : w.held.get? id with
  | none =>
    have hw : w.act (.submit id) = w := by simp only [act, hget]
    have hnot : ¬ (id = s.id ∧ s ∈ w.held.values) := by
      rintro ⟨rfl, hs⟩
      rw [h.get?_of_held hs] at hget
      cases hget
    rw [hw, if_neg hnot]
    exact ⟨hp, hl⟩
  | some s₀ =>
    obtain ⟨rfl, hs₀⟩ := h.id_of_held hget
    have hw : w.act (.submit s₀.id) = (w.submit s₀).2 := by simp only [act, hget]
    rw [hw]
    by_cases hid : s₀.id = s.id
    · obtain ⟨rfl, -⟩ := h.eq_of_in hp (Roster.mem_everyone.mpr (.inl hs₀)) hid
      rw [if_pos ⟨rfl, hs₀⟩]
      have hline : ∀ f : Line → Line, (w.lines.update s₀.id f).get? s₀.id = some (f l) := by
        intro f
        rw [Table.get?_update, if_pos rfl, hl]
        rfl
      rcases submit_cases w s₀ with ⟨hadm, hr, he⟩ | ⟨hadm, he⟩ | ⟨hadm, hr, he⟩
      · rw [he, hadm, if_neg (by simp), if_pos hr]
        exact ⟨List.mem_append_right _ (List.mem_singleton_self s₀), hl⟩
      · rw [he, hadm, if_pos rfl]
        refine ⟨?_, hline _⟩
        exact h.gone_unheld hs₀ rfl rfl rfl rfl
      · rw [he, hadm, if_neg (by simp), hr, if_neg (by simp)]
        refine ⟨?_, hline _⟩
        exact h.gone_unheld hs₀ rfl rfl rfl rfl
    · rw [if_neg fun hc => hid hc.1]
      rcases submit_cases w s₀ with ⟨_, _, he⟩ | ⟨_, he⟩ | ⟨_, _, he⟩ <;> rw [he]
      · exact unheld_shows_other h hp hl hs₀ hid id rfl (.inr rfl) rfl rfl (.inl rfl)
      · exact unheld_shows_other h hp hl hs₀ hid _ rfl (.inl rfl) rfl rfl (.inr rfl)
      · exact unheld_shows_other h hp hl hs₀ hid _ rfl (.inl rfl) rfl rfl (.inr rfl)

theorem discard_shows (h : w.Roster) (hp : w.In s p) (hl : w.lines.get? s.id = some l)
    (id : SubscriptionId) : Shows (w.act (.discard id)) s p l (w.change s (.discard id)) := by
  simp only [act, change]
  rcases discard_cases w id with ⟨hc, he⟩ | ⟨hc, he⟩
  · have hnot : ¬ (id = s.id ∧ s ∈ w.held.values) := by
      rintro ⟨rfl, hs⟩
      rw [Table.contains, h.get?_of_held hs] at hc
      cases hc
    rw [he, if_neg hnot]
    exact ⟨hp, hl⟩
  · obtain ⟨s₀, hget⟩ := Option.isSome_iff_exists.mp hc
    obtain ⟨rfl, hs₀⟩ := h.id_of_held hget
    rw [he]
    by_cases hid : s₀.id = s.id
    · obtain ⟨rfl, -⟩ := h.eq_of_in hp (Roster.mem_everyone.mpr (.inl hs₀)) hid
      rw [if_pos ⟨rfl, hs₀⟩]
      refine ⟨?_, ?_⟩
      · exact h.gone_unheld hs₀ rfl rfl rfl rfl
      · rw [Table.get?_update, if_pos rfl, hl]
        rfl
    · rw [if_neg fun hc => hid hc.1]
      exact unheld_shows_other h hp hl hs₀ hid _ rfl (.inl rfl) rfl rfl (.inr rfl)

/-- What an action is to a subscription, the world after it shows; and its client has made the
call, if the action is one. -/
theorem act_shows (h : w.Roster) (hp : w.In s p) (hl : w.lines.get? s.id = some l)
    (hk : l.kind = s.kind) (a : Action) :
    (w.act a).In s ((w.change s a).place p) ∧
      (w.act a).lines.get? s.id = some (((w.change s a).line s l).called s.id a) := by
  have hidle : ∀ {a : Action}, a.movesNobody = true →
      (w.act a).In s p ∧ (w.act a).lines.get? s.id = some (l.called s.id a) := by
    intro a ha
    have hnot : ∀ t, a ≠ .turn t := by
      rintro t rfl
      cases ha
    refine ⟨hp.of_same (act_intake w ha) (act_sameLoop w hnot).index, ?_⟩
    rw [act_called w ha, hl]
    rfl
  cases a with
  | make kind criteria topic buffer =>
    rcases make_cases w kind criteria topic buffer with he | ⟨s₀, hid, he⟩ <;> rw [he]
    · exact ⟨hp, hl⟩
    · have hshow := made_shows h hp hl hid buffer false
      exact ⟨hshow.place, hshow.line⟩
  | makeWithin kind criteria =>
    rcases makeWithin_cases w kind criteria with he | ⟨s₀, buffer, hid, he⟩ <;> rw [he]
    · exact ⟨hp, hl⟩
    · have hshow := made_shows h hp hl hid buffer true
      exact ⟨hshow.place, hshow.line⟩
  | submit id =>
    have hshow := submit_shows h hp hl id
    exact ⟨hshow.place, hshow.line⟩
  | discard id =>
    have hshow := discard_shows h hp hl id
    exact ⟨hshow.place, hshow.line⟩
  | turn t =>
    simp only [act, change]
    split
    · have hshow := perform_shows h hp hl hk t
      exact ⟨hshow.place, hshow.line⟩
    · exact ⟨hp, hl⟩
  | _ => exact hidle rfl

end World

end EventFanout
