/-
EventFanout.Proofs.Lifecycle.Change — what an action is to one subscription.

Whatever happens, it changes a subscription in one of a few ways (`Change`), and the
state before tells which (`World.change`): for instance, a subscription is ended for the
reason `registrationFailed e` if it is the first that waits, the hub is not registered
on its topic, and the bus refuses the topic with `e`. A change moves the subscription
(`Change.place`) and leaves its mark on the hub's half of its line (`Change.line`).

Main statement: `perform_shows`. The world after a step of the hub has the subscription in
the place, and its line in the condition, that the change says. `Proofs.Lifecycle.Calls`
adds the calls of clients.
-/
import EventFanout.Proofs.Lifecycle.Roster

namespace EventFanout

/-- What an action is to a subscription. -/
inductive Change where
  | nothing
  /-- It was handed in and waits now. -/
  | handedIn
  /-- The hub's half of its line was given up before it was handed in. -/
  | givenUp
  | installed
  /-- It was given an event while its client listened. -/
  | heard (event : Event)
  | ended (reason : SubscriptionError)

/-- What an event is to a subscription, if it is of interest and can be read. -/
def Subscription.notice? (s : Subscription) (e : Event) : Option Notification :=
  match s.notification e.payload with
  | .ok o => o
  | .error _ => none

def Line.push (l : Line) (n : Notification) : Line := { l with buffer := l.buffer.push n }

namespace Change

def place (p : World.Place) : Change → World.Place
  | .nothing | .heard _ => p
  | .handedIn => .queued
  | .installed => .indexed
  | .givenUp | .ended _ => .gone

def line (s : Subscription) (l : Line) : Change → Line
  | .nothing | .handedIn => l
  | .givenUp => l.abandon
  | .installed => l.markInstalled
  | .heard e => (s.notice? e).elim l l.push
  | .ended r => l.close r

end Change

namespace World

/-- What the hub would read from a topic next. -/
def item? (w : World) (t : Topic) : Option (Item Event) :=
  ((w.hub.feeds.get? t).bind w.bus.read?).map (·.1)

def listens (w : World) (id : SubscriptionId) : Bool := (w.receiver? id).isSome

def turnChange (w : World) (s : Subscription) : Turn → Change
  | .stop => if s ∈ w.hub.installs ∨ s ∈ w.hub.index.values then .ended .shutdown else .nothing
  | .install =>
    if w.hub.installs.head? = some s then
      if w.hub.topics.contains s.topic then .installed
      else
        match (w.bus.subscribe s.topic).1 with
        | .ok _ => .installed
        | .error e => .ended (.registrationFailed e)
    else .nothing
  | .remove =>
    if w.hub.removals.head? = some s.id ∧ s ∈ w.hub.index.values then .ended .unsubscribed
    else .nothing
  | .read t =>
    if s ∈ w.hub.listeners t then
      match w.item? t with
      | some (.entry e) => if w.listens s.id then .heard e else .ended .closed
      | some .ended => .ended (.topicClosed t)
      | _ => .nothing
    else .nothing

def change (w : World) (s : Subscription) : Action → Change
  | .submit id =>
    if id = s.id ∧ s ∈ w.held.values then
      if w.hub.config.lightMode && s.kind.requiresFullNode then
        .ended (.rejected (.lightMode s.kind))
      else if w.hub.running then .handedIn else .ended .shutdown
    else .nothing
  | .discard id => if id = s.id ∧ s ∈ w.held.values then .givenUp else .nothing
  | .turn t => if w.hub.running then w.turnChange s t else .nothing
  | _ => .nothing

/-- The subscription is where a change says, and its line is in the condition it says. -/
structure Shows (w' : World) (s : Subscription) (p : Place) (l : Line) (c : Change) : Prop where
  place : w'.In s (c.place p)
  line : w'.lines.get? s.id = some (c.line s l)

variable {w w' : World} {s : Subscription} {p : Place} {l : Line}

/-! ## Places from one world to the next -/

theorem In.of_same (hp : w.In s p) (hi : SameIntake w w') (hx : w'.hub.index = w.hub.index) :
    w'.In s p := by
  cases p with
  | held =>
    show s ∈ w'.held.values
    rw [hi.held]
    exact hp
  | queued =>
    show s ∈ w'.hub.installs
    rw [hi.installs]
    exact hp
  | indexed =>
    show s ∈ w'.hub.index.values
    rw [hx]
    exact hp
  | gone =>
    obtain ⟨hn, n, hid, hlt⟩ := hp
    refine ⟨?_, n, hid, hi.issued ▸ hlt⟩
    rw [everyone_of_same hi hx]
    exact hn

/-- Nobody who is gone comes back where nobody is new. -/
theorem In.gone_kept (hp : w.In s .gone) (hsub : w'.everyone ⊆ w.everyone)
    (hi : w'.issued = w.issued) : w'.In s .gone := by
  obtain ⟨hn, n, hid, hlt⟩ := hp
  refine ⟨fun hm => ?_, n, hid, hi ▸ hlt⟩
  obtain ⟨s', hs', hid'⟩ := List.mem_map.mp hm
  exact hn (List.mem_map.mpr ⟨s', hsub hs', hid'⟩)

/-- Who was on the list is gone when it is on it no longer. -/
theorem Roster.in_gone (h : w.Roster) (hs : s ∈ w.everyone) (hsub : w'.everyone ⊆ w.everyone)
    (hnot : s ∉ w'.everyone) (hi : w'.issued = w.issued) : w'.In s .gone := by
  obtain ⟨n, hid, hlt⟩ := h.issued s hs
  refine ⟨fun hm => ?_, n, hid, hi ▸ hlt⟩
  obtain ⟨s', hs', hid'⟩ := List.mem_map.mp hm
  have he := h.unique (hsub hs') hs hid'
  exact hnot (he ▸ hs')

/-- The identities in the index are those of the subscriptions in the index. -/
theorem Roster.mem_ids (h : w.Roster) (hp : w.In s p) : s.id ∈ w.hub.ids ↔ p = .indexed := by
  rw [← h.sound.consistent.values_ids, List.mem_map]
  constructor
  · rintro ⟨s', hs', hid⟩
    obtain ⟨rfl, -⟩ := h.eq_of_in hp (Roster.mem_everyone.mpr (.inr (.inr hs'))) hid
    exact h.place_unique hp hs'
  · rintro rfl
    exact ⟨s, hp, rfl⟩

/-! ## Removals -/

section Removal

variable {r : SubscriptionError} {ids : List SubscriptionId}

theorem Removal.everyone_subset (hr : Removal r ids w w') : w'.everyone ⊆ w.everyone := by
  have hsub : w'.hub.index.values.Sublist w.hub.index.values := by
    rw [Table.values, hr.index]
    exact List.filter_sublist.map _
  rw [everyone, everyone, hr.intake.held, hr.intake.installs]
  exact (hsub.append_left _).subset

theorem fanOut_everyone (hn : w.hub.ids.Nodup) (t : Topic) (p : Payload) :
    (w.fanOut t p).everyone ⊆ w.everyone := by
  have hsame := everyone_of_same (delivered_sameIntake w t p) (delivered_sameLoop w t p).index
  exact hsame ▸ (fanOut_removal hn t p).everyone_subset

/-- What a removal is to a subscription. -/
theorem Removal.shows (hr : Removal r ids w w') (h : w.Roster) (hp : w.In s p)
    (hl : w.lines.get? s.id = some l) :
    (p = .indexed ∧ s.id ∈ ids → Shows w' s p l (.ended r)) ∧
      (¬ (p = .indexed ∧ s.id ∈ ids) → Shows w' s p l .nothing) := by
  constructor
  · rintro ⟨rfl, hid⟩
    refine ⟨?_, ?_⟩
    · refine h.in_gone (Roster.mem_everyone.mpr (.inr (.inr hp))) hr.everyone_subset ?_
        hr.intake.issued
      obtain ⟨-, -, -, hhx, hqx⟩ := h.parts
      rw [Roster.mem_everyone, hr.intake.held, hr.intake.installs]
      rintro (hs | hs | hs)
      · exact hhx s hs hp
      · exact hqx s hs hp
      · obtain ⟨key, hkey⟩ := Hub.mem_values.mp hs
        rw [hr.index, List.mem_filter] at hkey
        have hown := h.sound.consistent.filed key s hkey.1
        simp [hown, hid] at hkey
    · rw [hr.lines, if_pos ⟨hid, (h.mem_ids hp).mpr rfl⟩, hl]
      rfl
  · intro hnot
    refine ⟨?_, ?_⟩
    · cases p with
      | held =>
        show s ∈ w'.held.values
        rw [hr.intake.held]
        exact hp
      | queued =>
        show s ∈ w'.hub.installs
        rw [hr.intake.installs]
        exact hp
      | indexed =>
        obtain ⟨key, hkey⟩ := Hub.mem_values.mp hp
        have hown := h.sound.consistent.filed key s hkey
        refine Hub.mem_values.mpr ⟨key, ?_⟩
        rw [hr.index, List.mem_filter]
        refine ⟨hkey, ?_⟩
        simp only [true_and] at hnot
        simpa [hown] using hnot
      | gone => exact hp.gone_kept hr.everyone_subset hr.intake.issued
    · rw [hr.lines, if_neg, hl]
      · rfl
      · rintro ⟨hid, hm⟩
        exact hnot ⟨(h.mem_ids hp).mp hm, hid⟩

end Removal

/-! ## The steps of the hub -/

theorem Roster.mem_values (h : w.Roster) (hp : w.In s p) :
    s ∈ w.hub.index.values ↔ p = .indexed := by
  constructor
  · exact fun hs => h.place_unique hp hs
  · rintro rfl
    exact hp

theorem Roster.not_mem_map (h : w.Roster) (hp : w.In s p) {l : List Subscription}
    (hl : l ⊆ w.everyone) (hs : s ∉ l) : s.id ∉ l.map Subscription.id := by
  intro hm
  obtain ⟨s', hs', hid⟩ := List.mem_map.mp hm
  obtain ⟨rfl, -⟩ := h.eq_of_in hp (hl hs') hid
  exact hs hs'

/-- Only what is held is left when the hub has stopped. -/
theorem shutdown_everyone (w : World) : w.shutdown.everyone ⊆ w.everyone := by
  obtain ⟨m, hhub⟩ := shutdown_hub w
  intro s hs
  rw [Roster.mem_everyone, (shutdown_intake w).1, hhub] at hs
  rw [Roster.mem_everyone]
  rcases hs with hs | hs | hs
  · exact .inl hs
  · cases hs
  · cases hs

/-- The end of the hub ends what is installed, refuses what waits, and leaves what a client still
holds. -/
theorem shutdown_shows (h : w.Roster) (hp : w.In s p) (hl : w.lines.get? s.id = some l) :
    Shows w.shutdown s p l (w.turnChange s .stop) := by
  obtain ⟨m, hhub⟩ := shutdown_hub w
  obtain ⟨hheld, hissued⟩ := shutdown_intake w
  have heveryone : w.shutdown.everyone = w.held.values := by
    simp [everyone, hhub, hheld, Table.values]
  have hsub := shutdown_everyone w
  obtain ⟨-, -, hhq, hhx, -⟩ := h.parts
  simp only [turnChange]
  split
  · rename_i hm
    have hs : s ∈ w.everyone := Roster.mem_everyone.mpr (.inr hm)
    have hnot : s ∉ w.shutdown.everyone := by
      rw [heveryone]
      exact fun hs' => hm.elim (hhq s hs') (hhx s hs')
    refine ⟨h.in_gone hs hsub hnot hissued, ?_⟩
    have hid : s.id ∈ w.hub.installs.map Subscription.id ∨
        s.id ∈ w.hub.index.values.map Subscription.id :=
      hm.imp (fun hm => List.mem_map.mpr ⟨s, hm, rfl⟩) (fun hm => List.mem_map.mpr ⟨s, hm, rfl⟩)
    rw [shutdown_lines, if_pos hid, hl]
    rfl
  · rename_i hm
    simp only [not_or] at hm
    refine ⟨?_, ?_⟩
    · cases p with
      | held =>
        show s ∈ w.shutdown.held.values
        rw [hheld]
        exact hp
      | queued => exact absurd hp hm.1
      | indexed => exact absurd hp hm.2
      | gone => exact hp.gone_kept hsub hissued
    · rw [shutdown_lines, if_neg, hl]
      · rfl
      · rintro (hid | hid)
        · exact h.not_mem_map hp (fun s hs => Roster.mem_everyone.mpr (.inr (.inl hs))) hm.1 hid
        · exact h.not_mem_map hp (fun s hs => Roster.mem_everyone.mpr (.inr (.inr hs))) hm.2 hid

/-- What installing the first that waits does to the lists, and to the lines of the others. -/
theorem install_frame (h : w.Roster) {s₀ : Subscription} {rest : List Subscription}
    (hq : w.hub.installs = s₀ :: rest) :
    (w.perform .install).held = w.held ∧ (w.perform .install).issued = w.issued ∧
      (w.perform .install).hub.installs = rest ∧
      ((w.perform .install).hub.index = w.hub.index ∨
        (w.perform .install).hub.index.values = w.hub.index.values ++ [s₀]) ∧
      ∀ id, id ≠ s₀.id → (w.perform .install).lines.get? id = w.lines.get? id := by
  have hp : w.perform .install = { w with hub.installs := rest }.install s₀ := by
    simp only [perform, hq]
  have hmem : s₀ ∈ w.hub.installs := hq ▸ List.mem_cons_self
  have hlines : ∀ (f : Line → Line) (id : SubscriptionId), id ≠ s₀.id →
      (w.lines.update s₀.id f).get? id = w.lines.get? id := by
    intro f id hid
    rw [Table.get?_update, if_neg fun e => hid e.symm]
  have hvalues := h.values_filed hmem
  rw [hp]
  rcases install_cases { w with hub.installs := rest } s₀ with
    ⟨_, _, he⟩ | ⟨_, he⟩ | ⟨e, _, _, _, he⟩ | ⟨w', _, hreg, he⟩
  · rw [he]
    exact ⟨rfl, rfl, rfl, .inl rfl, hlines _⟩
  · rw [he]
    exact ⟨rfl, rfl, rfl, .inl rfl, hlines _⟩
  · rw [he]
    exact ⟨rfl, rfl, rfl, .inl rfl, hlines _⟩
  · rw [he]
    rcases register_cases hreg with ⟨_, rfl⟩ | ⟨_, hd, bus, _, rfl⟩
    · exact ⟨rfl, rfl, rfl, .inr hvalues, hlines _⟩
    · exact ⟨rfl, rfl, rfl, .inr hvalues, hlines _⟩

theorem install_everyone (h : w.Roster) {s₀ : Subscription} {rest : List Subscription}
    (hq : w.hub.installs = s₀ :: rest) : (w.perform .install).everyone ⊆ w.everyone := by
  obtain ⟨hheld, _, hrest, hindex, _⟩ := install_frame h hq
  have hmem : s₀ ∈ w.hub.installs := hq ▸ List.mem_cons_self
  have hx : ∀ s, s ∈ (w.perform .install).hub.index.values →
      s ∈ w.hub.index.values ∨ s = s₀ := by
    intro s hm
    rcases hindex with he | he
    · rw [he] at hm
      exact .inl hm
    · rw [he, List.mem_append, List.mem_singleton] at hm
      exact hm
  intro s hm
  rw [Roster.mem_everyone] at hm ⊢
  rw [hheld, hrest] at hm
  rcases hm with hm | hm | hm
  · exact .inl hm
  · exact .inr (.inl (hq ▸ List.mem_cons_of_mem _ hm))
  · rcases hx s hm with hm | rfl
    · exact .inr (.inr hm)
    · exact .inr (.inl hmem)

/-- What installing is to the subscription that is first. -/
theorem install_own (h : w.Roster) {rest : List Subscription}
    (hq : w.hub.installs = s :: rest) (hl : w.lines.get? s.id = some l) :
    Shows (w.perform .install) s .queued l (w.turnChange s .install) := by
  have hp : w.perform .install = { w with hub.installs := rest }.install s := by
    simp only [perform, hq]
  have hmem : s ∈ w.hub.installs := hq ▸ List.mem_cons_self
  have hadm := h.admitted s hmem
  have hnew := h.contains_eq_false hmem
  have hlines : ∀ f : Line → Line, (w.lines.update s.id f).get? s.id = some (f l) := by
    intro f
    rw [Table.get?_update, if_pos rfl, hl]
    rfl
  have hfirst : w.hub.installs.head? = some s := by rw [hq, List.head?_cons]
  rw [hp]
  simp only [turnChange, if_pos hfirst]
  rcases install_cases { w with hub.installs := rest } s with
    ⟨hlight, hfull, _⟩ | ⟨hdup, _⟩ | ⟨e, _, ht, hb, he⟩ | ⟨w', _, hreg, he⟩
  · simp only at hlight
    simp [hlight, hfull] at hadm
  · rw [show w.hub.contains s.id = true from hdup] at hnew
    cases hnew
  · have ht' : ¬ w.hub.topics.contains s.topic = true := by
      rw [show w.hub.topics.contains s.topic = false from ht]
      simp
    rw [if_neg ht', show (w.bus.subscribe s.topic).1 = .error e from hb, he]
    refine ⟨?_, hlines _⟩
    refine h.in_gone (Roster.mem_everyone.mpr (.inr (.inl hmem))) ?_ ?_ rfl
    · intro s' hs'
      rcases Roster.mem_everyone.mp hs' with hs' | hs' | hs'
      · exact Roster.mem_everyone.mpr (.inl hs')
      · exact Roster.mem_everyone.mpr (.inr (.inl (hq ▸ List.mem_cons_of_mem _ hs')))
      · exact Roster.mem_everyone.mpr (.inr (.inr hs'))
    · obtain ⟨-, hn, hhq, -, hqx⟩ := h.parts
      rw [hq, List.nodup_cons] at hn
      intro hs'
      rcases Roster.mem_everyone.mp hs' with hs' | hs' | hs'
      · exact hhq s hs' hmem
      · exact hn.1 hs'
      · exact hqx s hmem hs'
  · have hin : (w'.file s).In s .indexed :=
      Hub.mem_values.mpr ⟨(s.kind, s.id), Table.mem_entries_of_get? (by
        rw [file_hub, Table.get?_set, if_pos rfl])⟩
    rw [he]
    rcases register_cases hreg with ⟨ht, rfl⟩ | ⟨ht, hd, bus, hb, rfl⟩
    · rw [if_pos (show w.hub.topics.contains s.topic = true from ht)]
      exact ⟨hin, hlines _⟩
    · have ht' : ¬ w.hub.topics.contains s.topic = true := by
        rw [show w.hub.topics.contains s.topic = false from ht]
        simp
      rw [if_neg ht', show w.bus.subscribe s.topic = (.ok hd, bus) from hb]
      exact ⟨hin, hlines _⟩

/-- Of the subscriptions that wait only the first is touched by an installation; whether it comes
into the index is for its receiver and the bus to say. -/
theorem install_shows (h : w.Roster) (hp : w.In s p) (hl : w.lines.get? s.id = some l) :
    Shows (w.perform .install) s p l (w.turnChange s .install) := by
  cases hq : w.hub.installs with
  | nil =>
    have hw : w.perform .install = w := by simp only [perform, hq]
    simp only [turnChange, hq, List.head?_nil, reduceCtorEq, if_false, hw]
    exact ⟨hp, hl⟩
  | cons s₀ rest =>
    by_cases hs : s₀ = s
    · subst hs
      have hp' : w.In s₀ .queued := by
        show s₀ ∈ w.hub.installs
        rw [hq]
        exact List.mem_cons_self
      rw [h.place_unique hp hp']
      exact install_own h hq hl
    · obtain ⟨hheld, hissued, hrest, hindex, hlines⟩ := install_frame h hq
      have hmem : s₀ ∈ w.hub.installs := hq ▸ List.mem_cons_self
      have hid : s.id ≠ s₀.id := fun e =>
        hs (h.eq_of_in hp (Roster.mem_everyone.mpr (.inr (.inl hmem))) e.symm).1
      have hhead : ¬ w.hub.installs.head? = some s := by
        rw [hq, List.head?_cons, Option.some.injEq]
        exact hs
      have hsub := install_everyone h hq
      simp only [turnChange, if_neg hhead]
      refine ⟨?_, ?_⟩
      · cases p with
        | held =>
          show s ∈ (w.perform .install).held.values
          rw [hheld]
          exact hp
        | queued =>
          show s ∈ (w.perform .install).hub.installs
          rw [hrest]
          have hm : s ∈ s₀ :: rest := hq ▸ hp
          exact (List.mem_cons.mp hm).resolve_left fun e => hs e.symm
        | indexed =>
          show s ∈ (w.perform .install).hub.index.values
          rcases hindex with he | he
          · rw [he]
            exact hp
          · rw [he]
            exact List.mem_append_left _ hp
        | gone => exact hp.gone_kept hsub hissued
      · rw [hlines _ hid, hl]
        rfl

theorem remove_shows (h : w.Roster) (hp : w.In s p) (hl : w.lines.get? s.id = some l) :
    Shows (w.perform .remove) s p l (w.turnChange s .remove) := by
  simp only [perform, turnChange]
  split
  · rename_i hq
    simp only [hq, List.head?_nil, reduceCtorEq, false_and, if_false]
    exact ⟨hp, hl⟩
  · rename_i id rest hq
    have h₀ : Roster { w with hub.removals := rest } :=
      h.of_same ⟨rfl, rfl, rfl, rfl, rfl, rfl⟩ ⟨rfl, rfl, rfl, rfl⟩
    have hp₀ : In { w with hub.removals := rest } s p := hp.of_same ⟨rfl, rfl, rfl, rfl⟩ rfl
    have hrem := uninstall_removal (w := { w with hub.removals := rest })
      h.sound.consistent.ids_once id .unsubscribed
    obtain ⟨hin, hout⟩ := hrem.shows h₀ hp₀ hl
    have hcond : w.hub.removals.head? = some s.id ∧ s ∈ w.hub.index.values ↔
        p = .indexed ∧ s.id ∈ [id] := by
      rw [hq, List.head?_cons, Option.some.injEq, h.mem_values hp, List.mem_singleton, eq_comm,
        and_comm]
    split
    · rename_i hc
      exact hin (hcond.mp hc)
    · rename_i hc
      exact hout fun hc' => hc (hcond.mpr hc')

/-! ## Reading -/

/-- A subscription listens to a topic if it is installed and the topic is its own. -/
theorem Roster.mem_listeners_ids (h : w.Roster) (hp : w.In s p) (t : Topic) :
    s ∈ w.hub.listeners t ↔ p = .indexed ∧ s.id ∈ (w.hub.listeners t).map Subscription.id := by
  constructor
  · intro hm
    exact ⟨(h.mem_values hp).mp (Hub.mem_listeners.mp hm).1, List.mem_map.mpr ⟨s, hm, rfl⟩⟩
  · rintro ⟨-, hm⟩
    obtain ⟨s', hs', hid⟩ := List.mem_map.mp hm
    have hev : s' ∈ w.everyone :=
      Roster.mem_everyone.mpr (.inr (.inr (Hub.mem_listeners.mp hs').1))
    obtain ⟨rfl, -⟩ := h.eq_of_in hp hev hid
    exact hs'

theorem closeTopic_shows (h : w.Roster) (hp : w.In s p) (hl : w.lines.get? s.id = some l)
    (t : Topic) :
    Shows (w.closeTopic t) s p l
      (if s ∈ w.hub.listeners t then .ended (.topicClosed t) else .nothing) := by
  by_cases ht : w.hub.topics.contains t = true
  · have hrem := closeTopic_removal h.sound.consistent.ids_once ht
    obtain ⟨hin, hout⟩ := hrem.shows h hp hl
    split
    · rename_i hm
      exact hin ((h.mem_listeners_ids hp t).mp hm)
    · rename_i hm
      exact hout fun hc => hm ((h.mem_listeners_ids hp t).mpr hc)
  · have hnil : w.hub.listeners t = [] :=
      h.sound.consistent.listeners_eq_nil (by simpa using ht)
    have hw : w.closeTopic t = w := if_neg ht
    rw [hnil, hw, if_neg (List.not_mem_nil)]
    exact ⟨hp, hl⟩

/-- Giving an event out is to a subscription what it is to itself: those before and after it on the
topic change neither its place nor its line. -/
theorem fanOut_shows (h : w.Roster) (hp : w.In s p) (hl : w.lines.get? s.id = some l)
    (hk : l.kind = s.kind) (t : Topic) (e : Event) :
    Shows (w.fanOut t e.payload) s p l
      (if s ∈ w.hub.listeners t then
        if w.listens s.id then .heard e else .ended .closed
      else .nothing) := by
  have hc := h.sound.consistent
  have h₀ : (w.delivered t e.payload).Roster :=
    h.of_same (delivered_sameLoop w t e.payload) (delivered_sameIntake w t e.payload)
  have hp₀ : (w.delivered t e.payload).In s p :=
    hp.of_same (delivered_sameIntake w t e.payload) (delivered_sameLoop w t e.payload).index
  have hrem := fanOut_removal hc.ids_once t e.payload
  by_cases hm : s ∈ w.hub.listeners t
  · have hpx := ((h.mem_listeners_ids hp t).mp hm).1
    have hgone := mem_goneFrom hc e.payload hm
    have hline := delivered_lines_of_mem hc e.payload hm
    rw [if_pos hm]
    rcases outcome_cases e.payload hl hk with ⟨hr, ho⟩ | ⟨hr, n, hn, ho⟩ | ⟨hr, hn, ho⟩
    · have hlisten : ¬ w.listens s.id = true := by
        simp [listens, receiver?, hl, hr]
      rw [ho, hl] at hline
      rw [ho] at hgone
      rw [if_neg hlisten]
      exact (hrem.shows h₀ hp₀ hline).1 ⟨hpx, hgone.mpr rfl⟩
    · obtain ⟨r, hr'⟩ := Option.ne_none_iff_exists'.mp hr
      have hlisten : w.listens s.id = true := by
        simp [listens, receiver?, hl, hr']
      rw [ho] at hline hgone
      rw [if_pos hlisten]
      have hnot : ¬ (p = .indexed ∧ s.id ∈ w.goneFrom t e.payload) := by
        rw [hgone]
        rintro ⟨-, hg⟩
        cases hg
      have hnotice : Change.line s l (.heard e) = l.push n := by
        simp only [Change.line, Subscription.notice?, hn, Option.elim]
      have hshow := (hrem.shows h₀ hp₀ hline).2 hnot
      exact ⟨hshow.place, hnotice ▸ hshow.line⟩
    · obtain ⟨r, hr'⟩ := Option.ne_none_iff_exists'.mp hr
      have hlisten : w.listens s.id = true := by
        simp [listens, receiver?, hl, hr']
      rw [if_pos hlisten]
      have hline' : (w.delivered t e.payload).lines.get? s.id = some l := by
        rcases ho with ho | ho <;> rw [hline, ho, hl] <;> rfl
      have hnot : ¬ (p = .indexed ∧ s.id ∈ w.goneFrom t e.payload) := by
        rw [hgone]
        rintro ⟨-, hg⟩
        rcases ho with ho | ho <;> rw [ho] at hg <;> cases hg
      have hnotice : Change.line s l (.heard e) = l := by
        have hnone : s.notice? e = none := by
          unfold Subscription.notice?
          split
          · rename_i o ho'
            cases o with
            | none => rfl
            | some n => exact absurd ho' (hn n)
          · rfl
        simp only [Change.line, hnone, Option.elim]
      have hshow := (hrem.shows h₀ hp₀ hline').2 hnot
      exact ⟨hshow.place, hnotice.symm ▸ hshow.line⟩
  · have hid : s.id ∉ (w.hub.listeners t).map Subscription.id := h.not_mem_map hp
      (fun s' hs' => Roster.mem_everyone.mpr (.inr (.inr (Hub.mem_listeners.mp hs').1))) hm
    have hline := (delivered_lines_of_not_mem (w := w) e.payload hid).trans hl
    rw [if_neg hm]
    exact (hrem.shows h₀ hp₀ hline).2 fun hc => not_mem_goneFrom e.payload hid hc.2

theorem read_shows (h : w.Roster) (hp : w.In s p) (hl : w.lines.get? s.id = some l)
    (hk : l.kind = s.kind) (t : Topic) :
    Shows (w.perform (.read t)) s p l (w.turnChange s (.read t)) := by
  simp only [perform, turnChange, item?]
  cases hread : (w.hub.feeds.get? t).bind w.bus.read? with
  | none =>
    simp only [Option.map_none, ite_self]
    exact ⟨hp, hl⟩
  | some read =>
    obtain ⟨item, bus⟩ := read
    have h₀ : Roster { w with bus } := h.of_same (.refl _) ⟨rfl, rfl, rfl, rfl⟩
    have hp₀ : In { w with bus } s p := hp.of_same ⟨rfl, rfl, rfl, rfl⟩ rfl
    cases item with
    | lagged n =>
      simp only [Option.map_some, ite_self]
      exact ⟨hp₀, hl⟩
    | entry e => exact fanOut_shows h₀ hp₀ hl hk t e
    | ended => exact closeTopic_shows h₀ hp₀ hl t

theorem perform_shows (h : w.Roster) (hp : w.In s p) (hl : w.lines.get? s.id = some l)
    (hk : l.kind = s.kind) (t : Turn) : Shows (w.perform t) s p l (w.turnChange s t) := by
  cases t with
  | stop => exact shutdown_shows h hp hl
  | install => exact install_shows h hp hl
  | remove => exact remove_shows h hp hl
  | read topic => exact read_shows h hp hl hk topic

end World

end EventFanout
