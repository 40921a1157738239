/-
EventFanout.Proofs.Lifecycle.Stages — the line of a subscription is as its place demands.

A subscription that waits has nothing on its line, one that is installed has been told
so, and the line of one that is gone is closed. `Line.Fits` is this invariant; every
change keeps it (`Line.Fits.change`), and so does every action (`act_fits`).

What has just been made fits (`fits_new`), so everything that is not gone does, in every
world that a run comes to (`after_allFit`).
-/
import EventFanout.Proofs.Lifecycle.Calls

namespace EventFanout

/-- The line of a subscription is as the place of the subscription demands. -/
structure Line.Fits (l : Line) (s : Subscription) (p : World.Place) : Prop where
  kind : l.kind = s.kind
  honest : l.Honest
  /-- Before it is installed there is nothing on its line, and its client has read nothing. -/
  waiting : p = .held ∨ p = .queued → l.installed = false ∧ l.buffer.sent = [] ∧
    ∀ r, l.receiver = some r → r.next = 0
  listed : p = .indexed → l.installed = true
  unclosed : p ≠ .gone → l.isClosed = false ∧ l.reason = none
  closed : p = .gone → l.isClosed = true
  /-- It is told `closed` only when nobody is there to hear it. -/
  left : l.reason = some .closed → l.receiver = none

namespace Change

/-- What is known of the state before, for a change to happen in it. -/
def Fitting (p : World.Place) (l : Line) : Change → Prop
  | .nothing => True
  | .handedIn | .givenUp => p = .held
  | .installed => p = .queued
  | .heard _ => p = .indexed
  | .ended r => p ≠ .gone ∧ (r = .closed → l.receiver = none)

end Change

namespace Line

variable {l l' : Line} {s : Subscription} {p : World.Place}

/-- A line without an error that its client remembers may end for any reason. -/
theorem Honest.close (h : l.Honest) (hc : l.isClosed = false) (r : SubscriptionError) :
    (l.close r).Honest := by
  intro rc hrc e he
  obtain ⟨hclosed, -⟩ := h rc hrc e he
  rw [hc] at hclosed
  cases hclosed

theorem Honest.abandon (h : l.Honest) (hc : l.isClosed = false) : l.abandon.Honest := by
  intro rc hrc e he
  obtain ⟨hclosed, -⟩ := h rc hrc e he
  rw [hc] at hclosed
  cases hclosed

theorem Honest.push (h : l.Honest) (n : Notification) : (l.push n).Honest := h

theorem Fits.change (h : l.Fits s p) {c : Change} (hc : c.Fitting p l) :
    (c.line s l).Fits s (c.place p) := by
  cases c with
  | nothing => exact h
  | handedIn =>
    obtain rfl : p = .held := hc
    have hw := h.waiting (.inl rfl)
    have hu := h.unclosed (by simp)
    simp only [Change.line, Change.place]
    exact ⟨h.kind, h.honest, fun _ => hw, by simp, fun _ => hu, by simp, h.left⟩
  | givenUp =>
    obtain rfl : p = .held := hc
    have hopen := (h.unclosed (by simp)).1
    simp only [Change.line, Change.place]
    exact ⟨h.kind, h.honest.abandon hopen, by simp, by simp, fun hg => absurd rfl hg,
      fun _ => rfl, h.left⟩
  | installed =>
    obtain rfl : p = .queued := hc
    have hu := h.unclosed (by simp)
    simp only [Change.line, Change.place]
    exact ⟨h.kind, h.honest, by simp, fun _ => rfl, fun _ => hu, by simp, h.left⟩
  | heard e =>
    obtain rfl : p = .indexed := hc
    have hlisted := h.listed rfl
    have hu := h.unclosed (by simp)
    simp only [Change.line, Change.place]
    cases s.notice? e with
    | none => exact h
    | some n =>
      exact ⟨h.kind, h.honest.push n, by simp, fun _ => hlisted, fun _ => hu, by simp, h.left⟩
  | ended r =>
    obtain ⟨hp, hleft⟩ := hc
    have hopen := (h.unclosed hp).1
    simp only [Change.line, Change.place]
    refine ⟨h.kind, h.honest.close hopen r, by simp, by simp, fun hg => absurd rfl hg,
      fun _ => rfl, ?_⟩
    intro hr
    exact hleft (Option.some.inj hr)

/-! ## The client's calls -/

theorem receiverAfter_of_none (h : l.receiver = none) (id : SubscriptionId) (a : Action) :
    l.receiverAfter id a = none := by
  cases a <;> simp [receiverAfter, h]

/-- What an action is to a receiver that stays: a call on it, or nothing. -/
inductive Calls (l : Line) (id : SubscriptionId) (r : Receiver) : Action → Receiver → Prop where
  | askInstalled : Calls l id r (.askInstalled id) (l.askInstalled r).2
  | tryError : Calls l id r (.tryError id) (l.tryError r).2
  | receive : Calls l id r (.receive id) (l.receive r).2
  | nothing {a : Action} (hask : a ≠ .askInstalled id) (hreceive : a ≠ .receive id) :
    Calls l id r a r

/-- A receiver that is there after an action was there before it, and the action is a call on it or
nothing. -/
theorem calls_of_receiverAfter {id : SubscriptionId} {a : Action} {r' : Receiver}
    (h : l.receiverAfter id a = some r') : ∃ r, l.receiver = some r ∧ l.Calls id r a r' := by
  cases a with
  | askInstalled id' =>
    simp only [receiverAfter] at h
    split at h
    · rename_i hid
      subst hid
      obtain ⟨r, hr, rfl⟩ := Option.map_eq_some_iff.mp h
      exact ⟨r, hr, .askInstalled⟩
    · exact ⟨r', h, .nothing (by simpa) (by simp)⟩
  | tryError id' =>
    simp only [receiverAfter] at h
    split at h
    · rename_i hid
      subst hid
      obtain ⟨r, hr, rfl⟩ := Option.map_eq_some_iff.mp h
      exact ⟨r, hr, .tryError⟩
    · exact ⟨r', h, .nothing (by simp) (by simp)⟩
  | receive id' =>
    simp only [receiverAfter] at h
    split at h
    · rename_i hid
      subst hid
      obtain ⟨r, hr, rfl⟩ := Option.map_eq_some_iff.mp h
      exact ⟨r, hr, .receive⟩
    · exact ⟨r', h, .nothing (by simp) (by simpa)⟩
  | dropReceiver id' =>
    simp only [receiverAfter] at h
    split at h
    · cases h
    · exact ⟨r', h, .nothing (by simp) (by simp)⟩
  | _ => exact ⟨r', h, .nothing (by simp) (by simp)⟩

theorem Honest.called (h : l.Honest) (id : SubscriptionId) (a : Action) :
    (l.called id a).Honest := by
  intro r' hr'
  show l.Trusts r'
  obtain ⟨r, hr, hcall⟩ := calls_of_receiverAfter hr'
  have ht := h r hr
  cases hcall with
  | askInstalled => exact ht.askInstalled.1
  | tryError => exact ht.tryError.1
  | receive => exact ht.receive.1
  | nothing => exact ht

/-- The client is where it was, unless it has received. -/
theorem receiverAfter_cases {id : SubscriptionId} {a : Action} {r' : Receiver}
    (h : l.receiverAfter id a = some r') :
    ∃ r, l.receiver = some r ∧ ((a ≠ .receive id ∧ r'.next = r.next) ∨
      (a = .receive id ∧ r' = (l.receive r).2)) := by
  obtain ⟨r, hr, hcall⟩ := calls_of_receiverAfter h
  refine ⟨r, hr, ?_⟩
  cases hcall with
  | askInstalled =>
    obtain ⟨_, _, he, -⟩ := l.askInstalled_receiver r
    exact .inl ⟨by simp, by rw [he]⟩
  | tryError =>
    obtain ⟨_, he, -⟩ := l.tryError_receiver r
    exact .inl ⟨by simp, by rw [he]⟩
  | receive => exact .inr ⟨rfl, rfl⟩
  | nothing _ hreceive => exact .inl ⟨hreceive, rfl⟩

/-- Nothing can be received where nothing has been sent. -/
theorem next_called (hs : l.buffer.sent = []) (hn : ∀ r, l.receiver = some r → r.next = 0)
    (id : SubscriptionId) (a : Action) : ∀ r, (l.called id a).receiver = some r → r.next = 0 := by
  intro r' hr'
  have hsize : l.buffer.size = 0 := by
    rw [← Channel.length_sent, hs]
    rfl
  have hold : l.buffer.oldest = 0 := by
    rw [Channel.oldest, hsize, Nat.zero_sub]
  obtain ⟨r, hr, hcase⟩ := receiverAfter_cases hr'
  rcases hcase with ⟨-, he⟩ | ⟨-, rfl⟩
  · rw [he, hn r hr]
  · have hmoves := l.receive_moves r
    rw [hn r hr] at hmoves
    generalize (l.receive r).2.next = next at hmoves ⊢
    generalize l.taken r = taken at hmoves
    cases hmoves with
    | stays => rfl
    | skips => rw [hold, Nat.max_self]
    | reads ha =>
      rw [hs] at ha
      cases ha

theorem Fits.called (h : l.Fits s p) (id : SubscriptionId) (a : Action) :
    (l.called id a).Fits s p := by
  refine ⟨h.kind, h.honest.called id a, fun hp => ?_, h.listed, h.unclosed, h.closed,
    fun hr => receiverAfter_of_none (h.left hr) id a⟩
  obtain ⟨hi, hs, hn⟩ := h.waiting hp
  exact ⟨hi, hs, next_called hs hn id a⟩

end Line

namespace World

variable {w : World} {s : Subscription} {p : Place} {l : Line}

/-- A step of the hub finds what it needs for the change it is. -/
theorem turnChange_fitting (h : w.Roster) (hp : w.In s p) (hl : w.lines.get? s.id = some l)
    (t : Turn) : (w.turnChange s t).Fitting p l := by
  cases t with
  | stop =>
    simp only [turnChange]
    split
    · rename_i hm
      refine ⟨fun hg => ?_, by simp⟩
      subst hg
      rcases hm with hm | hm
      · cases h.place_unique (q := .queued) hp hm
      · cases h.place_unique (q := .indexed) hp hm
    · trivial
  | install =>
    simp only [turnChange]
    split
    · rename_i hq
      have hm : w.In s .queued := List.mem_of_head? hq
      obtain rfl := h.place_unique hp hm
      split
      · exact rfl
      · split
        · exact rfl
        · exact ⟨by simp, by simp⟩
    · trivial
  | remove =>
    simp only [turnChange]
    split
    · rename_i hm
      obtain rfl := (h.mem_values hp).mp hm.2
      exact ⟨by simp, by simp⟩
    · trivial
  | read topic =>
    simp only [turnChange]
    split
    · rename_i hm
      obtain rfl := (h.mem_values hp).mp (Hub.mem_listeners.mp hm).1
      split
      · split
        · exact rfl
        · rename_i hlisten
          refine ⟨by simp, fun _ => ?_⟩
          cases hr : l.receiver with
          | none => rfl
          | some r => simp [listens, receiver?, hl, hr] at hlisten
      · exact ⟨by simp, by simp⟩
      · trivial
    · trivial

/-- Every change finds what it needs. -/
theorem change_fitting (h : w.Roster) (hp : w.In s p) (hl : w.lines.get? s.id = some l)
    (a : Action) : (w.change s a).Fitting p l := by
  have hheld : ∀ {id : SubscriptionId}, id = s.id ∧ s ∈ w.held.values → p = .held :=
    fun hc => h.place_unique hp hc.2
  cases a with
  | submit id =>
    simp only [change]
    split
    · rename_i hc
      have hp' := hheld hc
      subst hp'
      split
      · exact ⟨by simp, by simp⟩
      · split
        · exact rfl
        · exact ⟨by simp, by simp⟩
    · trivial
  | discard id =>
    simp only [change]
    split
    · rename_i hc
      exact hheld hc
    · trivial
  | turn t =>
    simp only [change]
    split
    · exact turnChange_fitting h hp hl t
    · trivial
  | _ => trivial

/-- An action changes the line as it changes the subscription, and the line fits again. -/
theorem act_fits (h : w.Roster) (hp : w.In s p) (hl : w.lines.get? s.id = some l)
    (hf : l.Fits s p) (a : Action) :
    (w.act a).In s ((w.change s a).place p) ∧
      (w.act a).lines.get? s.id = some (((w.change s a).line s l).called s.id a) ∧
      (((w.change s a).line s l).called s.id a).Fits s ((w.change s a).place p) := by
  obtain ⟨hplace, hline⟩ := act_shows h hp hl hf.kind a
  exact ⟨hplace, hline, (hf.change (change_fitting h hp hl a)).called s.id a⟩

/-! ## Everyone -/

/-- A step of the hub adds nobody. -/
theorem perform_everyone (h : w.Roster) (t : Turn) : (w.perform t).everyone ⊆ w.everyone := by
  have hn := h.sound.consistent.ids_once
  cases t with
  | stop => exact shutdown_everyone w
  | install =>
    cases hq : w.hub.installs with
    | nil =>
      have hw : w.perform .install = w := by simp only [perform, hq]
      rw [hw]
      exact List.Subset.refl _
    | cons s₀ rest => exact install_everyone h hq
  | remove =>
    simp only [perform]
    split
    · exact List.Subset.refl _
    · rename_i id rest _
      exact (uninstall_removal (w := { w with hub.removals := rest }) hn id _).everyone_subset
  | read topic =>
    simp only [perform]
    split
    · exact List.Subset.refl _
    · rename_i item bus _
      cases item with
      | lagged n => exact List.Subset.refl _
      | entry e => exact fanOut_everyone (w := { w with bus }) hn topic e.payload
      | ended =>
        by_cases ht : w.hub.topics.contains topic = true
        · exact (closeTopic_removal (w := { w with bus }) hn ht).everyone_subset
        · have he : closeTopic { w with bus } topic = { w with bus } := if_neg ht
          show (closeTopic { w with bus } topic).everyone ⊆ w.everyone
          rw [he]
          exact List.Subset.refl _

/-- Whoever is on the list after one was made was on it before, or is the one. -/
theorem made_everyone (h : w.Roster) {s₀ : Subscription} (hid : s₀.id = .issued w.issued)
    {buffer : Nat} {attached : Bool} (hs : s ∈ (w.made s₀ buffer attached).everyone) :
    s ∈ w.everyone ∨ s₀ = s := by
  rcases List.mem_cons.mp ((h.everyone_made hid buffer attached).mem_iff.mp hs) with rfl | hs
  · exact .inr rfl
  · exact .inl hs

/-- The one that was made is held, with a new line. -/
theorem made_new (h : w.Roster) (hid : s.id = .issued w.issued) (buffer : Nat) (attached : Bool) :
    s ∈ (w.made s buffer attached).held.values ∧
      (w.made s buffer attached).lines.get? s.id = some (.new s.kind buffer attached) := by
  constructor
  · show s ∈ (w.held.set s.id s).values
    rw [h.values_made hid]
    exact List.mem_append_right _ (List.mem_singleton_self s)
  · show (w.lines.set s.id _).get? s.id = some _
    rw [Table.get?_set, if_pos rfl]

theorem idle_everyone {a : Action} (hs : s ∈ (w.act a).everyone) (ha : a.movesNobody = true) :
    s ∈ w.everyone := by
  have hx : (w.act a).hub.index = w.hub.index := by
    refine (act_sameLoop w ?_).index
    rintro t rfl
    cases ha
  rwa [everyone_of_same (act_intake w ha) hx] at hs

end World

def Action.makesNobody : Action → Bool
  | .make .. | .makeWithin .. => false
  | _ => true

namespace World

variable {w : World} {s : Subscription}

/-- Nobody comes onto the list who is not made. -/
theorem kept_everyone (h : w.Roster) {a : Action} (ha : a.makesNobody = true) :
    (w.act a).everyone ⊆ w.everyone := by
  intro s hs
  cases a with
  | make kind criteria topic buffer => cases ha
  | makeWithin kind criteria => cases ha
  | submit id =>
    simp only [act] at hs
    split at hs
    · rename_i s₀ hget
      obtain ⟨rfl, hs₀⟩ := h.id_of_held hget
      rcases submit_cases w s₀ with ⟨_, _, he⟩ | ⟨_, he⟩ | ⟨_, _, he⟩ <;> rw [he] at hs
      · exact h.everyone_unheld hs hs₀ rfl (.inr rfl) rfl
      · exact h.everyone_unheld hs hs₀ rfl (.inl rfl) rfl
      · exact h.everyone_unheld hs hs₀ rfl (.inl rfl) rfl
    · exact hs
  | discard id =>
    rcases discard_cases w id with ⟨_, he⟩ | ⟨hc, he⟩ <;> simp only [act, he] at hs
    · exact hs
    · obtain ⟨s₀, hget⟩ := Option.isSome_iff_exists.mp hc
      obtain ⟨rfl, hs₀⟩ := h.id_of_held hget
      exact h.everyone_unheld hs hs₀ rfl (.inl rfl) rfl
  | turn t =>
    simp only [act] at hs
    split at hs
    · exact perform_everyone h t hs
    · exact hs
  | _ => exact idle_everyone hs rfl

/-- Whoever is on the list after an action was on it before, or has just been made. -/
theorem act_everyone (h : w.Roster) (a : Action) (hs : s ∈ (w.act a).everyone) :
    s ∈ w.everyone ∨ (s ∈ (w.act a).held.values ∧ ∃ buffer attached,
      (w.act a).lines.get? s.id = some (.new s.kind buffer attached)) := by
  cases a with
  | make kind criteria topic buffer =>
    rcases make_cases w kind criteria topic buffer with he | ⟨s₀, hid, he⟩
    · exact .inl (he ▸ hs)
    · rw [he] at hs ⊢
      refine (made_everyone h hid hs).imp_right ?_
      rintro rfl
      obtain ⟨hheld, hl⟩ := made_new h hid buffer false
      exact ⟨hheld, _, _, hl⟩
  | makeWithin kind criteria =>
    rcases makeWithin_cases w kind criteria with he | ⟨s₀, buffer, hid, he⟩
    · exact .inl (he ▸ hs)
    · rw [he] at hs ⊢
      refine (made_everyone h hid hs).imp_right ?_
      rintro rfl
      obtain ⟨hheld, hl⟩ := made_new h hid buffer true
      exact ⟨hheld, _, _, hl⟩
  | _ => exact .inl (kept_everyone h rfl hs)

def AllFit (w : World) : Prop :=
  ∀ s p, p ≠ .gone → w.In s p → ∃ l, w.lines.get? s.id = some l ∧ l.Fits s p

theorem fits_new (s : Subscription) (buffer : Nat) (attached : Bool) :
    (Line.new s.kind buffer attached).Fits s .held where
  kind := rfl
  honest := by
    intro r hr e he
    cases hr
    cases he
  waiting := by
    refine fun _ => ⟨rfl, rfl, fun r hr => ?_⟩
    cases hr
    rfl
  listed := by simp
  unclosed := fun _ => ⟨rfl, rfl⟩
  closed := by simp
  left := by simp [Line.new]

theorem act_allFit (h : w.Roster) (hw : w.AllFit) (a : Action) : (w.act a).AllFit := by
  intro s p hp hs
  have hroster := act_roster h a
  rcases act_everyone h a (Roster.mem_of_in hp hs) with hold | ⟨hheld, buffer, attached, hl⟩
  · obtain ⟨p₀, hp₀, hs₀⟩ := Roster.in_of_mem hold
    obtain ⟨l, hl, hf⟩ := hw s p₀ hp₀ hs₀
    obtain ⟨hp', hl', hf'⟩ := act_fits h hs₀ hl hf a
    have hsame := hroster.place_unique hp' hs
    exact ⟨_, hl', hsame ▸ hf'⟩
  · obtain rfl := hroster.place_unique (q := .held) hs hheld
    exact ⟨_, hl, fits_new s buffer attached⟩

theorem after_allFit (h : w.Roster) (hw : w.AllFit) (run : List Action) : (w.after run).AllFit := by
  induction run generalizing w with
  | nil => exact hw
  | cons a rest ih => exact ih (act_roster h a) (act_allFit h hw a)

/-- Where a run starts there is nobody whose line could fail to fit. -/
theorem start_allFit (bus : Bus) (config : Config) (governor : Governor) :
    (start bus config governor).AllFit := by
  intro s p hp hs
  exact absurd (Roster.mem_of_in hp hs) (by simp [everyone, start, Table.values])

end World

end EventFanout
