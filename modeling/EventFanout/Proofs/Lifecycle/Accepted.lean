/-
EventFanout.Proofs.Lifecycle.Accepted — the life of a subscription that a hub took in.

It waits, is installed, ends: in this order, perhaps without being installed, and for
good. Its signals tell so. The signal of its installation is given when it is
installed and never taken back; the error is set when it ends, once, and names the cause.

Main statement: `lifecycle_of_accepted`, over every run that follows the moment when the
hub took the subscription in.
-/
import EventFanout.Proofs.Lifecycle.Stages
import Mathlib.Data.List.Induction

namespace EventFanout.World

variable {w : World} {s : Subscription} {p : Place} {l : Line}

/-! ## Causes -/

/-- The cause that each reason stands for, where it takes effect. -/
inductive EndsBy (w : World) (s : Subscription) : Action → SubscriptionError → Prop
  /-- It is the first that waits, nobody is registered on its topic yet, and the bus refuses. -/
  | refused {e : BusError} : w.hub.running = true → w.hub.installs.head? = some s →
      w.hub.topics.contains s.topic = false → (w.bus.subscribe s.topic).1 = .error e →
      EndsBy w s (.turn .install) (.registrationFailed e)
  /-- Its removal has been asked for. -/
  | cancelled : w.hub.running = true → w.hub.removals.head? = some s.id →
      s ∈ w.hub.index.values → EndsBy w s (.turn .remove) .unsubscribed
  /-- The bus has ended the channel that its topic is read from. -/
  | topicEnded : w.hub.running = true → s ∈ w.hub.index.values →
      w.item? s.topic = some .ended →
      EndsBy w s (.turn (.read s.topic)) (.topicClosed s.topic)
  /-- An event arrives and its receiver has been given up. -/
  | left {e : Event} : w.hub.running = true → s ∈ w.hub.index.values →
      w.item? s.topic = some (.entry e) → w.listens s.id = false →
      EndsBy w s (.turn (.read s.topic)) .closed
  /-- The hub stops, while it waits or is installed. -/
  | stopped : w.hub.running = true → s ∈ w.hub.installs ∨ s ∈ w.hub.index.values →
      EndsBy w s (.turn .stop) .shutdown

theorem EndsBy.change {a : Action} {r : SubscriptionError} (h : w.EndsBy s a r) :
    w.change s a = .ended r := by
  cases h with
  | refused hr hq ht hb => simp [World.change, turnChange, hr, hq, ht, hb]
  | cancelled hr hq hx => simp [World.change, turnChange, hr, hq, hx]
  | topicEnded hr hx hi =>
    have hm : s ∈ w.hub.listeners s.topic := Hub.mem_listeners.mpr ⟨hx, rfl⟩
    simp [World.change, turnChange, hr, hm, hi]
  | left hr hx hi hlisten =>
    have hm : s ∈ w.hub.listeners s.topic := Hub.mem_listeners.mpr ⟨hx, rfl⟩
    simp [World.change, turnChange, hr, hm, hi, hlisten]
  | stopped hr hm => simp only [World.change, turnChange, if_pos hr, if_pos hm]

/-- The hub gives a reason for an end only where the cause that it names is there. -/
theorem endsBy_of_turnChange (hr : w.hub.running = true) {t : Turn} {r : SubscriptionError}
    (h : w.turnChange s t = .ended r) : w.EndsBy s (.turn t) r := by
  cases t with
  | stop =>
    simp only [turnChange] at h
    split at h
    · rename_i hm
      cases h
      exact .stopped hr hm
    · cases h
  | install =>
    simp only [turnChange] at h
    split at h
    · rename_i hq
      split at h
      · cases h
      · rename_i ht
        split at h
        · cases h
        · rename_i hb
          cases h
          exact .refused hr hq (by simpa using ht) hb
    · cases h
  | remove =>
    simp only [turnChange] at h
    split at h
    · rename_i hm
      cases h
      exact .cancelled hr hm.1 hm.2
    · cases h
  | read topic =>
    simp only [turnChange] at h
    split at h
    · rename_i hm
      obtain ⟨hx, rfl⟩ := Hub.mem_listeners.mp hm
      split at h
      · rename_i hi
        split at h
        · cases h
        · rename_i hlisten
          cases h
          exact .left hr hx hi (by simpa using hlisten)
      · rename_i hi
        cases h
        exact .topicEnded hr hx hi
      · cases h
    · cases h

/-- A subscription that is not held any more ends for the reason whose cause is there. -/
theorem endsBy_of_change (hheld : s ∉ w.held.values) {a : Action} {r : SubscriptionError}
    (h : w.change s a = .ended r) : w.EndsBy s a r := by
  cases a with
  | submit id =>
    simp only [World.change, if_neg fun hc : id = s.id ∧ s ∈ w.held.values => hheld hc.2] at h
    cases h
  | discard id =>
    simp only [World.change, if_neg fun hc : id = s.id ∧ s ∈ w.held.values => hheld hc.2] at h
    cases h
  | turn t =>
    simp only [World.change] at h
    split at h
    · rename_i hr
      exact endsBy_of_turnChange hr h
    · cases h
  | _ => cases h

/-! ## What the client is told -/

/-- A client that asks for its error, for a notification or for its installation is told it. -/
def Told (w : World) (id : SubscriptionId) (e : SubscriptionError) : Prop :=
  (∃ w', w.tryError id = some (some e, w')) ∨ (∃ w', w.receive id = some (.failed e, w')) ∨
    ∃ w', w.askInstalled id = some (.failed e, w')

/-- Who is told an error has a receiver, and the error is how the line has ended. -/
theorem Told.ending {e : SubscriptionError} (h : w.Told s.id e)
    (hl : w.lines.get? s.id = some l) (hh : l.Honest) :
    l.receiver ≠ none ∧ l.isClosed = true ∧ e = l.ending := by
  have hline : ∀ l₀ r, w.receiver? s.id = some (l₀, r) → l₀ = l ∧ l.receiver = some r := by
    intro l₀ r hr
    obtain ⟨hl₀, hr⟩ := receiver?_eq_some.mp hr
    rw [hl] at hl₀
    cases hl₀
    exact ⟨rfl, hr⟩
  cases hr : w.receiver? s.id with
  | none =>
    rcases h with ⟨w', h⟩ | ⟨w', h⟩ | ⟨w', h⟩
    · simp [tryError, hr] at h
    · simp [World.receive, hr] at h
    · simp [World.askInstalled, hr] at h
  | some pair =>
    obtain ⟨l₀, r⟩ := pair
    obtain ⟨rfl, hr'⟩ := hline l₀ r hr
    have ht := hh r hr'
    have hsome : l₀.receiver ≠ none := by
      rw [hr']
      simp
    rcases h with ⟨w', h⟩ | ⟨w', h⟩ | ⟨w', h⟩
    · simp only [tryError, hr, bind, Option.bind, pure, Option.some.injEq, Prod.mk.injEq] at h
      exact ⟨hsome, ht.tryError.2 e h.1⟩
    · simp only [World.receive, hr, bind, Option.bind, pure, Option.some.injEq, Prod.mk.injEq] at h
      exact ⟨hsome, ht.receive.2 e h.1⟩
    · simp only [World.askInstalled, hr, bind, Option.bind, pure, Option.some.injEq,
        Prod.mk.injEq] at h
      exact ⟨hsome, ht.askInstalled.2 e h.1⟩

/-! ## The life of a subscription -/

/-- How far along a place is. -/
def Place.rank : Place → Nat
  | .held => 0
  | .queued => 1
  | .indexed => 2
  | .gone => 3

def Accepts (w : World) (s : Subscription) : Prop :=
  w.held.get? s.id = some s ∧ (w.submit s).1 = .ok ()

/-- What an action may do to a subscription that has been taken in, and to its line. -/
structure Advance (w : World) (s : Subscription) (a : Action) (p : Place) (l : Line) (p' : Place)
    (l' : Line) : Prop where
  place : (w.act a).In s p'
  line : (w.act a).lines.get? s.id = some l'
  /-- At most one notification comes, and only while it is installed and has been told so. -/
  notified : l'.buffer.sent = l.buffer.sent ∨
    (p = .indexed ∧ p' = .indexed ∧ l.installed = true ∧
      ∃ n, l'.buffer.sent = l.buffer.sent ++ [n])
  /-- What has ended stays so, and its error is never set again. -/
  final : p = .gone → p' = .gone ∧ l'.reason = l.reason
  /-- The error is set for the cause that it names. -/
  cause : p ≠ .gone → ∀ r, l'.reason = some r ↔ w.EndsBy s a r

structure Lifecycle (w₁ : World) (s : Subscription) (run : List Action) (p : Place) (l : Line) :
    Prop where
  place : (w₁.after run).In s p
  line : (w₁.after run).lines.get? s.id = some l
  /-- It waits, is installed or is gone, and only one of these. -/
  stage : p ≠ .held ∧ ∀ q, (w₁.after run).In s q → q = p
  /-- It has never been further along than it is. -/
  forward : ∀ earlier q, earlier <+: run → (w₁.after earlier).In s q → q.rank ≤ p.rank
  /-- The signal tells whether it has ever been installed. -/
  installed : l.installed = true ↔ ∃ earlier, earlier <+: run ∧ (w₁.after earlier).In s .indexed
  /-- The error tells whether it has ended. -/
  ended : l.reason.isSome = true ↔ p = .gone
  /-- Where nothing waits, it has been installed or has ended, and its signals tell so. -/
  decided : (w₁.after run).hub.installs = [] →
    (p = .indexed ∧ l.installed = true) ∨ (p = .gone ∧ l.reason.isSome = true)
  /-- The error `closed` is only for those who cannot see it. -/
  left : l.reason = some .closed → l.receiver = none
  told : ∀ e, (w₁.after run).Told s.id e → l.reason = some e ∧ e ≠ .closed
  next : ∀ a, ∃ p' l', Advance (w₁.after run) s a p l p' l'

/-! ## One action -/

/-- What an action does to a subscription that is not held any more. -/
theorem advance (h : w.Roster) (hp : w.In s p) (hl : w.lines.get? s.id = some l)
    (hf : l.Fits s p) (hheld : p ≠ .held) (a : Action) :
    ∃ p' l', Advance w s a p l p' l' ∧ l'.Fits s p' ∧ p' ≠ .held ∧ p.rank ≤ p'.rank ∧
      (l'.installed = true ↔ l.installed = true ∨ p' = .indexed) ∧
      (p' = .gone → p = .gone ∨ l'.reason.isSome = true) := by
  have hfit := change_fitting h hp hl a
  obtain ⟨hp', hl', hf'⟩ := act_fits h hp hl hf a
  have hnot : s ∉ w.held.values := fun hs => hheld (h.place_unique (q := .held) hp hs)
  have hends : ∀ r, w.EndsBy s a r ↔ w.change s a = .ended r :=
    fun r => ⟨EndsBy.change, endsBy_of_change hnot⟩
  -- while it goes on, its error is not set, and there is no cause to set it
  have hkeep : ∀ c, w.change s a = c → (∀ r, c ≠ .ended r) → (c.line s l).reason = l.reason →
      p ≠ .gone → ∀ r, (c.line s l).reason = some r ↔ w.EndsBy s a r := by
    intro c hc hne hr hg r
    rw [hends, hc, hr, (hf.unclosed hg).2]
    exact ⟨by simp, fun he => absurd he (hne r)⟩
  cases hc : w.change s a with
  | nothing =>
    rw [hc] at hp' hl' hf'
    exact ⟨p, _, ⟨hp', hl', .inl rfl, fun hg => ⟨hg, rfl⟩, hkeep _ hc (by simp) rfl⟩, hf', hheld,
      Nat.le_refl _, ⟨.inl, fun hi => hi.elim id hf.listed⟩, .inl⟩
  | handedIn =>
    rw [hc] at hfit
    exact absurd hfit hheld
  | givenUp =>
    rw [hc] at hfit
    exact absurd hfit hheld
  | installed =>
    rw [hc] at hp' hl' hf' hfit
    obtain rfl : p = .queued := hfit
    exact ⟨.indexed, _, ⟨hp', hl', .inl rfl, by simp, hkeep _ hc (by simp) rfl⟩, hf', by simp, by decide,
      ⟨fun _ => .inr rfl, fun _ => rfl⟩, by simp⟩
  | heard e =>
    rw [hc] at hp' hl' hf' hfit
    obtain rfl : p = .indexed := hfit
    have hinst := hf.listed rfl
    have hmore : (Change.line s l (.heard e)).buffer.sent = l.buffer.sent ∨
        ∃ n, (Change.line s l (.heard e)).buffer.sent = l.buffer.sent ++ [n] := by
      simp only [Change.line]
      cases s.notice? e with
      | none => exact .inl rfl
      | some n => exact .inr ⟨n, Channel.sent_push l.buffer n⟩
    have hreason : (Change.line s l (.heard e)).reason = l.reason := by
      simp only [Change.line]
      cases s.notice? e <;> rfl
    exact ⟨.indexed, _, ⟨hp', hl', hmore.imp_right fun hn => ⟨rfl, rfl, hinst, hn⟩, by simp,
      hkeep _ hc (by simp) hreason⟩, hf', by simp, Nat.le_refl _,
      ⟨fun _ => .inr rfl, fun _ => hf'.listed rfl⟩, by simp⟩
  | ended r =>
    rw [hc] at hp' hl' hf' hfit
    refine ⟨.gone, _, ⟨hp', hl', .inl rfl, fun hg => absurd hg hfit.1, ?_⟩, hf', by simp, ?_,
      ⟨.inl, fun hi => hi.elim id (by simp)⟩, fun _ => .inr rfl⟩
    · intro _ r'
      rw [hends, hc, show (((Change.ended r).line s l).called s.id a).reason = some r from rfl,
        Option.some.injEq, Change.ended.injEq]
    · cases p <;> decide

/-! ## Runs -/

/-- The part of a life that an induction over the run goes by. -/
structure Standing (w₁ : World) (s : Subscription) (run : List Action) (p : Place) (l : Line) :
    Prop where
  place : (w₁.after run).In s p
  line : (w₁.after run).lines.get? s.id = some l
  fits : l.Fits s p
  taken : p ≠ .held
  ended : p = .gone → l.reason.isSome = true
  forward : ∀ earlier q, earlier <+: run → (w₁.after earlier).In s q → q.rank ≤ p.rank
  installed : l.installed = true ↔ ∃ earlier, earlier <+: run ∧ (w₁.after earlier).In s .indexed

/-- By induction on the run, over the change that each action is to the subscription. -/
theorem standing (h : w.Roster) (hq : w.In s .queued) (hl : w.lines.get? s.id = some l)
    (hf : l.Fits s .queued) (run : List Action) : ∃ p l, Standing w s run p l := by
  induction run using List.reverseRecOn with
  | nil =>
    refine ⟨.queued, l, hq, hl, hf, by simp, by simp, ?_, ?_⟩
    · intro earlier q hpre hin
      rw [List.prefix_nil] at hpre
      subst hpre
      exact Nat.le_of_eq (congrArg Place.rank (h.place_unique hin hq))
    · rw [(hf.waiting (.inr rfl)).1]
      refine ⟨by simp, ?_⟩
      rintro ⟨earlier, hpre, hin⟩
      rw [List.prefix_nil] at hpre
      subst hpre
      cases h.place_unique hin hq
  | append_singleton run a ih =>
    obtain ⟨p, l, hs⟩ := ih
    have hroster := after_roster h run
    obtain ⟨p', l', hadv, hf', htaken, hrank, hinst, hgone⟩ :=
      advance hroster hs.place hs.line hs.fits hs.taken a
    have hlast : (w.after (run ++ [a])).In s p' := by
      rw [after_concat]
      exact hadv.place
    have hroster' : (w.after (run ++ [a])).Roster := after_roster h _
    refine ⟨p', l', hlast, ?_, hf', htaken, ?_, ?_, ?_⟩
    · rw [after_concat]
      exact hadv.line
    · intro hg
      rcases hgone hg with hp | hr
      · rw [(hadv.final hp).2]
        exact hs.ended hp
      · exact hr
    · intro earlier q hpre hin
      rcases List.prefix_concat_iff.mp hpre with rfl | hpre
      · exact Nat.le_of_eq (congrArg Place.rank (hroster'.place_unique hin hlast))
      · exact Nat.le_trans (hs.forward earlier q hpre hin) hrank
    · rw [hinst, hs.installed]
      constructor
      · rintro (⟨earlier, hpre, hin⟩ | rfl)
        · exact ⟨earlier, hpre.trans (List.prefix_append run [a]), hin⟩
        · exact ⟨run ++ [a], List.prefix_refl _, hlast⟩
      · rintro ⟨earlier, hpre, hin⟩
        rcases List.prefix_concat_iff.mp hpre with rfl | hpre
        · exact .inr (hroster'.place_unique hlast hin)
        · exact .inl ⟨earlier, hpre, hin⟩

/-- A subscription that has been taken in waits, with a line that fits. -/
theorem accepted_queued (h : w.Roster) (hw : w.AllFit) (hs : w.Accepts s) :
    ∃ l, (w.act (.submit s.id)).In s .queued ∧
      (w.act (.submit s.id)).lines.get? s.id = some l ∧ l.Fits s .queued := by
  obtain ⟨hget, hok⟩ := hs
  have hmem := (h.id_of_held hget).2
  obtain ⟨l, hl, hf⟩ := hw s .held (by simp) hmem
  have hchange : w.change s (.submit s.id) = .handedIn := by
    rcases submit_cases w s with ⟨hadm, hr, -⟩ | ⟨_, he⟩ | ⟨_, _, he⟩
    · simp only [change, if_pos hmem, hadm, if_pos hr, if_neg Bool.false_ne_true, true_and]
    · rw [he] at hok
      cases hok
    · rw [he] at hok
      cases hok
  obtain ⟨hp, hl', hf'⟩ := act_fits (p := .held) h hmem hl hf (.submit s.id)
  rw [hchange] at hp hl' hf'
  exact ⟨_, hp, hl', hf'⟩

/--
**The life of a subscription.** Once a hub has taken a subscription in, it stands in every later
state of every run as `Lifecycle` says: it waits, is installed or is gone, and only moves forward; its
signals tell which and why, once; and its line carries what came while it was installed.
-/
theorem lifecycle_of_accepted {bus : Bus} {config : Config} {governor : Governor}
    {before : List Action} {s : Subscription}
    (h : ((start bus config governor).after before).Accepts s) (run : List Action) :
    ∃ p l, Lifecycle (((start bus config governor).after before).act (.submit s.id)) s run p l := by
  have hstart := start_roster bus config governor
  have hroster := after_roster hstart before
  have hfit := after_allFit hstart (start_allFit bus config governor) before
  have hroster₁ := act_roster hroster (.submit s.id)
  obtain ⟨l₁, hq, hl₁, hf₁⟩ := accepted_queued hroster hfit h
  obtain ⟨p, l, hs⟩ := standing hroster₁ hq hl₁ hf₁ run
  have hroster₂ := after_roster hroster₁ run
  have hended : l.reason.isSome = true ↔ p = .gone := by
    refine ⟨fun hr => ?_, hs.ended⟩
    by_contra hg
    rw [(hs.fits.unclosed hg).2] at hr
    cases hr
  refine ⟨p, l, hs.place, hs.line, ⟨hs.taken, fun q hq => hroster₂.place_unique hq hs.place⟩,
    hs.forward, hs.installed, hended, ?_, hs.fits.left, ?_, ?_⟩
  · intro hnone
    cases p with
    | held => exact absurd rfl hs.taken
    | queued =>
      have hm : s ∈ _ := hs.place
      rw [hnone] at hm
      cases hm
    | indexed => exact .inl ⟨rfl, hs.fits.listed rfl⟩
    | gone => exact .inr ⟨rfl, hs.ended rfl⟩
  · intro e htold
    obtain ⟨hlisten, hclosed, he⟩ := htold.ending hs.line hs.fits.honest
    have hgone : p = .gone := by
      by_contra hg
      rw [(hs.fits.unclosed hg).1] at hclosed
      cases hclosed
    obtain ⟨r, hr⟩ := Option.isSome_iff_exists.mp (hs.ended hgone)
    have her : e = r := by
      rw [he, Line.ending, hr]
      rfl
    subst her
    refine ⟨hr, ?_⟩
    rintro rfl
    exact hlisten (hs.fits.left hr)
  · intro a
    obtain ⟨p', l', hadv, -⟩ := advance hroster₂ hs.place hs.line hs.fits hs.taken a
    exact ⟨p', l', hadv⟩

/-- A subscription is installed, and ends when somebody ends its topic on the bus. -/
theorem lifecycle_of_accepted_ended :
    let s : Subscription := ⟨.issued 0, .pendingTransactions, transactionTopic, none⟩
    let w := (start (Bus.sized 4) {} .absent).after [.makeWithin .pendingTransactions none]
    let run : List Action := [.turn .install, .busUnsubscribe transactionTopic,
      .turn (.read transactionTopic)]
    w.Accepts s ∧ ∃ l, Lifecycle (w.act (.submit s.id)) s run .gone l ∧
      l.reason = some (.topicClosed transactionTopic) := by
  intro s w run
  have hacc : w.Accepts s := ⟨by decide, by rfl⟩
  have hreason : (((w.act (.submit s.id)).after run).lines.get? s.id).map Line.reason =
      some (some (.topicClosed transactionTopic)) := by decide
  obtain ⟨p, l, hlife⟩ := lifecycle_of_accepted hacc run
  rw [hlife.line, Option.map_some, Option.some.injEq] at hreason
  obtain rfl : p = .gone := hlife.ended.mp (by rw [hreason]; rfl)
  exact ⟨hacc, l, hlife, hreason⟩

end EventFanout.World
