/-
EventFanout.Proofs.Delivery.Client — what is put on the line of a subscription, and what its
client reads of it.

The events that a subscription hears are those that the hub dispatches on its topic while
it is installed and its client listens (`heard`). What is put on its line are the
notifications these events come to, one after the other; and what its client receives
is an account (`Channel.Reads`) of the line: in order, each once, and with nothing left
behind but what had been overwritten.

Main statement: `after_statement`, over every run from a moment when the line fits.
-/
import EventFanout.Proofs.Delivery.Dispatch
import EventFanout.Proofs.Lifecycle.Stages
import Mathlib.Data.List.Induction
import Mathlib.Tactic.ByContra

namespace EventFanout

def Change.event? : Change → Option Event
  | .heard e => some e
  | _ => none

/-- The hub does nothing to the client's half of a line. -/
theorem Change.line_receiver (s : Subscription) (l : Line) (c : Change) :
    (c.line s l).receiver = l.receiver := by
  cases c with
  | heard e =>
    simp only [Change.line]
    cases s.notice? e <;> rfl
  | _ => rfl

namespace World

/-- The event that the hub dispatches on the topic of a subscription, while the subscription is
installed and its client listens. -/
def heard (s : Subscription) (w : World) (a : Action) : Option Event :=
  if s ∈ w.hub.index.values ∧ w.listens s.id = true then
    (w.hub.feeds.get? s.topic).bind fun h => (dispatched h w a).map (·.2)
  else none

def received (id : SubscriptionId) (w : World) : Action → Option (Nat × Notification)
  | .receive id' =>
    if id' = id then
      match w.receiver? id with
      | some (l, r) => l.taken r
      | none => none
    else none
  | _ => none

/-- The notification at a position has been overwritten before the client got there. -/
def Missed (w : World) (id : SubscriptionId) (i : Nat) : Prop :=
  ∃ l r, w.receiver? id = some (l, r) ∧ r.next ≤ i ∧ i < l.buffer.oldest

variable {w w₁ : World} {s : Subscription} {p : Place} {l : Line}

/-! ## One action -/

theorem heard_of_not_mem (hs : s ∉ w.hub.index.values) (a : Action) : heard s w a = none :=
  if_neg fun hc => hs hc.1

/-- Only reading a topic dispatches events. -/
theorem dispatched_eq_none {a : Action} (ha : ∀ t, a ≠ .turn (.read t)) (h : Handle) :
    dispatched h w a = none := by
  cases a with
  | turn turn =>
    cases turn with
    | read t => exact absurd rfl (ha t)
    | _ => rfl
  | _ => rfl

theorem heard_eq_none {a : Action} (ha : ∀ t, a ≠ .turn (.read t)) : heard s w a = none := by
  simp only [heard, dispatched_eq_none ha, Option.map_none, Option.bind_fun_none, ite_self]

/-- What the hub dispatches by reading a topic is the next item there, if that is an event. -/
theorem dispatched_read {t : Topic} {h : Handle} (hr : w.hub.running = true)
    (ht : w.hub.feeds.get? t = some h) :
    (dispatched h w (.turn (.read t))).map (·.2) =
      match w.item? t with
      | some (.entry e) => some e
      | _ => none := by
  rw [dispatched, if_pos ⟨hr, ht⟩, item?, ht, Option.bind_some, Bus.read?]
  cases w.bus.position? h with
  | none => rfl
  | some pair =>
    obtain ⟨ch, next⟩ := pair
    simp only [bind, Option.bind]
    cases ch.log.read? next with
    | none => rfl
    | some answer =>
      obtain ⟨item, next'⟩ := answer
      cases item <;> rfl

/-- Only reading a topic gives events to subscriptions. -/
theorem change_event?_eq_none {a : Action} (ha : ∀ t, a ≠ .turn (.read t)) :
    (w.change s a).event? = none := by
  cases a with
  | submit id =>
    simp only [change]
    repeat' split
    all_goals rfl
  | discard id =>
    simp only [change]
    split <;> rfl
  | turn turn =>
    cases turn with
    | read t => exact absurd rfl (ha t)
    | _ =>
      simp only [change, turnChange]
      repeat' split
      all_goals rfl
  | _ => rfl

/-- To hear an event and to be changed by it are the same. -/
theorem heard_eq (hf : w.Fed) (s : Subscription) (a : Action) :
    heard s w a = (w.change s a).event? := by
  by_cases ha : ∃ t, a = .turn (.read t)
  · obtain ⟨t, rfl⟩ := ha
    by_cases hr : w.hub.running = true
    · simp only [change, if_pos hr, turnChange]
      by_cases hm : s ∈ w.hub.listeners t
      · obtain ⟨hx, rfl⟩ := Hub.mem_listeners.mp hm
        cases hfeed : w.hub.feeds.get? s.topic with
        | none => simp [heard, hfeed, item?, hm, Change.event?]
        | some h =>
          simp only [heard, hx, true_and, hfeed, Option.bind_some, dispatched_read hr hfeed,
            if_pos hm]
          cases w.item? s.topic with
          | none => simp [Change.event?]
          | some item =>
            by_cases hlisten : w.listens s.id = true <;> cases item <;> simp [hlisten, Change.event?]
      · -- an item of another topic is not dispatched on this one
        rw [if_neg hm]
        by_cases hx : s ∈ w.hub.index.values
        · have hother : ∀ h, w.hub.feeds.get? s.topic = some h →
              dispatched h w (.turn (.read t)) = none := by
            intro h hfeed
            refine if_neg fun hc => hm ?_
            exact Hub.mem_listeners.mpr ⟨hx, hf.unique hfeed hc.2 rfl⟩
          cases hfeed : w.hub.feeds.get? s.topic with
          | none => simp [heard, hfeed, Change.event?]
          | some h => simp [heard, hfeed, hother h hfeed, Change.event?]
        · exact heard_of_not_mem hx _
    · have hno : ∀ h, dispatched h w (.turn (.read t)) = none :=
        fun h => if_neg fun hc => hr hc.1
      simp [heard, hno, change, hr, Change.event?]
  · have ha' : ∀ t, a ≠ .turn (.read t) := fun t he => ha ⟨t, he⟩
    rw [heard_eq_none ha', change_event?_eq_none ha']

/-- A line is extended by the notification that the event heard comes to, if any. -/
theorem line_extends (hf : w.Fed) (s : Subscription) (l : Line) (a : Action) :
    l.buffer.Extends ((w.change s a).line s l).buffer
      ((heard s w a).toList.filterMap s.notice?) := by
  rw [heard_eq hf]
  cases w.change s a with
  | nothing => exact .refl _
  | handedIn => exact .refl _
  | installed => exact .refl _
  | givenUp => exact .close _
  | ended r => exact .close _
  | heard e =>
    simp only [Change.line, Change.event?, Option.toList_some]
    cases hn : s.notice? e with
    | none =>
      rw [List.filterMap_cons_none hn]
      exact .refl _
    | some n =>
      rw [List.filterMap_cons_some hn]
      exact .push _ n

/-- What a client receives in an action: nothing unless it calls for it. -/
theorem received_eq_none {id : SubscriptionId} {a : Action} (ha : a ≠ .receive id) :
    received id w a = none := by
  cases a with
  | receive id' => exact if_neg fun he => ha (congrArg Action.receive he)
  | _ => rfl

theorem received_eq {id : SubscriptionId} {l : Line} {r : Receiver}
    (hl : w.lines.get? id = some l) (hr : l.receiver = some r) :
    received id w (.receive id) = l.taken r := by
  simp only [received, if_true, receiver?_eq_some.mpr ⟨hl, hr⟩]

/-! ## Runs -/

/-- How the line of a subscription stands after a run that began when it was `l₁` and its client
was at `first`; `next` is where its client is, or was last. -/
structure Statement (w₁ : World) (s : Subscription) (l₁ : Line) (first : Nat) (run : List Action)
    (p : Place) (l : Line) (next : Nat) : Prop where
  place : (w₁.after run).In s p
  line : (w₁.after run).lines.get? s.id = some l
  fits : l.Fits s p
  /-- What has been put on the line is what the events it heard come to. -/
  sent : l.buffer.sent = l₁.buffer.sent ++ (along (heard s) w₁ run).filterMap s.notice?
  /-- What was left behind had been overwritten, at some moment of the run, before it was read. -/
  reads : Channel.Reads
    (fun i => ∃ earlier, earlier <+: run ∧ (w₁.after earlier).Missed s.id i)
    l.buffer first next (along (received s.id) w₁ run)
  reader : ∀ r, l.receiver = some r → r.next = next

/-- One action more: the line gets what is heard in it, and the client what it reads in it. -/
theorem Statement.concat {l₁ : Line} {first next : Nat} {run : List Action}
    (h : Statement w₁ s l₁ first run p l next) (hw : (w₁.after run).Roster)
    (hfed : (w₁.after run).Fed) (a : Action) :
    ∃ p' l' next', Statement w₁ s l₁ first (run ++ [a]) p' l' next' := by
  obtain ⟨hp', hl', hf'⟩ := act_fits hw h.place h.line h.fits a
  have hext := line_extends hfed s l a
  have hreads : Channel.Reads
      (fun i => ∃ earlier, earlier <+: run ++ [a] ∧ (w₁.after earlier).Missed s.id i)
      l.buffer first next (along (received s.id) w₁ run) := by
    refine h.reads.mono ?_
    rintro i ⟨earlier, hpre, hm⟩
    exact ⟨earlier, hpre.trans (List.prefix_append run [a]), hm⟩
  have hsent : (((w₁.after run).change s a).line s l).buffer.sent =
      l₁.buffer.sent ++ (along (heard s) w₁ (run ++ [a])).filterMap s.notice? := by
    rw [hext.sent, h.sent, along_concat, List.filterMap_append, List.append_assoc]
  rw [← after_concat] at hp' hl'
  -- only receiving moves the client
  by_cases hrec : a = .receive s.id ∧ l.receiver ≠ none
  · obtain ⟨rfl, hsome⟩ := hrec
    obtain ⟨r, hr⟩ := Option.ne_none_iff_exists'.mp hsome
    have hmoves := l.receive_moves r
    rw [← received_eq h.line hr, h.reader r hr] at hmoves
    refine ⟨_, _, (l.receive r).2.next, hp', hl', hf', hsent, ?_, ?_⟩
    · rw [along_concat]
      refine hreads.move hmoves ?_
      intro i h₁ h₂
      have hrecv := receiver?_eq_some.mpr ⟨h.line, hr⟩
      rw [← h.reader r hr] at h₁
      exact ⟨run, List.prefix_append run _, l, r, hrecv, h₁, h₂⟩
    · intro r' hr'
      have hafter : l.receiverAfter s.id (.receive s.id) = some r' := hr'
      rw [Line.receiverAfter, if_pos rfl, hr, Option.map_some, Option.some.injEq] at hafter
      rw [← hafter]
  · have hnone : received s.id (w₁.after run) a = none := by
      by_cases ha : a = .receive s.id
      · subst ha
        have hl : l.receiver = none := by
          by_contra hne
          exact hrec ⟨rfl, hne⟩
        have hno : (w₁.after run).receiver? s.id = none := by
          rw [receiver?_eq_none]
          intro l₀ hl₀
          rw [h.line] at hl₀
          cases hl₀
          exact hl
        simp only [received, if_true, hno]
      · exact received_eq_none ha
    refine ⟨_, _, next, hp', hl', hf', hsent, ?_, ?_⟩
    · rw [along_concat, hnone, Option.toList_none, List.append_nil]
      exact hreads.extend hext
    · intro r' hr'
      obtain ⟨r, hr, hcase⟩ := Line.receiverAfter_cases hr'
      rw [Change.line_receiver] at hr
      rcases hcase with ⟨-, he⟩ | ⟨ha, -⟩
      · rw [he, h.reader r hr]
      · refine absurd ⟨ha, ?_⟩ hrec
        rw [hr]
        simp

/-- A line that fits is accounted for over every run, from where its client is. -/
theorem after_statement (hw : w.Roster) (hfed : w.Fed) (hs : w.hub.Sound) (hp : w.In s p)
    (hl : w.lines.get? s.id = some l) (hf : l.Fits s p) {first : Nat}
    (hfirst : ∀ r, l.receiver = some r → r.next = first) (hle : first ≤ l.buffer.size)
    (run : List Action) :
    ∃ p' l' next, Statement w s l first run p' l' next := by
  induction run using List.reverseRecOn with
  | nil =>
    refine ⟨p, l, first, hp, hl, hf, ?_, .start hle, hfirst⟩
    rw [along, List.filterMap_nil, List.append_nil]
  | append_singleton run a ih =>
    obtain ⟨p', l', next, h⟩ := ih
    exact h.concat (after_roster hw run) (after_fed hfed hs run) a

end World

end EventFanout
