/-
EventFanout.Proofs.Cancellation — a cancellation neither overtakes its subscription nor is lost.

A subscription that is handed in and the request to remove it wait in two queues, and nothing but
the order the hub works in (`World.InOrder`) keeps the request from being handled first and
forgotten. The hub removes only when nothing waits to be installed, so a request that came after
its subscription was taken in finds the subscription installed, or gone. And it reads only
when no request waits, so an event it dispatches after the request finds the subscription gone.

Main statement: `cancellation`, over every run in order that follows the moment when the hub took
the subscription in.
-/
import EventFanout.Proofs.Delivery.Client
import EventFanout.Proofs.Lifecycle.Traced
import EventFanout.Proofs.Order

namespace EventFanout

/-- Only an event that is heard puts something on a line. -/
theorem Change.line_sent {c : Change} (h : c.event? = none) (s : Subscription) (l : Line) :
    (c.line s l).buffer.sent = l.buffer.sent := by
  cases c with
  | heard e => cases h
  | _ => rfl

namespace World

/-- What the last request that waits in `w`, which is for `s`, comes to in the run after it. -/
structure Cancelled (w : World) (s : Subscription) (rest : List Action) : Prop where
  /-- It waits behind those that came before it until the hub takes it. -/
  waits : ∀ later k, later <+: rest → (w.after later).hub.running = true →
    later.countP Action.takesRemoval + k + 1 = w.hub.removals.length →
    (w.after later).hub.removals[k]? = some s.id
  /-- Once the hub has taken it, or has stopped, the identity is not in the index any more. -/
  out : ∀ later more, later ++ more <+: rest →
    w.hub.removals.length ≤ later.countP Action.takesRemoval ∨
      (w.after later).hub.running = false →
    s.id ∉ (w.after (later ++ more)).hub.ids
  /-- No event that the hub dispatches puts anything on its line. -/
  silent : ∃ sent, ∀ later, later <+: rest →
    ∃ l, (w.after later).lines.get? s.id = some l ∧ l.buffer.sent = sent

/-- The event that the hub reads next from the topic of a subscription is considered for it. -/
structure Considers (w : World) (s : Subscription) (e : Event) : Prop where
  listed : s ∈ w.hub.listeners s.topic
  /-- If its client listens, what the event is to the subscription is put on its line. -/
  heard : w.listens s.id = true → ∃ l l', w.lines.get? s.id = some l ∧
    (w.act (.turn (.read s.topic))).lines.get? s.id = some l' ∧
    l'.buffer.sent = l.buffer.sent ++ (s.notice? e).toList
  /-- If not, the subscription ends. -/
  unheard : w.listens s.id = false → ∃ l',
    (w.act (.turn (.read s.topic))).lines.get? s.id = some l' ∧ l'.reason = some .closed

variable {w : World} {s : Subscription} {p : Place} {l : Line} {run : List Action}

/-! ## The request in its queue -/

/-- The last request that waits comes forward by one with each request that the hub takes. -/
theorem getElem?_removals (hlast : w.hub.removals.getLast? = some s.id) (ho : w.InOrder run)
    (hr : (w.after run).hub.running = true) {k : Nat}
    (hk : run.countP Action.takesRemoval + k + 1 = w.hub.removals.length) :
    (w.after run).hub.removals[k]? = some s.id := by
  obtain ⟨-, heq⟩ := after_removals ho hr
  rw [heq, List.getElem?_drop, List.getElem?_append_left (by omega), ← hlast,
    List.getLast?_eq_getElem?]
  congr 1
  omega

/-- Where the hub reads, every request has been taken. -/
theorem length_le_of_read (ho : w.InOrder run) {t : Topic}
    (hdue : (w.after run).Due (.read t)) :
    w.hub.removals.length ≤ run.countP Action.takesRemoval := by
  obtain ⟨-, heq⟩ := after_removals ho hdue.running
  obtain ⟨-, -, -, hnone, -⟩ := hdue
  rw [hnone, eq_comm, List.drop_eq_nil_iff, List.length_append] at heq
  omega

/-! ## Handling the request -/

/-- A removal that is due ends the subscription, unless that has ended before: nothing waits to
be installed then. -/
theorem Traced.gone_of_remove (h : w.Traced s p l) (hp : p ≠ .held) (hdue : w.Due .remove)
    (hhead : w.hub.removals.head? = some s.id) :
    ∃ l', (w.act (.turn .remove)).Traced s .gone l' := by
  obtain ⟨hr, -, hnone, -⟩ := hdue
  cases p with
  | held => exact absurd rfl hp
  | queued =>
    have hm : s ∈ w.hub.installs := h.place
    rw [hnone] at hm
    cases hm
  | indexed =>
    have hact := h.act (.turn .remove)
    rw [(EndsBy.cancelled hr hhead h.place).change] at hact
    exact ⟨_, hact⟩
  | gone => exact ⟨_, h.gone_act _⟩

/-- When the hub has taken the request, the subscription is gone. -/
theorem Traced.gone_of_taken (h : w.Traced s p l) (hp : p ≠ .held)
    (hlast : w.hub.removals.getLast? = some s.id) (ho : w.InOrder run)
    (hr : (w.after run).hub.running = true)
    (hn : w.hub.removals.length ≤ run.countP Action.takesRemoval) :
    ∃ l', (w.after run).Traced s .gone l' := by
  induction run using List.reverseRecOn with
  | nil =>
    have hnil : w.hub.removals = [] := by simpa using hn
    rw [hnil] at hlast
    cases hlast
  | append_singleton run a ih =>
    obtain ⟨horder, hpermits⟩ := inOrder_concat.mp ho
    rw [after_concat] at hr ⊢
    have hr' := running_of_act hr
    by_cases hbefore : w.hub.removals.length ≤ run.countP Action.takesRemoval
    · obtain ⟨l', h'⟩ := ih horder hr' hbefore
      exact ⟨_, h'.gone_act a⟩
    · rw [List.countP_append, List.countP_singleton] at hn
      have hall := (after_removals horder hr').1
      rw [List.length_append] at hall
      cases ht : a.takesRemoval with
      | false =>
        rw [ht] at hn
        exact absurd hn hbefore
      | true =>
        -- it has come to the front, and it is due
        obtain rfl := eq_remove_of_takesRemoval ht
        rw [ht, if_pos rfl] at hn
        have hfront := getElem?_removals (k := 0) hlast horder hr' (by omega)
        rw [← List.head?_eq_getElem?] at hfront
        obtain ⟨p', l', h', hheld⟩ := h.after run
        exact h'.gone_of_remove (hheld hp) hpermits hfront

/-- From the request on, nothing is put on the line. -/
theorem Traced.sent_of_requested (h : w.Traced s p l) (hp : p ≠ .held)
    (hlast : w.hub.removals.getLast? = some s.id) (ho : w.InOrder run) :
    ∃ p' l', (w.after run).Traced s p' l' ∧ l'.buffer.sent = l.buffer.sent := by
  induction run using List.reverseRecOn with
  | nil => exact ⟨p, l, h, rfl⟩
  | append_singleton run a ih =>
    obtain ⟨horder, hpermits⟩ := inOrder_concat.mp ho
    obtain ⟨p', l', h', hsent⟩ := ih horder
    rw [after_concat]
    refine ⟨_, _, h'.act a, ?_⟩
    have hquiet : ((w.after run).change s a).event? = none := by
      by_cases ha : ∃ t, a = .turn (.read t)
      · obtain ⟨t, rfl⟩ := ha
        have hdue : (w.after run).Due (.read t) := hpermits
        have htaken := length_le_of_read horder hdue
        obtain ⟨l'', hgone⟩ := h.gone_of_taken hp hlast horder hdue.running htaken
        rw [hgone.change_gone]
        rfl
      · exact change_event?_eq_none fun t he => ha ⟨t, he⟩
    rw [← hsent]
    exact Change.line_sent hquiet s l'

/-- A request for a subscription that was taken in is kept, is handled, and cuts its line off. -/
theorem Traced.cancelled (h : w.Traced s p l) (hp : p ≠ .held)
    (hlast : w.hub.removals.getLast? = some s.id) (ho : w.InOrder run) :
    Cancelled w s run := by
  refine ⟨?_, ?_, l.buffer.sent, ?_⟩
  · intro later k hpre hr hk
    exact getElem?_removals hlast (ho.of_prefix hpre) hr hk
  · intro later more hpre hdone
    obtain ⟨p', l', h', -⟩ := h.after (later ++ more)
    cases hr : (w.after (later ++ more)).hub.running with
    | true =>
      have hrun := running_of_prefix (List.prefix_append later more) hr
      have htaken := hdone.resolve_right (by simp [hrun])
      have hmore : w.hub.removals.length ≤ (later ++ more).countP Action.takesRemoval := by
        rw [List.countP_append]
        omega
      obtain ⟨l'', hgone⟩ := h.gone_of_taken hp hlast (ho.of_prefix hpre) hr hmore
      rw [hgone.mem_ids]
      simp
    | false =>
      rw [Hub.ids, (h'.roster.sound.stopped hr).1]
      exact List.not_mem_nil
  · intro later hpre
    obtain ⟨p', l', h', hsent⟩ := h.sent_of_requested hp hlast (ho.of_prefix hpre)
    exact ⟨l', h'.line, hsent⟩

/-! ## Events before the request -/

/-- A subscription that was taken in, and is gone, has ended for a cause. -/
theorem Traced.ended_of_gone (h : w.Traced s p l) (hp : p ≠ .held) (hg : p ≠ .gone) {l' : Line}
    (h' : (w.after run).Traced s .gone l') :
    ∃ earlier a r, earlier ++ [a] <+: run ∧ (w.after earlier).EndsBy s a r := by
  induction run using List.reverseRecOn generalizing l' with
  | nil => exact absurd (h.unique h').1 hg
  | append_singleton run a ih =>
    obtain ⟨p₁, l₁, h₁, hheld⟩ := h.after run
    by_cases hg₁ : p₁ = .gone
    · subst hg₁
      obtain ⟨earlier, b, r, hpre, hends⟩ := ih h₁
      exact ⟨earlier, b, r, hpre.trans (List.prefix_append run [a]), hends⟩
    · rw [after_concat] at h'
      have hplace := ((h₁.act a).unique h').1
      have hfit := change_fitting h₁.roster h₁.place h₁.line a
      obtain ⟨r, hr⟩ := hfit.eq_ended (hheld hp) hg₁ hplace
      have hnot : s ∉ (w.after run).held.values := fun hs =>
        hheld hp (h₁.roster.place_unique (q := .held) h₁.place hs)
      exact ⟨run, a, r, List.prefix_refl _, endsBy_of_change hnot hr⟩

/-- An event is considered for a subscription that is installed on its topic. -/
theorem Traced.considers (h : w.Traced s .indexed l) (hr : w.hub.running = true) {e : Event}
    (he : w.item? s.topic = some (.entry e)) : w.Considers s e := by
  have hm : s ∈ w.hub.listeners s.topic := Hub.mem_listeners.mpr ⟨h.place, rfl⟩
  have hline := (h.act (.turn (.read s.topic))).line
  simp only [change, hr, if_true, turnChange, if_pos hm, he] at hline
  refine ⟨hm, ?_, ?_⟩
  · intro hlisten
    rw [if_pos hlisten] at hline
    refine ⟨l, _, h.line, hline, ?_⟩
    show (Change.line s l (.heard e)).buffer.sent = _
    simp only [Change.line]
    cases s.notice? e with
    | none => exact (List.append_nil _).symm
    | some n => exact Channel.sent_push l.buffer n
  · intro hlisten
    rw [if_neg (by simp [hlisten])] at hline
    exact ⟨_, hline, rfl⟩

/--
**A cancellation is neither lost nor late.** Let a hub have taken a subscription in, and let it
work in order from then on. A request to remove the subscription, by its client or by giving the
receiver up, waits until the hub handles it; after that, or when the hub has stopped, the
identity is out of the index for good; and no event dispatched after the request reaches the
client. An event dispatched on its topic is considered for the subscription, unless that has been
turned away or has ended before.
-/
theorem cancellation {bus : Bus} {config : Config} {governor : Governor} {before run : List Action}
    {s : Subscription} (h : ((start bus config governor).after before).Accepts s)
    (ho : (((start bus config governor).after before).act (.submit s.id)).InOrder run) :
    let w₁ := ((start bus config governor).after before).act (.submit s.id)
    (∀ asked a rest, run = asked ++ a :: rest → (w₁.after asked).requested a = some s.id →
      Cancelled ((w₁.after asked).act a) s rest) ∧
    (∀ earlier e, earlier ++ [.turn (.read s.topic)] <+: run →
      (w₁.after earlier).item? s.topic = some (.entry e) →
      (w₁.after earlier).Considers s e ∨
        ∃ earliest a r, earliest ++ [a] <+: earlier ∧ (w₁.after earliest).EndsBy s a r) := by
  intro w₁
  have hstart := start_roster bus config governor
  have hfit := after_allFit hstart (start_allFit bus config governor) before
  obtain ⟨l₁, h₁⟩ := traced_of_accepted (after_roster hstart before) hfit h
  refine ⟨?_, ?_⟩
  · rintro asked a rest rfl hasked
    obtain ⟨p, l, h', hheld⟩ := h₁.after (asked ++ [a])
    rw [after_concat] at h'
    obtain ⟨hpermits, hrest⟩ := (inOrder_append.mp ho).2
    refine h'.cancelled (hheld (by simp)) ?_ hrest
    -- the request has just come in, so it is the last
    obtain ⟨hr, hcall⟩ := running_of_requested hasked
    rw [(act_hub _ hcall).removals, hasked, Option.toList_some, List.getLast?_append,
      List.getLast?_singleton]
    rfl
  · intro earlier e hpre he
    obtain ⟨p, l, h', hheld⟩ := h₁.after earlier
    have hdue := ho.due hpre
    cases p with
    | held => exact absurd rfl (hheld (by simp))
    | queued =>
      -- the hub does not read while something waits to be installed
      have hm : s ∈ (w₁.after earlier).hub.installs := h'.place
      rw [hdue.2.2.1] at hm
      cases hm
    | indexed => exact .inl (h'.considers hdue.running he)
    | gone => exact .inr (h₁.ended_of_gone (by simp) (by simp) h')

/-- Two clients share a topic. The first gives its receiver up between two transactions and gets
only one of them. -/
theorem cancellation_between :
    let s : Subscription := ⟨.issued 0, .pendingTransactions, transactionTopic, none⟩
    let e : Event := ⟨transactionTopic, .transaction {}⟩
    let w := (start (Bus.sized 4) {} .absent).after
      [.makeWithin .pendingTransactions none, .makeWithin .pendingTransactions none,
        .submit (.issued 1)]
    let w₁ := w.act (.submit s.id)
    let asked : List Action :=
      [.turn .install, .turn .install, .publish e, .turn (.read s.topic), .publish e]
    let rest : List Action := [.turn .remove, .turn (.read s.topic)]
    let w₂ := (w₁.after asked).act (.dropReceiver s.id)
    w.Accepts s ∧ w₁.InOrder (asked ++ .dropReceiver s.id :: rest) ∧ w₂.Cancelled s rest ∧
      w₂.hub.ids = [.issued 1, .issued 0] ∧ (w₂.after rest).hub.ids = [.issued 1] ∧
      (w₂.after rest).lines.values.map (fun l => l.buffer.sent) =
        [[.hashes [.zero]], [.hashes [.zero], .hashes [.zero]]] := by
  intro s e w w₁ asked rest w₂
  have hacc : w.Accepts s := ⟨by decide, by rfl⟩
  have horder : w₁.InOrder (asked ++ .dropReceiver s.id :: rest) := by decide
  obtain ⟨hcancel, -⟩ := cancellation hacc horder
  exact ⟨hacc, horder, hcancel asked _ rest rfl (by decide), by decide, by decide, by decide⟩

end World

end EventFanout
