/-
EventFanout.Proofs.Polling.Inbox — what the task of a filter receives.

What is sent to the subscription of a filter waits for the task of the filter, and of what waits only
the newest is kept, as much as the buffer of its line holds. A task that runs, until it waits or
ends, receives just that (`World.Drains`), and a task that waits has read all that was sent. So it
receives the newest of what has been sent since it waited last (`Seen.drains`), no matter what else
happens in between.
-/
import EventFanout.Proofs.Polling.Reading

namespace EventFanout.World

variable {w w' : World} {id : SubscriptionId} {l l' : Line} {r r' : Receiver} {m : Move}
  {s : Subscription}

/-! ## Any number of moves -/

/-- Whoever was begun is not begun again. -/
theorem not_created (hw : w.Managed) (h : w.Tended id) (moves : List Move) :
    id ∉ w.created moves := by
  induction moves generalizing w with
  | nil => exact List.not_mem_nil
  | cons m rest ih =>
    rw [created, List.mem_append, Option.mem_toList, not_or]
    refine ⟨fun hm => ?_, ih (hw.move m) (move_tended hw h m)⟩
    rcases move_cases hw m with ⟨hnone, -⟩ | ⟨request, s, -, hsome, hb⟩
    · rw [hnone] at hm
      cases hm
    · obtain ⟨w₁, hs⟩ := hb.made
      obtain ⟨s', -, p, l, rfl, -, -, hminded⟩ := h
      rw [hsome, Option.some.injEq] at hm
      exact hminded.traced.id_ne_of_new hs hm.symm

/-- Whoever is on the books after some moves was on them before, once begun. -/
theorem mem_ids_of_through (hw : w.Managed) (h : w.Tended id) {moves : List Move}
    (hid : id ∈ (w.through moves).polling.ids) : id ∈ w.polling.ids :=
  (created_of_mem_ids hw hid).resolve_right (not_created hw h moves)

/-- While a reader is there, it stays where it is but for the steps of its task; and where nothing is
sent, it receives what waits, one after the other. -/
theorem Reading.through (h : w.Reading s l r) (hw : w.Managed) (ht : w.Tended s.id)
    {moves : List Move} (hstay : s.id ∈ (w.through moves).polling.ids) :
    ∃ l' r' new, (w.through moves).Reading s l' r' ∧ l.buffer.Extends l'.buffer new ∧
      (during (drained s.id) w moves = [] → r'.next = r.next) ∧
      (new = [] →
        l.buffer.held r.next = during (drained s.id) w moves ++ l'.buffer.held r'.next) := by
  induction moves generalizing w l r with
  | nil => exact ⟨l, r, [], h, .refl _, fun _ => rfl, fun _ => rfl⟩
  | cons m rest ih =>
    have ht₁ := move_tended hw ht m
    have hid : s.id ∈ w.polling.ids :=
      mem_ids_of_through hw ht (show s.id ∈ (w.through (m :: rest)).polling.ids from hstay)
    have hid₁ := mem_ids_of_through (hw.move m) ht₁ hstay
    obtain ⟨l₁, r₁, h₁, hstep⟩ := h.move hw hid hid₁
    obtain ⟨l', r', new, h', hext, hidle, hheld⟩ := ih h₁ (hw.move m) ht₁ hstay
    rcases hstep with ⟨n, rfl, hn, hbuffer, hfirst⟩ | ⟨hn, hnext, new₁, hext₁⟩
    · rw [during, hn, Option.toList_some, List.singleton_append]
      refine ⟨l', r', new, h', hbuffer ▸ hext, fun hnil => absurd hnil (List.cons_ne_nil _ _),
        fun hnew => ?_⟩
      rw [hfirst, List.cons_append, ← hheld hnew, hbuffer]
    · rw [during, hn, Option.toList_none, List.nil_append]
      refine ⟨l', r', new₁ ++ new, h', hext₁.trans hext, fun hnone => ?_, fun hnew => ?_⟩
      · rw [hidle hnone, hnext]
      · obtain ⟨rfl, rfl⟩ := List.append_eq_nil_iff.mp hnew
        rw [← hheld rfl, hext₁.held_eq, hnext]

/-! ### Where reading begins -/

theorem makeWithin_eq {kind : Kind} {criteria : Option Criteria} {w₁ : World}
    (hs : w.newSubscription kind criteria = .ok (s, w₁)) :
    w.act (.makeWithin kind criteria) = w.made s w.hub.config.deliveryBuffer.toNat true := by
  simp only [World.act, hs]
  unfold newSubscription at hs
  cases hl : w.checkLimits kind criteria with
  | error e => simp [hl, bind, Except.bind] at hs
  | ok u =>
    simp only [hl, bind, Except.bind] at hs
    exact (create_ok hs).2

/-- A creation that begins has the receiver of its subscription, at its beginning. -/
theorem Begins.reading {request : FilterRequest} (h : Begins w request s w') (hw : w.Managed) :
    ∃ l r, w'.Reading s l r ∧ r.next = 0 := by
  obtain ⟨w₁, hs⟩ := h.made
  have htraced := traced_made hw.roster (newSubscription_ok hs).1
    w.hub.config.deliveryBuffer.toNat true
  have hmade : (w.made s w.hub.config.deliveryBuffer.toNat true).Reading s
      (.new s.kind w.hub.config.deliveryBuffer.toNat true) { attached := true } :=
    ⟨⟨_, htraced⟩, rfl, rfl, Nat.zero_le _, nofun, rfl⟩
  rw [← makeWithin_eq hs] at hmade
  obtain ⟨l, -, -, hreading⟩ := hmade.spare (a := .submit s.id) (by simp)
  rw [h.eq]
  exact ⟨l, _, hreading.write _, rfl⟩

/-- Whoever is on the books has somebody who reads; as long as nothing has been received, from the
beginning. -/
theorem reading_of_mem_ids (hw : w.Managed) (hnone : w.polling.ids = []) {moves : List Move}
    (hid : id ∈ (w.through moves).polling.ids) :
    ∃ s l r, s.id = id ∧ (w.through moves).Reading s l r ∧
      (during (drained id) w moves = [] → r.next = 0) := by
  induction moves using List.reverseRecOn with
  | nil =>
    rw [through_nil, hnone] at hid
    cases hid
  | append_singleton moves m ih =>
    rw [through_concat] at hid ⊢
    have hw₁ := hw.through moves
    by_cases hold : id ∈ (w.through moves).polling.ids
    · obtain ⟨s, l, r, rfl, h, hfirst⟩ := ih hold
      obtain ⟨l', r', h', hstep⟩ := h.move hw₁ hold hid
      refine ⟨s, l', r', rfl, h', fun hno => ?_⟩
      rw [during_concat, List.append_eq_nil_iff] at hno
      rcases hstep with ⟨n, -, hn, -⟩ | ⟨-, hnext, -⟩
      · rw [hn] at hno
        cases hno.2
      · rw [hnext, hfirst hno.1]
    · rcases move_cases hw₁ m with ⟨-, hd⟩ | ⟨request, s, -, -, hb⟩
      · exact absurd (hd.shrinks.ids id hid) hold
      · rw [hb.polling, (Polling.ids_begun _ _).mem_iff, List.mem_cons] at hid
        obtain rfl := hid.resolve_right hold
        obtain ⟨l, r, h, hfirst⟩ := hb.reading hw₁
        exact ⟨s, l, r, rfl, h, fun _ => hfirst⟩

/-! ## Runs of the task of a filter -/

/-- The steps that the task of a filter takes when it runs. -/
def drainRun (id : SubscriptionId) (w : World) : List Move :=
  List.replicate (w.drainLeft id) (.drain id)

theorem move_drain_of_none (h : w.drainStep id = none) : w.move (.drain id) = w := by
  simp only [move, h, Option.getD_none]

theorem through_replicate_of_none (h : w.drainStep id = none) (n : Nat) :
    w.through (List.replicate n (.drain id)) = w := by
  induction n with
  | zero => rfl
  | succ n ih => rw [List.replicate_succ, through_cons, move_drain_of_none h, ih]

/-- A task that waits, or has ended, receives nothing. -/
theorem during_replicate_of_none (hw : w.Managed) (h : w.drainStep id = none) (n : Nat) :
    during (drained id) w (List.replicate n (.drain id)) = [] := by
  induction n with
  | zero => rfl
  | succ n ih =>
    rw [List.replicate_succ, during, drained_of_none hw h, move_drain_of_none h, ih]
    rfl

/-- A task takes steps until it waits or has ended. -/
theorem drainSteps_eq_through (id : SubscriptionId) (n : Nat) (w : World) :
    drainSteps id n w = w.through (List.replicate n (.drain id)) := by
  induction n generalizing w with
  | zero => rfl
  | succ n ih =>
    rw [drainSteps]
    cases h : w.drainStep id with
    | none => exact (through_replicate_of_none h _).symm
    | some w' =>
      have hmove : w.move (.drain id) = w' := by simp only [move, h, Option.getD_some]
      rw [List.replicate_succ, through_cons, hmove]
      exact ih w'

/-- Whoever is off the books takes no steps. -/
theorem drainStep_of_not_mem (h : id ∉ w.polling.ids) : w.drainStep id = none := by
  rcases drainStep_cases w id with he | ⟨hd, -⟩ | ⟨hd, -⟩ | ⟨hd, -⟩
  · exact he
  all_goals exact absurd (Polling.mem_ids.mpr (.inr (List.mem_map_of_mem hd))) h

/-- A task that takes one step after the other receives what waits from its front on, and waits or
ends when nothing is left. -/
theorem Reading.replicate (h : w.Reading s l r) (hw : w.Managed)
    (hd : ⟨s.id, false⟩ ∈ w.polling.drains) (n : Nat) :
    during (drained s.id) w (List.replicate n (.drain s.id)) = (l.buffer.held r.next).take n ∧
      ((l.buffer.held r.next).length < n →
        (w.through (List.replicate n (.drain s.id))).drainStep s.id = none) := by
  induction n generalizing w l r with
  | zero => exact ⟨List.take_zero.symm, fun hlt => absurd hlt (Nat.not_lt_zero _)⟩
  | succ n ih =>
    rw [List.replicate_succ, during, through_cons]
    rcases h.drain_cases hw hd with ⟨x, l', r', hx, hbuffer, hfirst, h', hd'⟩ | ⟨hx, hle, hrest⟩
    · obtain ⟨hreceived, hover⟩ := ih h' (hw.move _) (hd' ▸ hd)
      rw [hbuffer] at hreceived hover
      rw [hfirst, hx, hreceived, List.take_succ_cons, List.length_cons, Nat.add_lt_add_iff_right]
      exact ⟨rfl, hover⟩
    · have hnone : (w.move (.drain s.id)).drainStep s.id = none := by
        rcases hrest with hnone | hleft
        · rwa [move_drain_of_none hnone]
        · exact drainStep_of_not_mem hleft
      rw [hx, during_replicate_of_none (hw.move _) hnone, Channel.held_eq_nil hle,
        through_replicate_of_none hnone]
      exact ⟨rfl, fun _ => hnone⟩

/-- A run of the task of a filter takes it to where it waits, or ends, and it receives all that has
waited for it. -/
theorem Reading.drainRun (h : w.Reading s l r) (hw : w.Managed)
    (hd : ⟨s.id, false⟩ ∈ w.polling.drains) :
    during (drained s.id) w (w.drainRun s.id) = l.buffer.held r.next ∧
      (w.through (w.drainRun s.id)).drainStep s.id = none := by
  obtain ⟨hreceived, hover⟩ := h.replicate hw hd (w.drainLeft s.id)
  have hlen : (l.buffer.held r.next).length < w.drainLeft s.id := by
    simp only [drainLeft, h.receiver?]
    rw [Channel.held, List.length_drop, Channel.length_sent, Channel.unread]
    omega
  rw [List.take_of_length_le (Nat.le_of_lt hlen)] at hreceived
  exact ⟨hreceived, hover hlen⟩

/-- A task that waits has read all that was sent. -/
theorem Reading.next_of_waits (h : w.Reading s l r) (hw : w.Managed)
    (hd : ⟨s.id, false⟩ ∈ w.polling.drains) (hwaits : w.drainStep s.id = none) :
    r.next = l.buffer.size := by
  have hwithin := h.within
  have hcapacity : 0 < l.buffer.capacity := h.capacity ▸ ringSize_pos _
  have hle : l.buffer.size ≤ max r.next l.buffer.oldest := by
    rcases h.drain_cases hw hd with ⟨n, l', r', hn, -⟩ | ⟨-, hle, -⟩
    · rw [drained_of_none hw hwaits] at hn
      cases hn
    · exact hle
  rw [Channel.oldest] at hle
  omega

/-! ## What a run receives -/

/-- What had been sent to the subscription of a filter when its task waited last: nothing, if the
task has not received anything yet. -/
inductive Seen (w : World) (id : SubscriptionId) : List Move → List Notification → Prop
  | nothing {moves : List Move} : during (drained id) w moves = [] → Seen w id moves []
  | waited {earlier between : List Move} : ⟨id, false⟩ ∈ (w.through earlier).polling.drains →
      (w.through earlier).drainStep id = none →
      during (drained id) (w.through earlier) between = [] →
      Seen w id (earlier ++ between) ((w.through earlier).sentTo id)

/-- What waits for the task of a filter is the newest of what has been sent since it waited last. -/
theorem Seen.held {moves : List Move} {seen : List Notification} (hseen : Seen w id moves seen)
    (hw : w.Managed) (hnone : w.polling.ids = [])
    (hd : ⟨id, false⟩ ∈ (w.through moves).polling.drains) :
    ∃ s l r since, s.id = id ∧ (w.through moves).Reading s l r ∧
      (w.through moves).sentTo id = seen ++ since ∧
      l.buffer.held r.next = since.rtake l.buffer.capacity := by
  have hid : id ∈ (w.through moves).polling.ids := Polling.mem_ids.mpr (.inr (List.mem_map_of_mem hd))
  cases hseen with
  | nothing hno =>
    obtain ⟨s, l, r, rfl, h, hfirst⟩ := reading_of_mem_ids hw hnone hid
    refine ⟨s, l, r, l.buffer.sent, rfl, h, h.sentTo_eq, ?_⟩
    rw [hfirst hno, Channel.held_zero]
  | @waited earlier between hd₁ hwaits hno =>
    have hw₁ := hw.through earlier
    have hid₁ : id ∈ (w.through earlier).polling.ids :=
      Polling.mem_ids.mpr (.inr (List.mem_map_of_mem hd₁))
    have ht : (w.through earlier).Tended id :=
      tended_of_created hw ((created_of_mem_ids hw hid₁).resolve_left (by simp [hnone]))
    obtain ⟨s, l₁, r₁, rfl, h₁, -⟩ := reading_of_mem_ids hw hnone hid₁
    rw [through_append] at hid ⊢
    obtain ⟨l, r, new, h, hext, hidle, -⟩ := h₁.through hw₁ ht hid
    refine ⟨s, l, r, new, rfl, h, ?_, ?_⟩
    · rw [h.sentTo_eq, h₁.sentTo_eq, hext.sent]
    · rw [hidle hno, hext.held h₁.within, h₁.next_of_waits hw₁ hd₁ hwaits, Channel.held_size,
        List.nil_append, hext.capacity]

/-- The task of a filter, when it runs, receives just these notifications. -/
structure Drains (w : World) (id : SubscriptionId) (items : List Notification) : Prop where
  /-- It takes steps until it waits or has ended. -/
  steps : drainSteps id (w.drainLeft id) w = w.through (w.drainRun id)
  finished : (w.through (w.drainRun id)).drainStep id = none
  received : during (drained id) w (w.drainRun id) = items
  /-- Others may come in between, as long as nothing is sent and the task is not told to stop. -/
  among : ∀ moves, (w.through moves).sentTo id = w.sentTo id →
    ⟨id, false⟩ ∈ (w.through moves).polling.drains → (w.through moves).drainStep id = none →
    during (drained id) w moves = items

theorem Reading.drains (h : w.Reading s l r) (hw : w.Managed) (ht : w.Tended s.id)
    (hd : ⟨s.id, false⟩ ∈ w.polling.drains) : w.Drains s.id (l.buffer.held r.next) where
  steps := drainSteps_eq_through s.id _ w
  finished := (h.drainRun hw hd).2
  received := (h.drainRun hw hd).1
  among := by
    intro moves hsent hd' hwaits
    obtain ⟨l', r', new, h', hext, -, hheld⟩ :=
      h.through hw ht (Polling.mem_ids.mpr (.inr (List.mem_map_of_mem hd')))
    have hnew : new = [] := by
      rwa [h'.sentTo_eq, h.sentTo_eq, hext.sent, List.append_right_eq_self] at hsent
    rw [hheld hnew, h'.next_of_waits (hw.through moves) hd' hwaits, Channel.held_size,
      List.append_nil]

/-- A task that runs receives the newest of what has been sent since it waited last. -/
theorem Seen.drains {moves : List Move} {seen : List Notification} (hseen : Seen w id moves seen)
    (hw : w.Managed) (hnone : w.polling.ids = [])
    (hd : ⟨id, false⟩ ∈ (w.through moves).polling.drains) :
    ∃ since, (w.through moves).sentTo id = seen ++ since ∧
      (w.through moves).Drains id
        (since.rtake (ringSize w.hub.config.deliveryBuffer.toNat)) := by
  obtain ⟨s, l, r, since, rfl, h, hsent, hheld⟩ := hseen.held hw hnone hd
  have hid := Polling.mem_ids.mpr (.inr (List.mem_map_of_mem hd))
  have ht : (w.through moves).Tended s.id :=
    tended_of_created hw ((created_of_mem_ids hw hid).resolve_left (by simp [hnone]))
  refine ⟨since, hsent, ?_⟩
  rw [← hw.through_config moves, ← h.capacity, ← hheld]
  exact h.drains (hw.through moves) ht hd

end EventFanout.World
