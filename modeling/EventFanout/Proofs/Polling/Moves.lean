/-
EventFanout.Proofs.Polling.Moves — runs of a system with polling filters.

A move is one atomic step of such a system: an action of the hub, its clients or other users
of the bus, one call of the registry, one step of the task of a filter, a tick of the sweeper,
time that passes, or giving the registry up. A creation is two moves, one that takes a slot
and hands the subscription in and one that finishes it, so any number of them may be under way
at once. The receivers of filters belong to their creations and tasks: nobody else calls them
(`Action.foreign`).

Whatever the order, a move begins a creation (`World.Begins`) or comes to some of a few deeds
(`World.Deed`), and each call of the registry has a lemma that says to which.
-/
import EventFanout.Polling.Tasks
import EventFanout.Proofs.Hub.Works
import EventFanout.Proofs.Order
import EventFanout.Proofs.Polling.Books

namespace EventFanout

namespace World

variable {w w' : World}

/-! ## What actions leave alone -/

/-- To count no expired filters is to count nothing. -/
theorem record_none (w : World) : w.record (.filtersExpired 0) = w := by
  simp only [record, Metrics.record, UInt64.add_zero]

def books (w : World) : Polling × Config := (w.polling, w.hub.config)

theorem Works.standing (h : w.Works w') : w'.books = w.books ∧ w'.now = w.now :=
  ⟨Prod.ext h.polling h.config, h.now⟩

theorem requestRemoval_works (w : World) (id : SubscriptionId) : w.Works (w.requestRemoval id) := by
  unfold requestRemoval
  split
  · exact ⟨_, _, _, rfl, rfl⟩
  · exact .refl w

theorem dropReceiver_works (w : World) (id : SubscriptionId) : w.Works (w.dropReceiver id) := by
  unfold dropReceiver
  split
  · exact .refl w
  · split
    · exact Works.trans ⟨_, _, _, rfl, rfl⟩ (requestRemoval_works _ id)
    · exact ⟨_, _, _, rfl, rfl⟩

theorem dropReceiver_polling (w : World) (id : SubscriptionId) :
    (w.dropReceiver id).polling = w.polling := (dropReceiver_works w id).polling

end World

/-- Whether an action keeps off the books of the polling filters. -/
def Action.leavesBooks : Action → Bool
  | .keepBooks .. => false
  | _ => true

namespace World

variable {w w' : World}

/-- Only setting the clock and keeping the books change either. -/
theorem act_standing (w : World) {a : Action} (hbooks : a.leavesBooks = true)
    (hclock : ∀ time, a ≠ .setClock time) : (w.act a).books = w.books ∧ (w.act a).now = w.now := by
  cases a with
  | keepBooks polling expired => cases hbooks
  | setClock time => exact absurd rfl (hclock time)
  | make kind criteria topic buffer =>
    rcases make_cases w kind criteria topic buffer with h | ⟨s, _, h⟩ <;> rw [h] <;>
      exact ⟨rfl, rfl⟩
  | makeWithin kind criteria =>
    rcases makeWithin_cases w kind criteria with h | ⟨s, buffer, _, h⟩ <;> rw [h] <;>
      exact ⟨rfl, rfl⟩
  | submit id =>
    simp only [act]
    split
    · rename_i s _
      rcases submit_cases w s with ⟨_, _, h⟩ | ⟨_, h⟩ | ⟨_, _, h⟩ <;> rw [h] <;> exact ⟨rfl, rfl⟩
    · exact ⟨rfl, rfl⟩
  | discard id =>
    have hact : w.act (.discard id) = (w.discard id).2 := rfl
    rcases discard_cases w id with ⟨_, h⟩ | ⟨_, h⟩ <;> rw [hact, h] <;> exact ⟨rfl, rfl⟩
  | requestRemoval id => exact (requestRemoval_works w id).standing
  | askInstalled id =>
    simp only [act, askInstalled]
    cases w.receiver? id <;> exact ⟨rfl, rfl⟩
  | tryError id =>
    simp only [act, tryError]
    cases w.receiver? id <;> exact ⟨rfl, rfl⟩
  | receive id =>
    simp only [act, receive]
    cases w.receiver? id <;> exact ⟨rfl, rfl⟩
  | dropReceiver id => exact (dropReceiver_works w id).standing
  | signal cancelled =>
    simp only [act, signal]
    split <;> exact ⟨rfl, rfl⟩
  | busReceive h =>
    simp only [act]
    split <;> exact ⟨rfl, rfl⟩
  | busDrop h =>
    simp only [act]
    split <;> exact ⟨rfl, rfl⟩
  | turn t =>
    simp only [act]
    split
    · exact (perform_works w t).standing
    · exact ⟨rfl, rfl⟩
  | _ => exact ⟨rfl, rfl⟩

theorem act_books (w : World) {a : Action} (ha : a.leavesBooks = true) :
    (w.act a).books = w.books := by
  by_cases hclock : ∃ time, a = .setClock time
  · obtain ⟨time, rfl⟩ := hclock
    rfl
  · exact (act_standing w ha fun time h => hclock ⟨time, h⟩).1

theorem act_polling (w : World) {a : Action} (ha : a.leavesBooks = true) :
    (w.act a).polling = w.polling := congrArg Prod.fst (act_books w ha)

/-- Nothing but setting the clock changes it. -/
theorem act_now (w : World) {a : Action} (hclock : ∀ time, a ≠ .setClock time) :
    (w.act a).now = w.now := by
  cases hbooks : a.leavesBooks with
  | true => exact (act_standing w hbooks hclock).2
  | false =>
    cases a with
    | keepBooks polling expired => rfl
    | _ => cases hbooks

/-- The configuration never changes. -/
theorem act_config (w : World) (a : Action) : (w.act a).hub.config = w.hub.config := by
  cases ha : a.leavesBooks with
  | true => exact congrArg Prod.snd (act_books w ha)
  | false =>
    cases a with
    | keepBooks polling expired => rfl
    | _ => cases ha

theorem after_config (w : World) (run : List Action) :
    (w.after run).hub.config = w.hub.config := by
  induction run generalizing w with
  | nil => rfl
  | cons a rest ih => exact (ih (w.act a)).trans (act_config w a)

end World

/-! ## Moves -/

/-- Whether an action is for others to take: the books, the clock, and the receivers of filters
are the registry's own. -/
def Action.foreign (p : Polling) : Action → Bool
  | .keepBooks .. | .setClock _ => false
  | .askInstalled id | .tryError id | .receive id | .dropReceiver id => decide (id ∉ p.ids)
  | _ => true

/-- One atomic step of a system with polling filters. -/
inductive Move where
  /-- Something that the registry has no part in. -/
  | act (a : Action)
  /-- A creation takes a slot and hands its subscription in. -/
  | create (request : FilterRequest)
  /-- A creation is entered or fails, as soon as it has an answer. -/
  | finish (id : SubscriptionId)
  | poll (id : SubscriptionId)
  | uninstall (id : SubscriptionId)
  | sweep
  /-- The sweeper sweeps, if it is time to. -/
  | tick
  /-- The task of a filter takes a step, if it has something to do. -/
  | drain (id : SubscriptionId)
  /-- That many milliseconds pass. -/
  | advance (time : Nat)
  /-- The registry is given up; no creation is under way then. -/
  | close

namespace World

variable {w w' : World}

def move (w : World) : Move → World
  | .act a => if a.foreign w.polling then w.act a else w
  | .create request => if w.polling.live then (w.beginFilter request).2 else w
  | .finish id =>
    match w.polling.creations.find? fun c => c.id = id with
    | none => w
    | some c =>
      match w.finishFilter c with
      | (some _, w') => w'
      | (none, _) => w
  | .poll id => (w.poll id).2
  | .uninstall id => (w.uninstallFilter id).2
  | .sweep => if w.polling.live then w.sweep.2 else w
  | .tick => w.runSweeper
  | .drain id => (w.drainStep id).getD w
  | .advance time => { w with now := w.now + time }
  | .close =>
    if w.polling.live && w.polling.creations.isEmpty then
      { w with polling.live := false, polling.filters := {} }.cancelDrains
    else w

def through (w : World) (moves : List Move) : World := moves.foldl move w

@[simp] theorem through_nil (w : World) : w.through [] = w := rfl

@[simp] theorem through_cons (w : World) (m : Move) (moves : List Move) :
    w.through (m :: moves) = (w.move m).through moves := rfl

theorem through_append (w : World) (moves moves' : List Move) :
    w.through (moves ++ moves') = (w.through moves).through moves' := List.foldl_append

theorem through_concat (w : World) (moves : List Move) (m : Move) :
    w.through (moves ++ [m]) = (w.through moves).move m := through_append w moves [m]

def createdBy (w : World) : Move → Option SubscriptionId
  | .create request => if w.polling.live then (w.beginFilter request).1.toOption else none
  | _ => none

def created (w : World) : List Move → List SubscriptionId
  | [] => []
  | m :: rest => (w.createdBy m).toList ++ created (w.move m) rest

theorem created_append (w : World) (moves moves' : List Move) :
    w.created (moves ++ moves') = w.created moves ++ (w.through moves).created moves' := by
  induction moves generalizing w with
  | nil => rfl
  | cons m rest ih => rw [List.cons_append, created, created, ih, List.append_assoc, through_cons]

/-! ## What moves yield -/

def during {α : Type} (f : World → Move → Option α) (w : World) : List Move → List α
  | [] => []
  | m :: rest => (f w m).toList ++ during f (w.move m) rest

theorem during_append {α : Type} (f : World → Move → Option α) (w : World)
    (moves moves' : List Move) :
    during f w (moves ++ moves') = during f w moves ++ during f (w.through moves) moves' := by
  induction moves generalizing w with
  | nil => rfl
  | cons m rest ih => rw [List.cons_append, during, during, ih, List.append_assoc, through_cons]

theorem during_concat {α : Type} (f : World → Move → Option α) (w : World) (moves : List Move)
    (m : Move) : during f w (moves ++ [m]) = during f w moves ++ (f (w.through moves) m).toList := by
  rw [during_append, during, during, List.append_nil]

/-- What comes of some moves comes of one of them. -/
theorem mem_during {α : Type} {f : World → Move → Option α} {w : World} {x : α} {moves : List Move}
    (h : x ∈ during f w moves) :
    ∃ earlier m later, moves = earlier ++ m :: later ∧ f (w.through earlier) m = some x := by
  induction moves generalizing w with
  | nil => cases h
  | cons m rest ih =>
    rw [during, List.mem_append, Option.mem_toList] at h
    rcases h with h | h
    · exact ⟨[], m, rest, rfl, h⟩
    · obtain ⟨earlier, m', later, rfl, h'⟩ := ih h
      exact ⟨m :: earlier, m', later, rfl, h'⟩

/-! ## What a call of the registry comes to -/

/-- Making a subscription and handing it in: the criteria are refused, or the hub refuses the
subscription, or it waits for its installation. -/
theorem subscribe_cases (w : World) (kind : Kind) (criteria : Option Criteria) :
    (∃ e, w.newSubscription kind criteria = .error e ∧ w.subscribe kind criteria = (.error e, w)) ∨
    (∃ s w₁ e, w.newSubscription kind criteria = .ok (s, w₁) ∧
      (∀ n, e ≠ .tooManyFilters n) ∧ w.subscribe kind criteria =
        (.error e, w.after [.makeWithin kind criteria, .submit s.id, .dropReceiver s.id])) ∨
    (∃ s w₁, w.newSubscription kind criteria = .ok (s, w₁) ∧ w.subscribe kind criteria =
      (.ok s.id, w.after [.makeWithin kind criteria, .submit s.id])) := by
  cases hn : w.newSubscription kind criteria with
  | error e => exact .inl ⟨e, rfl, by simp only [subscribe, hn]⟩
  | ok pair =>
    obtain ⟨s, w₁⟩ := pair
    have hmade : w.act (.makeWithin kind criteria) = w₁ := by simp only [act, hn]
    have hheld : w₁.held.get? s.id = some s := by
      obtain ⟨-, buffer, rfl⟩ := newSubscription_ok hn
      simp [made, Table.get?_set]
    have hsubmit : w₁.act (.submit s.id) = (w₁.submit s).2 := by simp only [act, hheld]
    right
    rcases submit_cases w₁ s with ⟨_, _, h⟩ | ⟨_, h⟩ | ⟨_, _, h⟩
    · right
      refine ⟨s, w₁, rfl, ?_⟩
      rw [after_cons, after_cons, after_nil, hmade, hsubmit]
      simp only [subscribe, hn, h]
    · left
      refine ⟨s, w₁, .lightModeUnsupported s.kind, rfl, by simp, ?_⟩
      rw [after_cons, after_cons, after_cons, after_nil, hmade, hsubmit]
      simp only [subscribe, hn, h]
      rfl
    · left
      refine ⟨s, w₁, .systemStopped, rfl, by simp, ?_⟩
      rw [after_cons, after_cons, after_cons, after_nil, hmade, hsubmit]
      simp only [subscribe, hn, h]
      rfl

/-- What is asked of a receiver is answered by its line. -/
theorem askInstalled_some {id : SubscriptionId} {answer : Installation}
    (h : w.askInstalled id = some (answer, w')) :
    w' = w.act (.askInstalled id) ∧
      ∃ l r, w.receiver? id = some (l, r) ∧ (l.askInstalled r).1 = answer := by
  refine ⟨by simp only [act, h, Option.map_some, Option.getD_some], ?_⟩
  unfold World.askInstalled at h
  cases hr : w.receiver? id with
  | none => simp [hr, bind, Option.bind] at h
  | some pair =>
    obtain ⟨l, r⟩ := pair
    simp only [hr, bind, Option.bind, pure, Option.some.injEq, Prod.mk.injEq] at h
    exact ⟨l, r, rfl, h.1⟩

theorem receive_some {id : SubscriptionId} {d : Delivery} (h : w.receive id = some (d, w')) :
    w' = w.act (.receive id) := by
  simp only [act, h, Option.map_some, Option.getD_some]

/-- A creation is finished by the answer to the question whether its subscription is installed. -/
theorem finishFilter_cases (w : World) (c : Creation) :
    (w.askInstalled c.id = some (.installed, w.act (.askInstalled c.id)) ∧ w.finishFilter c =
      (some (.ok ()), ((w.act (.askInstalled c.id)).endCreation c.id).enterFilter c.id c.request)) ∨
    (∃ e, w.askInstalled c.id = some (.failed e, w.act (.askInstalled c.id)) ∧ w.finishFilter c =
      (some (.error (.subscription e)),
        (((w.act (.askInstalled c.id)).endCreation c.id).releaseSlot).dropReceiver c.id)) ∨
    (w.finishFilter c).1 = none := by
  cases h : w.askInstalled c.id with
  | none => exact .inr (.inr (by simp only [finishFilter, h]))
  | some pair =>
    obtain ⟨answer, w'⟩ := pair
    obtain ⟨rfl, -⟩ := askInstalled_some h
    cases answer with
    | installed => exact .inl ⟨rfl, by simp only [finishFilter, h]⟩
    | failed e => exact .inr (.inl ⟨e, rfl, by simp only [finishFilter, h]⟩)
    | pending => exact .inr (.inr (by simp only [finishFilter, h]))

/-- A step of a task: it waits, or has been told to stop, or collects a notification, or its
subscription has ended. -/
theorem drainStep_cases (w : World) (id : SubscriptionId) :
    w.drainStep id = none ∨
    (⟨id, true⟩ ∈ w.polling.drains ∧ w.drainStep id = some (w.endDrain id)) ∨
    (⟨id, false⟩ ∈ w.polling.drains ∧ ∃ n,
      w.receive id = some (.notification n, w.act (.receive id)) ∧
      w.drainStep id = some ((w.act (.receive id)).collect id n)) ∨
    (⟨id, false⟩ ∈ w.polling.drains ∧ ∃ e,
      w.receive id = some (.failed e, w.act (.receive id)) ∧
      w.drainStep id = some ((w.act (.receive id)).expireDrain id)) := by
  cases hd : w.drain? id with
  | none => exact .inl (by simp [drainStep, hd, bind, Option.bind])
  | some d =>
    obtain ⟨id', cancelled⟩ := d
    have hm : ⟨id', cancelled⟩ ∈ w.polling.drains := List.mem_of_find?_eq_some hd
    obtain rfl : id' = id := by simpa using List.find?_some hd
    cases cancelled with
    | true => exact .inr (.inl ⟨hm, by simp [drainStep, hd, bind, Option.bind]⟩)
    | false =>
      cases hr : w.receive id' with
      | none => exact .inl (by simp [drainStep, hd, bind, Option.bind, hr])
      | some pair =>
        obtain ⟨delivery, w'⟩ := pair
        obtain rfl := receive_some hr
        cases delivery with
        | notification n =>
          exact .inr (.inr (.inl ⟨hm, n, rfl, by simp [drainStep, hd, bind, Option.bind, hr]⟩))
        | failed e =>
          exact .inr (.inr (.inr ⟨hm, e, rfl, by simp [drainStep, hd, bind, Option.bind, hr]⟩))
        | pending => exact .inl (by simp [drainStep, hd, bind, Option.bind, hr])

/-! ## Deeds -/

/-- What moves are made of, but for those that begin a creation. -/
inductive Deed : World → World → Prop
  | call {w : World} {a : Action} : a.foreign w.polling = true → Deed w (w.act a)
  | entered {w : World} {c : Creation} {l : Line} {r : Receiver} {f : Filter} :
      c ∈ w.polling.creations → w.receiver? c.id = some (l, r) →
      (l.askInstalled r).1 = .installed → f.request = c.request →
      Deed w { w.act (.askInstalled c.id) with polling := w.polling.entered c.id f }
  | failed {w : World} {c : Creation} {l : Line} {r : Receiver} {e : SubscriptionError} :
      c ∈ w.polling.creations → w.receiver? c.id = some (l, r) →
      (l.askInstalled r).1 = .failed e →
      Deed w ({ w.act (.askInstalled c.id) with polling := w.polling.failed c.id }.act
        (.dropReceiver c.id))
  | changed {w : World} {id : SubscriptionId} {f f' : Filter} :
      w.polling.filters.get? id = some f → f'.request = f.request →
      Deed w { w with polling := w.polling.changed id f' }
  /-- A task reads from its subscription. -/
  | looked {w : World} {id : SubscriptionId} : id ∈ w.polling.drains.map Drain.id →
      Deed w (w.act (.receive id))
  | removed {w : World} {id : SubscriptionId} : id ∈ w.polling.filters.keys →
      Deed w ({ w with polling := w.polling.removed id }.act (.requestRemoval id))
  | expired {w : World} {id : SubscriptionId} : id ∈ w.polling.filters.keys →
      Deed w ({ w with polling := w.polling.expired id }.act (.dropReceiver id))
  | left {w : World} {id : SubscriptionId} : id ∈ w.polling.drains.map Drain.id →
      ⟨id, true⟩ ∈ w.polling.drains ∨ id ∉ w.polling.filters.keys →
      Deed w ({ w with polling := w.polling.left id }.act (.dropReceiver id))
  /-- Time passes, the next sweep is due at another time, or expired filters are counted. -/
  | clocked {w : World} (due now : Nat) (expired : UInt64) :
      Deed w ({ w with polling.sweepDue := due, now }.record (.filtersExpired expired))
  | closed {w : World} : w.polling.creations = [] →
      Deed w { w with polling := w.polling.closed }

abbrev Deeds : World → World → Prop := Relation.ReflTransGen Deed

/-- A creation begins: its subscription has been made and waits for its installation, and a slot
is taken for it. -/
structure Begins (w : World) (request : FilterRequest) (s : Subscription) (w' : World) : Prop where
  live : w.polling.live = true
  free : w.polling.slots < w.hub.config.maxFilters
  made : ∃ w₁, w.newSubscription request.kind request.criteria = .ok (s, w₁)
  eq : w' = { w.after [.makeWithin request.kind request.criteria, .submit s.id] with
    polling := w.polling.begun ⟨s.id, request⟩ }

/-! ### Creating -/

-- The books may be written before a subscription is made and handed in, or after.

theorem newSubscription_write (w : World) (p : Polling) (kind : Kind)
    (criteria : Option Criteria) :
    { w with polling := p }.newSubscription kind criteria =
      (w.newSubscription kind criteria).map fun r => (r.1, { r.2 with polling := p }) := by
  have hlimits : { w with polling := p }.checkLimits kind criteria = w.checkLimits kind criteria :=
    rfl
  unfold newSubscription
  rw [hlimits]
  cases w.checkLimits kind criteria with
  | error e => rfl
  | ok u =>
    simp only [bind, Except.bind, create]
    cases Subscription.make (.issued w.issued) kind criteria kind.topic with
    | error e => rfl
    | ok s => rfl

theorem submit_write (w : World) (p : Polling) (s : Subscription) :
    { w with polling := p }.submit s = ((w.submit s).1, { (w.submit s).2 with polling := p }) := by
  unfold submit
  simp only
  split
  · rfl
  · split <;> rfl

theorem dropReceiver_write (w : World) (p : Polling) (id : SubscriptionId) :
    { w with polling := p }.dropReceiver id = { w.dropReceiver id with polling := p } := by
  have hreceiver : { w with polling := p }.receiver? id = w.receiver? id := rfl
  unfold dropReceiver
  rw [hreceiver]
  cases w.receiver? id with
  | none => rfl
  | some pair =>
    simp only [requestRemoval]
    split
    · split <;> rfl
    · rfl

theorem subscribe_write (w : World) (p : Polling) (kind : Kind) (criteria : Option Criteria) :
    { w with polling := p }.subscribe kind criteria =
      ((w.subscribe kind criteria).1, { (w.subscribe kind criteria).2 with polling := p }) := by
  unfold subscribe
  rw [newSubscription_write]
  cases w.newSubscription kind criteria with
  | error e => rfl
  | ok pair =>
    obtain ⟨s, w₁⟩ := pair
    simp only [Except.map, submit_write]
    cases h : w₁.submit s with
    | mk result w₂ =>
      cases result with
      | error e => simp only [dropReceiver_write]
      | ok u => rfl

/-- A slot that is taken and given back leaves no trace on the books. -/
theorem reserved_released {p : Polling} (h : w.polling = p) :
    releaseSlot { w with polling := { p with slots := p.slots + 1 } } = w := by
  subst h
  simp only [releaseSlot, UInt64.add_sub_cancel]

-- Nobody is refused for the number of filters but by the registry.

theorem validate_error {c : Criteria} {topics addresses : Nat} {e : FilterError}
    (h : c.validate topics addresses = .error e) (n : Nat) : e ≠ .tooManyFilters n := by
  unfold Criteria.validate at h
  repeat' split at h
  all_goals cases h
  all_goals simp

theorem admitCriteria_error {kind : Kind} {criteria : Option Criteria} {e : FilterError}
    (h : Subscription.admitCriteria kind criteria = .error e) (n : Nat) :
    e ≠ .tooManyFilters n := by
  unfold Subscription.admitCriteria at h
  split at h
  · cases h
  · split at h
    · rename_i c _
      cases hv : c.validate maxTopicSlots (UInt64.size - 1) with
      | error e' =>
        rw [hv] at h
        cases h
        exact validate_error hv n
      | ok u =>
        rw [hv] at h
        cases h
    · split at h
      · cases h
      · cases h
        simp

theorem create_error {kind : Kind} {criteria : Option Criteria} {topic : Topic} {buffer : Nat}
    {attached : Bool} {e : FilterError}
    (h : w.create kind criteria topic buffer attached = .error e) (n : Nat) :
    e ≠ .tooManyFilters n := by
  unfold create Subscription.make at h
  cases hc : Subscription.admitCriteria kind criteria with
  | error e' =>
    simp only [hc, bind, Except.bind, Except.error.injEq] at h
    subst h
    exact admitCriteria_error hc n
  | ok criteria' =>
    simp only [hc, bind, Except.bind] at h
    split at h
    · rename_i hblank
      split at hblank
      · cases hblank
        cases h
        simp
      · cases hblank
    · cases h

theorem newSubscription_error {kind : Kind} {criteria : Option Criteria} {e : FilterError}
    (h : w.newSubscription kind criteria = .error e) (n : Nat) : e ≠ .tooManyFilters n := by
  unfold newSubscription at h
  cases hl : w.checkLimits kind criteria with
  | error e' =>
    simp only [hl, bind, Except.bind, Except.error.injEq] at h
    subst h
    unfold checkLimits at hl
    split at hl
    · split at hl
      · exact validate_error hl n
      · cases hl
    · cases hl
  | ok u =>
    simp only [hl, bind, Except.bind] at h
    exact create_error h n

/-- A creation finds no slot; or it comes to nothing, with the books as they were; or it is under
way. -/
theorem beginFilter_cases (w : World) (request : FilterRequest) :
    (w.hub.config.maxFilters ≤ w.polling.slots ∧
      w.beginFilter request = (.error (.tooManyFilters w.hub.config.maxFilters.toNat), w)) ∨
    (w.polling.slots < w.hub.config.maxFilters ∧
      ∃ e w', w.beginFilter request = (.error e, w') ∧ (∀ n, e ≠ .tooManyFilters n) ∧
        w'.polling = w.polling ∧ (w' = w ∨ ∃ s w₁,
          w.newSubscription request.kind request.criteria = .ok (s, w₁) ∧
          w' = w.after [.makeWithin request.kind request.criteria, .submit s.id,
            .dropReceiver s.id])) ∨
    (w.polling.slots < w.hub.config.maxFilters ∧
      ∃ s w₁, w.newSubscription request.kind request.criteria = .ok (s, w₁) ∧
        w.beginFilter request = (.ok s.id,
          { w.after [.makeWithin request.kind request.criteria, .submit s.id] with
            polling := w.polling.begun ⟨s.id, request⟩ })) := by
  by_cases hfull : w.hub.config.maxFilters ≤ w.polling.slots
  · exact .inl ⟨hfull, by simp only [beginFilter, if_pos hfull]⟩
  · right
    have hfree : w.polling.slots < w.hub.config.maxFilters := UInt64.not_le.mp hfull
    have hwrite := subscribe_write w { w.polling with slots := w.polling.slots + 1 } request.kind
      request.criteria
    rcases subscribe_cases w request.kind request.criteria with
      ⟨e, hn, h⟩ | ⟨s, w₁, e, hn, he, h⟩ | ⟨s, w₁, hn, h⟩ <;> rw [h] at hwrite
    · refine .inl ⟨hfree, e, w, ?_, newSubscription_error hn, rfl, .inl rfl⟩
      simp only [beginFilter, if_neg hfull, hwrite, reserved_released]
    · have hbooks : (w.after [.makeWithin request.kind request.criteria, .submit s.id,
          .dropReceiver s.id]).polling = w.polling := by
        simp only [after_cons, after_nil]
        rw [act_polling _ rfl, act_polling _ rfl, act_polling _ rfl]
      refine .inl ⟨hfree, e, _, ?_, he, hbooks, .inr ⟨s, w₁, hn, rfl⟩⟩
      simp only [beginFilter, if_neg hfull, hwrite, reserved_released hbooks]
    · refine .inr ⟨hfree, s, w₁, hn, ?_⟩
      simp only [beginFilter, if_neg hfull, hwrite]
      rfl

end World

end EventFanout
