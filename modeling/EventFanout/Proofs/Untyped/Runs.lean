/-
EventFanout.Proofs.Untyped.Runs — typed and untyped payloads are interchangeable.

Take a run, and publish the raw JSON of some of its payloads instead of the payloads themselves
(`Action.Retyped`, `Move.Retyped`). Nobody can tell the two runs apart but who reads the events on
the bus itself: after every step the hub, the lines to the clients, the polling filters and what the
hub will do next are the same (`World.Alike`).

Main statement: `through_alike`. Forgetting the types commutes with every action and every move,
and two runs that differ in the forms of payloads come to one run once the types are forgotten.
-/
import EventFanout.Proofs.Polling.Moves
import EventFanout.Proofs.Untyped.Work

namespace EventFanout

/-! ## Runs that differ in the forms of payloads -/

def Action.untyped : Action → Action
  | .publish e => .publish e.untyped
  | a => a

def Move.untyped : Move → Move
  | .act a => .act a.untyped
  | m => m

/-- The second action is the first one, or publishes the raw JSON of what that publishes. -/
inductive Action.Retyped : Action → Action → Prop
  | same (a : Action) : Retyped a a
  | raw (e : Event) : Retyped (.publish e) (.publish e.untyped)

/-- The second move is the first one, or publishes the raw JSON of what that publishes. -/
inductive Move.Retyped : Move → Move → Prop
  | same (m : Move) : Retyped m m
  | raw (e : Event) : Retyped (.act (.publish e)) (.act (.publish e.untyped))

theorem Action.Retyped.untyped_eq {a a' : Action} (h : a.Retyped a') : a'.untyped = a.untyped := by
  cases h with
  | same => rfl
  | raw e => exact congrArg Action.publish e.untyped_untyped

theorem Move.Retyped.untyped_eq {m m' : Move} (h : m.Retyped m') : m'.untyped = m.untyped := by
  cases h with
  | same => rfl
  | raw e => exact congrArg (fun e => Move.act (.publish e)) e.untyped_untyped

/-- Lists whose members correspond under a relation have the same images. -/
theorem map_eq_of_forall₂ {α β : Type} {R : α → α → Prop} {g : α → β}
    (hg : ∀ a a', R a a' → g a' = g a) {l l' : List α} (h : List.Forall₂ R l l') :
    l'.map g = l.map g := by
  induction h with
  | nil => rfl
  | cons ha _ ih => rw [List.map_cons, List.map_cons, hg _ _ ha, ih]

theorem Action.foreign_untyped (p : Polling) (a : Action) : a.untyped.foreign p = a.foreign p := by
  cases a <;> rfl

namespace World

variable (w : World)

/-! ## Actions -/

theorem submit_untyped (s : Subscription) :
    w.untyped.submit s = ((w.submit s).1, (w.submit s).2.untyped) := by
  simp only [submit]
  rw [show w.untyped.hub = w.hub from rfl]
  split
  · rfl
  · split <;> rfl

theorem requestRemoval_untyped (id : SubscriptionId) :
    w.untyped.requestRemoval id = (w.requestRemoval id).untyped := by
  simp only [requestRemoval]
  rw [show w.untyped.hub = w.hub from rfl]
  split <;> rfl

theorem dropReceiver_untyped (id : SubscriptionId) :
    w.untyped.dropReceiver id = (w.dropReceiver id).untyped := by
  simp only [dropReceiver]
  rw [show w.untyped.receiver? id = w.receiver? id from rfl]
  cases w.receiver? id with
  | none => rfl
  | some pair =>
    simp only
    split
    · exact requestRemoval_untyped { w with lines := w.lines.update id Line.dropReceiver } id
    · rfl

theorem create_untyped (kind : Kind) (criteria : Option Criteria) (topic : Topic) (buffer : Nat)
    (attached : Bool) :
    w.untyped.create kind criteria topic buffer attached =
      (w.create kind criteria topic buffer attached).map fun r => (r.1, r.2.untyped) := by
  simp only [create]
  rw [show w.untyped.issued = w.issued from rfl]
  cases Subscription.make (.issued w.issued) kind criteria topic <;> rfl

theorem newSubscription_untyped (kind : Kind) (criteria : Option Criteria) :
    w.untyped.newSubscription kind criteria =
      (w.newSubscription kind criteria).map fun r => (r.1, r.2.untyped) := by
  simp only [newSubscription, create_untyped]
  rw [show w.untyped.checkLimits kind criteria = w.checkLimits kind criteria from rfl]
  cases w.checkLimits kind criteria <;> rfl

theorem askInstalled_untyped (id : SubscriptionId) :
    w.untyped.askInstalled id = (w.askInstalled id).map fun r => (r.1, r.2.untyped) := by
  simp only [askInstalled]
  rw [show w.untyped.receiver? id = w.receiver? id from rfl]
  cases w.receiver? id <;> rfl

theorem tryError_untyped (id : SubscriptionId) :
    w.untyped.tryError id = (w.tryError id).map fun r => (r.1, r.2.untyped) := by
  simp only [tryError]
  rw [show w.untyped.receiver? id = w.receiver? id from rfl]
  cases w.receiver? id <;> rfl

theorem receive_untyped (id : SubscriptionId) :
    w.untyped.receive id = (w.receive id).map fun r => (r.1, r.2.untyped) := by
  simp only [receive]
  rw [show w.untyped.receiver? id = w.receiver? id from rfl]
  cases w.receiver? id <;> rfl

/-- Of what an optional call answers only the world is taken. -/
theorem getD_untyped {α : Type} (answer : Option (α × World)) :
    ((answer.map fun r => (r.1, r.2.untyped)).map (·.2)).getD w.untyped =
      ((answer.map (·.2)).getD w).untyped := by
  cases answer <;> rfl

/-- To untype the bus and what is published on it commutes with every action. -/
theorem act_untyped (a : Action) : w.untyped.act a.untyped = (w.act a).untyped := by
  cases a with
  | publish e => simp only [act, Action.untyped, untyped, Bus.publish_untyped]
  | busSubscribe t => simp only [act, Action.untyped, untyped, Bus.subscribe_untyped]
  | busUnsubscribe t => simp only [act, Action.untyped, untyped, Bus.unsubscribe_untyped]
  | busClose => simp only [act, Action.untyped, untyped, Bus.close_untyped]
  | busReceive h =>
    simp only [act, Action.untyped]
    rw [show w.untyped.hub = w.hub from rfl]
    split
    · rfl
    · simp only [untyped, Bus.receive_untyped]
  | busDrop h =>
    simp only [act, Action.untyped]
    rw [show w.untyped.hub = w.hub from rfl]
    split
    · rfl
    · simp only [untyped, Bus.drop_untyped]
  | make kind criteria topic buffer =>
    simp only [act, Action.untyped, create_untyped]
    cases w.create kind criteria topic buffer false <;> rfl
  | makeWithin kind criteria =>
    simp only [act, Action.untyped, newSubscription_untyped]
    cases w.newSubscription kind criteria <;> rfl
  | submit id =>
    simp only [act, Action.untyped]
    rw [show w.untyped.held = w.held from rfl]
    split
    · simp only [submit_untyped]
    · rfl
  | discard id =>
    simp only [act, Action.untyped, discard]
    rw [show w.untyped.held = w.held from rfl]
    split <;> rfl
  | requestRemoval id => exact requestRemoval_untyped w id
  | askInstalled id =>
    simp only [act, Action.untyped, askInstalled_untyped, getD_untyped]
  | tryError id => simp only [act, Action.untyped, tryError_untyped, getD_untyped]
  | receive id => simp only [act, Action.untyped, receive_untyped, getD_untyped]
  | dropReceiver id => exact dropReceiver_untyped w id
  | signal cancelled =>
    simp only [act, Action.untyped, signal]
    rw [show w.untyped.hub = w.hub from rfl]
    split <;> rfl
  | turn t =>
    simp only [act, Action.untyped, perform_untyped]
    rw [show w.untyped.hub = w.hub from rfl]
    split <;> rfl
  | requestStop => rfl
  | dropSignal => rfl
  | keepBooks polling expired => rfl
  | setClock now => rfl
  | rest => rfl

theorem after_untyped (run : List Action) (w : World) :
    w.untyped.after (run.map Action.untyped) = (w.after run).untyped := by
  induction run generalizing w with
  | nil => rfl
  | cons a rest ih => rw [List.map_cons, after_cons, act_untyped, ih, after_cons]

/-! ## Moves -/

theorem subscribe_untyped (kind : Kind) (criteria : Option Criteria) :
    w.untyped.subscribe kind criteria =
      ((w.subscribe kind criteria).1, (w.subscribe kind criteria).2.untyped) := by
  simp only [subscribe, newSubscription_untyped]
  cases w.newSubscription kind criteria with
  | error e => rfl
  | ok pair =>
    obtain ⟨s, w₁⟩ := pair
    simp only [Except.map, submit_untyped]
    cases w₁.submit s with
    | mk result w₂ =>
      cases result with
      | error e => simp only [dropReceiver_untyped]
      | ok u => rfl

theorem beginFilter_untyped (request : FilterRequest) :
    w.untyped.beginFilter request =
      ((w.beginFilter request).1, (w.beginFilter request).2.untyped) := by
  by_cases hfull : w.hub.config.maxFilters ≤ w.polling.slots
  · have hfull' : w.untyped.hub.config.maxFilters ≤ w.untyped.polling.slots := hfull
    simp only [beginFilter, if_pos hfull, if_pos hfull']
    rfl
  · have hfull' : ¬ w.untyped.hub.config.maxFilters ≤ w.untyped.polling.slots := hfull
    have hsub := subscribe_untyped { w with polling.slots := w.polling.slots + 1 } request.kind
      request.criteria
    simp only [beginFilter, if_neg hfull, if_neg hfull']
    cases h : { w with polling.slots := w.polling.slots + 1 }.subscribe request.kind
      request.criteria with
    | mk result w₁ =>
      rw [h] at hsub
      have hsub' : { w.untyped with polling.slots := w.untyped.polling.slots + 1 }.subscribe
          request.kind request.criteria = (result, w₁.untyped) := hsub
      simp only [hsub']
      cases result <;> rfl

theorem finishFilter_untyped (c : Creation) :
    w.untyped.finishFilter c = ((w.finishFilter c).1, (w.finishFilter c).2.untyped) := by
  simp only [finishFilter, askInstalled_untyped]
  cases w.askInstalled c.id with
  | none => rfl
  | some pair =>
    obtain ⟨answer, w₁⟩ := pair
    cases answer with
    | installed => rfl
    | failed e =>
      simp only [Option.map_some, ← dropReceiver_untyped]
      rfl
    | pending => rfl

theorem poll_untyped (id : SubscriptionId) :
    w.untyped.poll id = ((w.poll id).1, (w.poll id).2.untyped) := by
  simp only [poll]
  rw [show w.untyped.polling = w.polling from rfl]
  cases w.polling.filters.get? id <;> rfl

theorem removeFilter_untyped (id : SubscriptionId) :
    w.untyped.removeFilter id = (w.removeFilter id).untyped := by
  simp only [removeFilter, ← requestRemoval_untyped]
  rfl

theorem uninstallFilter_untyped (id : SubscriptionId) :
    w.untyped.uninstallFilter id = ((w.uninstallFilter id).1, (w.uninstallFilter id).2.untyped) := by
  simp only [uninstallFilter, removeFilter_untyped]
  rw [show w.untyped.polling = w.polling from rfl]
  split <;> rfl

theorem sweep_untyped : w.untyped.sweep = (w.sweep.1, w.sweep.2.untyped) := by
  simp only [sweep]
  rw [show w.untyped.expired = w.expired from rfl,
    foldl_untyped (fun w id => removeFilter_untyped w id)]
  rfl

theorem runSweeper_untyped : w.untyped.runSweeper = w.runSweeper.untyped := by
  simp only [runSweeper]
  rw [show w.untyped.polling = w.polling from rfl, show w.untyped.now = w.now from rfl]
  split
  · exact congrArg (·.2) (sweep_untyped { w with polling.sweepDue := w.nextSweep })
  · rfl

theorem endDrain_untyped (id : SubscriptionId) :
    w.untyped.endDrain id = (w.endDrain id).untyped :=
  dropReceiver_untyped
    { w with polling.drains := w.polling.drains.filter fun d => d.id ≠ id } id

theorem expireDrain_untyped (id : SubscriptionId) :
    w.untyped.expireDrain id = (w.expireDrain id).untyped := by
  simp only [expireDrain, ← endDrain_untyped]
  rw [show w.untyped.polling = w.polling from rfl]
  split <;> rfl

theorem drainStep_untyped (id : SubscriptionId) :
    w.untyped.drainStep id = (w.drainStep id).map untyped := by
  simp only [drainStep, endDrain_untyped, receive_untyped]
  rw [show w.untyped.drain? id = w.drain? id from rfl]
  cases w.drain? id with
  | none => rfl
  | some d =>
    simp only [bind, Option.bind]
    split
    · rfl
    · cases w.receive id with
      | none => rfl
      | some pair =>
        obtain ⟨delivery, w₁⟩ := pair
        cases delivery with
        | notification n => rfl
        | failed e => simp only [Option.map_some, expireDrain_untyped, pure]
        | pending => rfl

theorem move_untyped (m : Move) : w.untyped.move m.untyped = (w.move m).untyped := by
  cases m with
  | act a =>
    simp only [move, Move.untyped, act_untyped, Action.foreign_untyped]
    rw [show w.untyped.polling = w.polling from rfl]
    split <;> rfl
  | create request =>
    simp only [move, Move.untyped, beginFilter_untyped]
    rw [show w.untyped.polling = w.polling from rfl]
    split <;> rfl
  | finish id =>
    simp only [move, Move.untyped, finishFilter_untyped]
    rw [show w.untyped.polling = w.polling from rfl]
    cases w.polling.creations.find? fun c => c.id = id with
    | none => rfl
    | some c =>
      simp only
      cases w.finishFilter c with
      | mk result w₁ => cases result <;> rfl
  | poll id => simp only [move, Move.untyped, poll_untyped]
  | uninstall id => simp only [move, Move.untyped, uninstallFilter_untyped]
  | sweep =>
    simp only [move, Move.untyped, sweep_untyped]
    rw [show w.untyped.polling = w.polling from rfl]
    split <;> rfl
  | tick => exact runSweeper_untyped w
  | drain id =>
    simp only [move, Move.untyped, drainStep_untyped]
    cases w.drainStep id <;> rfl
  | advance time => rfl
  | close =>
    simp only [move, Move.untyped]
    rw [show w.untyped.polling = w.polling from rfl]
    split <;> rfl

theorem through_untyped (moves : List Move) (w : World) :
    w.untyped.through (moves.map Move.untyped) = (w.through moves).untyped := by
  induction moves generalizing w with
  | nil => rfl
  | cons m rest ih => rw [List.map_cons, through_cons, move_untyped, ih, through_cons]

/-! ## The same but for the forms of payloads -/

/-- Two worlds are the same but for the forms of the events on the bus. -/
structure Alike (w w' : World) : Prop where
  /-- The index, the topics, what was published of them, all queues and all counters. -/
  hub : w'.hub = w.hub
  /-- Everything ever delivered, what has been read of it, and the signals. -/
  lines : w'.lines = w.lines
  held : w'.held = w.held
  issued : w'.issued = w.issued
  polling : w'.polling = w.polling
  now : w'.now = w.now
  bus : w'.bus.untyped = w.bus.untyped
  /-- The hub goes on with the same step. -/
  turn : w'.turn? = w.turn?

theorem alike_of_untyped_eq {w w' : World} (h : w'.untyped = w.untyped) : w.Alike w' where
  hub := (congrArg World.hub h :)
  lines := (congrArg World.lines h :)
  held := (congrArg World.held h :)
  issued := (congrArg World.issued h :)
  polling := (congrArg World.polling h :)
  now := (congrArg World.now h :)
  bus := (congrArg World.bus h :)
  turn := by rw [← w'.turn?_untyped, h, w.turn?_untyped]

theorem after_untyped_eq (w : World) {run run' : List Action}
    (h : List.Forall₂ Action.Retyped run run') : (w.after run').untyped = (w.after run).untyped := by
  rw [← after_untyped, ← after_untyped,
    map_eq_of_forall₂ (g := Action.untyped) (fun _ _ => Action.Retyped.untyped_eq) h]

theorem through_untyped_eq {w w' : World} (hw : w'.untyped = w.untyped) {moves moves' : List Move}
    (h : List.Forall₂ Move.Retyped moves moves') :
    (w'.through moves').untyped = (w.through moves).untyped := by
  rw [← through_untyped, ← through_untyped, hw,
    map_eq_of_forall₂ (g := Move.untyped) (fun _ _ => Move.Retyped.untyped_eq) h]

/--
**Typed and untyped payloads are interchangeable.** Let the payloads of any events of a run, in
typed form, be replaced by the raw JSON they are encoded as. Then after every step the two runs are
alike, before a registry of polling filters is opened and after: the same subscriptions are
installed, the same notifications are on every line in the same order, and the same was counted.
A subscription of any kind takes either form of what its kind is about for the same, and reports an
error for either form of what it is not about: the JSON of a header is not that of a transaction,
nor the other way round.
-/
theorem through_alike {bus : Bus} {config : Config} {governor : Governor}
    {before before' : List Action} (hbefore : List.Forall₂ Action.Retyped before before')
    {moves moves' : List Move} (hmoves : List.Forall₂ Move.Retyped moves moves') :
    let w₀ := start bus config governor
    (∀ n, (w₀.after (before.take n)).Alike (w₀.after (before'.take n))) ∧
    (∀ n, ((w₀.after before).openPolling.through (moves.take n)).Alike
      ((w₀.after before').openPolling.through (moves'.take n))) ∧
    (∀ s : Subscription, s.Indifferent) ∧
    (∀ h : Header, Header.ofJson h.toJson = .ok h ∧ Transaction.ofJson h.toJson = .error .shape) ∧
    ∀ t : Transaction, Transaction.ofJson t.toJson = .ok t ∧ Header.ofJson t.toJson = .error .shape := by
  intro w₀
  refine ⟨fun n => ?_, fun n => ?_, fun s => s.indifferent, fun h => ?_, fun t => ?_⟩
  · exact alike_of_untyped_eq (after_untyped_eq w₀ (List.forall₂_take n hbefore))
  · have hopen : (w₀.after before').openPolling.untyped = (w₀.after before).openPolling.untyped :=
      congrArg openPolling (after_untyped_eq w₀ hbefore)
    exact alike_of_untyped_eq (through_untyped_eq hopen (List.forall₂_take n hmoves))
  · exact ⟨Header.ofJson_toJson h, Transaction.ofJson_header h⟩
  · exact ⟨Transaction.ofJson_toJson t, Header.ofJson_transaction t⟩

/-- A transaction and a header are published as raw JSON, on the topic of transactions; a client who
wants transactions is told of the first, and the second is an error, as when they are typed. -/
theorem through_alike_encoded :
    let e : Event := ⟨transactionTopic, .transaction {}⟩
    let odd : Event := ⟨transactionTopic, .header {}⟩
    let opening : List Action := [.makeWithin .pendingTransactions none, .submit (.issued 0),
      .turn .install]
    let read : Action := .turn (.read transactionTopic)
    let w₀ := start (Bus.sized 4) {} .absent
    let typed := (w₀.after (opening ++ [.publish e, read])).openPolling.through
      [.act (.publish odd), .act read]
    let raw := (w₀.after (opening ++ [.publish e.untyped, read])).openPolling.through
      [.act (.publish odd.untyped), .act read]
    typed.Alike raw ∧
      (raw.lines.get? (.issued 0)).map (·.buffer.sent) = some [.hashes [.zero]] ∧
      raw.hub.metrics.notificationsDelivered = 1 ∧ raw.hub.metrics.transientErrors = 1 := by
  intro e odd opening read w₀ typed raw
  have hbefore : List.Forall₂ Action.Retyped (opening ++ [.publish e, read])
      (opening ++ [.publish e.untyped, read]) :=
    .cons (.same _) (.cons (.same _) (.cons (.same _) (.cons (.raw e) (.cons (.same _) .nil))))
  have hmoves : List.Forall₂ Move.Retyped [.act (.publish odd), .act read]
      [.act (.publish odd.untyped), .act read] := .cons (.raw odd) (.cons (.same _) .nil)
  have halike : typed.Alike raw :=
    (@through_alike (Bus.sized 4) {} .absent _ _ hbefore _ _ hmoves).2.1 2
  refine ⟨halike, ?_, ?_, ?_⟩
  · rw [halike.lines]
    decide
  · rw [halike.hub]
    decide
  · rw [halike.hub]
    decide

end World

end EventFanout
