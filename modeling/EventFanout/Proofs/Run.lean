/-
EventFanout.Proofs.Run — runs of the world, one atomic action after another.

An action is one call of a client, one call of another user of the bus, one step of the
hub's work, or some book-keeping of the polling filters. `World.act` carries it out, and
`World.after` a list of them, which is a run. Calls that others can break into are not
one action but several: making a subscription and handing it in are two. Carried out in
one go such calls are runs all the same (`subscribe_after`), and so is what a hub does
until it rests (`runHub_after`).

Nothing is assumed about the order. In particular the hub may take any step it has
ground for, whichever of its queues it ought to look at first; so what is proved of all
runs holds under every policy of choosing.
-/
import EventFanout.Hub.Calls
import EventFanout.Hub.Turn
import EventFanout.Proofs.Hub.Evolution

namespace EventFanout

/-- Whether a handle is one the hub reads a topic through. Nobody else has it. -/
def Hub.owns (h : Hub) (hd : Handle) : Bool := h.feeds.values.any fun f => f.reader = hd.reader

inductive Action where
  -- other users of the bus
  | publish (event : Event)
  | busSubscribe (topic : Topic)
  | busUnsubscribe (topic : Topic)
  | busClose
  | busReceive (handle : Handle)
  | busDrop (handle : Handle)
  -- clients of the hub
  | make (kind : Kind) (criteria : Option Criteria) (topic : Topic) (buffer : Nat)
  | makeWithin (kind : Kind) (criteria : Option Criteria)
  | submit (id : SubscriptionId)
  | discard (id : SubscriptionId)
  | requestRemoval (id : SubscriptionId)
  | askInstalled (id : SubscriptionId)
  | tryError (id : SubscriptionId)
  | receive (id : SubscriptionId)
  | dropReceiver (id : SubscriptionId)
  | requestStop
  | signal (cancelled : Bool)
  | dropSignal
  -- the polling filters and the clock
  | keepBooks (polling : Polling) (expired : UInt64)
  | setClock (now : Nat)
  -- the hub
  | turn (step : Turn)
  | rest

/-- Whether an action leaves the bus as it is, whatever it comes to. -/
def Action.leavesBus : Action → Bool
  | .publish _ | .busSubscribe _ | .busUnsubscribe _ | .busClose | .busReceive _ | .busDrop _
  | .turn _ => false
  | _ => true

theorem Hub.SameLoop.refl (h : Hub) : h.SameLoop h := ⟨rfl, rfl, rfl, rfl, rfl, rfl⟩

theorem Hub.SameLoop.trans {h₀ h₁ h₂ : Hub} (h₀₁ : h₀.SameLoop h₁) (h₁₂ : h₁.SameLoop h₂) :
    h₀.SameLoop h₂ where
  index := h₁₂.index.trans h₀₁.index
  topics := h₁₂.topics.trans h₀₁.topics
  feeds := h₁₂.feeds.trans h₀₁.feeds
  view := h₁₂.view.trans h₀₁.view
  ledger := h₁₂.ledger.trans h₀₁.ledger
  running := h₁₂.running.trans h₀₁.running

namespace World

/-- Carries an action out; one that there is no ground for changes nothing. -/
def act (w : World) : Action → World
  | .publish e => { w with bus := (w.bus.publish e).2 }
  | .busSubscribe t => { w with bus := (w.bus.subscribe t).2 }
  | .busUnsubscribe t => { w with bus := (w.bus.unsubscribe t).2 }
  | .busClose => { w with bus := w.bus.close }
  | .busReceive h => if w.hub.owns h then w else { w with bus := (w.bus.receive h).2 }
  | .busDrop h => if w.hub.owns h then w else { w with bus := w.bus.drop h }
  | .make kind criteria topic buffer =>
    match w.create kind criteria topic buffer false with
    | .ok (_, w) => w
    | .error _ => w
  | .makeWithin kind criteria =>
    match w.newSubscription kind criteria with
    | .ok (_, w) => w
    | .error _ => w
  | .submit id =>
    match w.held.get? id with
    | some s => (w.submit s).2
    | none => w
  | .discard id => (w.discard id).2
  | .requestRemoval id => w.requestRemoval id
  | .askInstalled id => ((w.askInstalled id).map (·.2)).getD w
  | .tryError id => ((w.tryError id).map (·.2)).getD w
  | .receive id => ((w.receive id).map (·.2)).getD w
  | .dropReceiver id => w.dropReceiver id
  | .requestStop => w.requestStop
  | .signal cancelled => (w.signal cancelled).2
  | .dropSignal => w.dropSignal
  | .keepBooks polling expired => { w with polling }.record (.filtersExpired expired)
  | .setClock now => { w with now }
  | .turn t => if w.hub.running then w.perform t else w
  | .rest => { w with hub.roused := false }

def after (w : World) (run : List Action) : World := run.foldl act w

@[simp] theorem after_nil (w : World) : w.after [] = w := rfl

@[simp] theorem after_cons (w : World) (a : Action) (run : List Action) :
    w.after (a :: run) = (w.act a).after run := rfl

theorem after_append (w : World) (run run' : List Action) :
    w.after (run ++ run') = (w.after run).after run' := List.foldl_append

theorem after_concat (w : World) (run : List Action) (a : Action) :
    w.after (run ++ [a]) = (w.after run).act a := after_append w run [a]

/-! ## What a run yields -/

def along {α : Type} (f : World → Action → Option α) (w : World) : List Action → List α
  | [] => []
  | a :: run => (f w a).toList ++ along f (w.act a) run

theorem along_append {α : Type} (f : World → Action → Option α) (w : World)
    (run run' : List Action) :
    along f w (run ++ run') = along f w run ++ along f (w.after run) run' := by
  induction run generalizing w with
  | nil => rfl
  | cons a rest ih => rw [List.cons_append, along, along, ih, List.append_assoc, after_cons]

theorem along_concat {α : Type} (f : World → Action → Option α) (w : World) (run : List Action)
    (a : Action) : along f w (run ++ [a]) = along f w run ++ (f (w.after run) a).toList := by
  rw [along_append, along, along, List.append_nil]

/-- What comes of a run comes of one of its actions. -/
theorem mem_along {α : Type} {f : World → Action → Option α} {w : World} {run : List Action} {x : α}
    (h : x ∈ along f w run) :
    ∃ earlier a later, run = earlier ++ a :: later ∧ f (w.after earlier) a = some x := by
  induction run generalizing w with
  | nil => cases h
  | cons a rest ih =>
    rw [along, List.mem_append, Option.mem_toList] at h
    rcases h with h | h
    · exact ⟨[], a, rest, rfl, h⟩
    · obtain ⟨earlier, a', later, rfl, h'⟩ := ih h
      exact ⟨a :: earlier, a', later, rfl, h'⟩

/-- Two runs of readings agree where every action is read alike. -/
theorem along_congr {α : Type} {f g : World → Action → Option α} {w : World} {run : List Action}
    (h : ∀ earlier a, earlier ++ [a] <+: run → f (w.after earlier) a = g (w.after earlier) a) :
    along f w run = along g w run := by
  induction run generalizing w with
  | nil => rfl
  | cons a rest ih =>
    have hrest : ∀ earlier b, earlier ++ [b] <+: rest →
        f ((w.act a).after earlier) b = g ((w.act a).after earlier) b := by
      intro earlier b hpre
      exact h (a :: earlier) b (List.cons_prefix_cons.mpr ⟨rfl, hpre⟩)
    have hhead : f w a = g w a := h [] a (List.cons_prefix_cons.mpr ⟨rfl, List.nil_prefix⟩)
    rw [along, along, hhead, ih hrest]

theorem along_map {α β : Type} (f : World → Action → Option α) (k : α → β) (w : World)
    (run : List Action) :
    along (fun w a => (f w a).map k) w run = (along f w run).map k := by
  induction run generalizing w with
  | nil => rfl
  | cons a rest ih => rw [along, along, ih, List.map_append, Option.toList_map]

/-! ## Making a subscription -/

/-- The world in which a subscription has been made and is held. -/
def made (w : World) (s : Subscription) (buffer : Nat) (attached : Bool) : World :=
  { w with
    lines := w.lines.set s.id (.new s.kind buffer attached)
    held := w.held.set s.id s
    issued := w.issued + 1 }

theorem make_eq {id : SubscriptionId} {kind : Kind} {criteria : Option Criteria} {topic : Topic}
    {s : Subscription} (h : Subscription.make id kind criteria topic = .ok s) :
    s.id = id ∧ s.kind = kind ∧ s.topic = topic := by
  unfold Subscription.make at h
  cases hc : Subscription.admitCriteria kind criteria with
  | error e => simp [hc, bind, Except.bind] at h
  | ok c =>
    simp only [hc, bind, Except.bind] at h
    split at h
    · cases h
    · cases h
      exact ⟨rfl, rfl, rfl⟩

/-- A subscription keeps the criteria that were admitted. -/
theorem admitCriteria_of_make {id : SubscriptionId} {s : Subscription} {kind : Kind}
    {criteria : Option Criteria} {topic : Topic}
    (h : Subscription.make id kind criteria topic = .ok s) :
    Subscription.admitCriteria kind criteria = .ok s.criteria := by
  unfold Subscription.make at h
  cases hc : Subscription.admitCriteria kind criteria with
  | error e => simp [hc, bind, Except.bind] at h
  | ok c =>
    simp only [hc, bind, Except.bind] at h
    split at h
    · cases h
    · cases h
      rfl

theorem create_ok {w w' : World} {kind : Kind} {criteria : Option Criteria} {topic : Topic}
    {buffer : Nat} {attached : Bool} {s : Subscription}
    (h : w.create kind criteria topic buffer attached = .ok (s, w')) :
    s.id = .issued w.issued ∧ w' = w.made s buffer attached := by
  unfold create at h
  cases hm : Subscription.make (.issued w.issued) kind criteria topic with
  | error e => simp [hm, bind, Except.bind] at h
  | ok s' =>
    simp only [hm, bind, Except.bind, pure, Except.pure, Except.ok.injEq, Prod.mk.injEq] at h
    obtain ⟨rfl, rfl⟩ := h
    obtain ⟨hid, hk, -⟩ := make_eq hm
    exact ⟨hid, by rw [made, hk]⟩

/-- Either way of making a subscription holds a new one, or changes nothing. -/
theorem make_cases (w : World) (kind : Kind) (criteria : Option Criteria) (topic : Topic)
    (buffer : Nat) :
    w.act (.make kind criteria topic buffer) = w ∨
      ∃ s, s.id = .issued w.issued ∧
        w.act (.make kind criteria topic buffer) = w.made s buffer false := by
  simp only [act]
  split
  · rename_i s w' h
    obtain ⟨hid, rfl⟩ := create_ok h
    exact .inr ⟨s, hid, rfl⟩
  · exact .inl rfl

theorem newSubscription_ok {w w' : World} {kind : Kind} {criteria : Option Criteria}
    {s : Subscription} (h : w.newSubscription kind criteria = .ok (s, w')) :
    s.id = .issued w.issued ∧ ∃ buffer, w' = w.made s buffer true := by
  unfold newSubscription at h
  cases hl : w.checkLimits kind criteria with
  | error e => simp [hl, bind, Except.bind] at h
  | ok u =>
    simp only [hl, bind, Except.bind] at h
    obtain ⟨hid, rfl⟩ := create_ok h
    exact ⟨hid, _, rfl⟩

theorem makeWithin_cases (w : World) (kind : Kind) (criteria : Option Criteria) :
    w.act (.makeWithin kind criteria) = w ∨
      ∃ s buffer, s.id = .issued w.issued ∧
        w.act (.makeWithin kind criteria) = w.made s buffer true := by
  simp only [act]
  split
  · rename_i s w' h
    obtain ⟨hid, buffer, rfl⟩ := newSubscription_ok h
    exact .inr ⟨s, buffer, hid, rfl⟩
  · exact .inl rfl

/-! ## Handing in and giving up -/

/-- A subscription that is handed in waits for its installation, or its line is closed. -/
theorem submit_cases (w : World) (s : Subscription) :
    ((w.hub.config.lightMode && s.kind.requiresFullNode) = false ∧ w.hub.running = true ∧
      w.submit s = (.ok (), { w with
        held := w.held.erase s.id, hub.installs := w.hub.installs ++ [s] })) ∨
    ((w.hub.config.lightMode && s.kind.requiresFullNode) = true ∧
      w.submit s = (.error (.lightModeUnsupported s.kind),
        ({ w with held := w.held.erase s.id }.record .rejected).closeLine s.id
          (.rejected (.lightMode s.kind)))) ∨
    ((w.hub.config.lightMode && s.kind.requiresFullNode) = false ∧ w.hub.running = false ∧
      w.submit s = (.error .systemStopped,
        { w with held := w.held.erase s.id }.closeLine s.id .shutdown)) := by
  unfold submit
  by_cases hl : (w.hub.config.lightMode && s.kind.requiresFullNode) = true
  · exact .inr (.inl ⟨hl, if_pos hl⟩)
  · have hl' : (w.hub.config.lightMode && s.kind.requiresFullNode) = false := by simpa using hl
    by_cases hr : w.hub.running = true
    · exact .inl ⟨hl', hr, (if_neg hl).trans (if_pos hr)⟩
    · exact .inr (.inr ⟨hl', by simpa using hr, (if_neg hl).trans (if_neg hr)⟩)

theorem discard_cases (w : World) (id : SubscriptionId) :
    (w.held.contains id = false ∧ (w.discard id).2 = w) ∨
    (w.held.contains id = true ∧ (w.discard id).2 =
      { w with held := w.held.erase id, lines := w.lines.update id Line.abandon }) := by
  unfold discard
  split
  · rename_i h
    exact .inr ⟨h, rfl⟩
  · rename_i h
    exact .inl ⟨by simpa using h, rfl⟩

/-! ## Actions as steps of the loop -/

def requested (w : World) : Action → Option SubscriptionId
  | .requestRemoval id => if w.hub.running then some id else none
  | .dropReceiver id =>
    match w.receiver? id with
    | some (_, r) => if r.attached && w.hub.running then some id else none
    | none => none
  | _ => none

end World

/-- What others can do to a hub: give it work to come to, and have something counted that is
neither an installation nor a registration. -/
structure Hub.Called (asked : Option SubscriptionId) (h h' : Hub) : Prop where
  loop : h.SameLoop h'
  installs : h'.installs = h.installs ∨ h.running = true ∧ ∃ s, h'.installs = h.installs ++ [s]
  removals : h'.removals = h.removals ++ asked.toList
  metrics : ∃ rejected filtersExpired, h'.metrics = { h.metrics with rejected, filtersExpired }

theorem Hub.Called.refl (h : Hub) : h.Called none h where
  loop := .refl h
  installs := .inl rfl
  removals := (List.append_nil _).symm
  metrics := ⟨_, _, rfl⟩

namespace World

theorem requestRemoval_hub (w : World) (id : SubscriptionId) :
    w.hub.Called (if w.hub.running then some id else none) (w.requestRemoval id).hub := by
  unfold requestRemoval
  split
  · exact ⟨⟨rfl, rfl, rfl, rfl, rfl, rfl⟩, .inl rfl, rfl, _, _, rfl⟩
  · exact .refl _

theorem submit_hub (w : World) (s : Subscription) :
    w.hub.Called none (w.submit s).2.hub := by
  rcases submit_cases w s with ⟨_, hr, h⟩ | ⟨_, h⟩ | ⟨_, _, h⟩
  · rw [h]
    exact ⟨⟨rfl, rfl, rfl, rfl, rfl, rfl⟩, .inr ⟨hr, s, rfl⟩, (List.append_nil _).symm, _, _, rfl⟩
  · rw [h]
    exact ⟨⟨rfl, rfl, rfl, rfl, rfl, rfl⟩, .inl rfl, (List.append_nil _).symm, _, _, rfl⟩
  · rw [h]
    exact .refl _

theorem dropReceiver_hub (w : World) (id : SubscriptionId) :
    w.hub.Called (w.requested (.dropReceiver id)) (w.dropReceiver id).hub := by
  simp only [requested, dropReceiver]
  cases w.receiver? id with
  | none => exact .refl _
  | some pair =>
    cases hr : pair.2.attached with
    | true =>
      simp only [hr, Bool.true_and, if_true]
      exact requestRemoval_hub { w with lines := w.lines.update id Line.dropReceiver } id
    | false =>
      simp only [hr, Bool.false_and, Bool.false_eq_true, if_false]
      exact .refl _

/-- What is no step of the hub is a call: it keeps off what only the loop writes. -/
theorem act_hub (w : World) {a : Action} (ha : ∀ t, a ≠ .turn t) :
    w.hub.Called (w.requested a) (w.act a).hub := by
  cases a with
  | turn t => exact absurd rfl (ha t)
  | make kind criteria topic buffer =>
    rcases make_cases w kind criteria topic buffer with h | ⟨s, _, h⟩ <;> rw [h] <;>
      exact .refl _
  | makeWithin kind criteria =>
    rcases makeWithin_cases w kind criteria with h | ⟨s, buffer, _, h⟩ <;> rw [h] <;>
      exact .refl _
  | submit id =>
    simp only [act]
    split
    · exact submit_hub w _
    · exact .refl _
  | discard id =>
    rcases discard_cases w id with ⟨_, h⟩ | ⟨_, h⟩ <;> simp only [act, h] <;> exact .refl _
  | requestRemoval id => exact requestRemoval_hub w id
  | dropReceiver id => exact dropReceiver_hub w id
  | askInstalled id =>
    simp only [act, askInstalled]
    cases w.receiver? id <;> exact .refl _
  | tryError id =>
    simp only [act, tryError]
    cases w.receiver? id <;> exact .refl _
  | receive id =>
    simp only [act, receive]
    cases w.receiver? id <;> exact .refl _
  | signal cancelled =>
    simp only [act, signal]
    split
    · exact ⟨⟨rfl, rfl, rfl, rfl, rfl, rfl⟩, .inl rfl, (List.append_nil _).symm, _, _, rfl⟩
    · exact .refl _
  | busReceive h =>
    simp only [act]
    split <;> exact .refl _
  | busDrop h =>
    simp only [act]
    split <;> exact .refl _
  | _ => exact ⟨⟨rfl, rfl, rfl, rfl, rfl, rfl⟩, .inl rfl, (List.append_nil _).symm, _, _, rfl⟩

theorem act_sameLoop (w : World) {a : Action} (ha : ∀ t, a ≠ .turn t) :
    w.hub.SameLoop (w.act a).hub := (act_hub w ha).loop

theorem act_bus (w : World) {a : Action} (ha : a.leavesBus = true) : (w.act a).bus = w.bus := by
  cases a with
  | make kind criteria topic buffer =>
    rcases make_cases w kind criteria topic buffer with h | ⟨s, _, h⟩ <;> rw [h]
    rfl
  | makeWithin kind criteria =>
    rcases makeWithin_cases w kind criteria with h | ⟨s, buffer, _, h⟩ <;> rw [h]
    rfl
  | submit id =>
    simp only [act]
    split
    · rename_i s _
      rcases submit_cases w s with ⟨_, _, h⟩ | ⟨_, h⟩ | ⟨_, _, h⟩ <;> rw [h] <;> rfl
    · rfl
  | discard id =>
    rcases discard_cases w id with ⟨_, h⟩ | ⟨_, h⟩ <;> simp only [act, h]
  | requestRemoval id =>
    simp only [act, requestRemoval]
    split <;> rfl
  | askInstalled id =>
    simp only [act, askInstalled]
    cases w.receiver? id <;> rfl
  | tryError id =>
    simp only [act, tryError]
    cases w.receiver? id <;> rfl
  | receive id =>
    simp only [act, receive]
    cases w.receiver? id <;> rfl
  | dropReceiver id =>
    simp only [act, dropReceiver]
    split
    · rfl
    · split
      · simp only [requestRemoval]
        split <;> rfl
      · rfl
  | signal cancelled =>
    simp only [act, signal]
    split <;> rfl
  | requestStop => rfl
  | dropSignal => rfl
  | keepBooks polling expired => rfl
  | setClock now => rfl
  | rest => rfl
  | _ => cases ha

/-- A step of the hub is one operation of its loop, after the request has left its queue. -/
theorem perform_evolves {w : World} (hr : w.hub.running = true) (t : Turn) :
    Evolves w (w.perform t) := by
  cases t with
  | stop => exact .single (.shutdown hr)
  | install =>
    simp only [perform]
    split
    · exact .refl
    · rename_i s rest _
      have hpop : Step w { w with hub.installs := rest } := .others ⟨rfl, rfl, rfl, rfl, rfl, rfl⟩
      exact (Relation.ReflTransGen.single hpop).tail (.install s hr)
  | remove =>
    simp only [perform]
    split
    · exact .refl
    · rename_i id rest _
      have hpop : Step w { w with hub.removals := rest } := .others ⟨rfl, rfl, rfl, rfl, rfl, rfl⟩
      exact (Relation.ReflTransGen.single hpop).tail (.uninstall id .unsubscribed hr)
  | read topic =>
    simp only [perform]
    split
    · exact .refl
    · rename_i item bus _
      have hread : Step w { w with bus } := .others ⟨rfl, rfl, rfl, rfl, rfl, rfl⟩
      exact (Relation.ReflTransGen.single hread).tail (.dispatch topic item hr)

theorem act_evolves (w : World) (a : Action) : Evolves w (w.act a) := by
  by_cases ha : ∃ t, a = .turn t
  · obtain ⟨t, rfl⟩ := ha
    simp only [act]
    split
    · rename_i hr
      exact perform_evolves hr t
    · exact .refl
  · exact .single (.others (act_sameLoop w fun t h => ha ⟨t, h⟩))

theorem after_evolves (w : World) (run : List Action) : Evolves w (w.after run) := by
  induction run generalizing w with
  | nil => exact .refl
  | cons a rest ih => exact (act_evolves w a).trans (ih (w.act a))

theorem after_sound {w : World} (hs : w.hub.Sound) (run : List Action) :
    (w.after run).hub.Sound := (after_evolves w run).sound hs

/-! ## Calls and work of several actions -/

/-- Making a subscription and handing it in is a run. -/
theorem subscribe_after (w : World) (kind : Kind) (criteria : Option Criteria) :
    ∃ run, (w.subscribe kind criteria).2 = w.after run := by
  unfold subscribe
  cases hn : w.newSubscription kind criteria with
  | error e => exact ⟨[], rfl⟩
  | ok pair =>
    obtain ⟨s, w'⟩ := pair
    have hmade : w.act (.makeWithin kind criteria) = w' := by simp only [act, hn]
    have hheld : w'.held.get? s.id = some s := by
      obtain ⟨-, buffer, rfl⟩ := newSubscription_ok hn
      simp [made, Table.get?_set]
    have hsubmit : w'.act (.submit s.id) = (w'.submit s).2 := by simp only [act, hheld]
    cases hs : w'.submit s with
    | mk result w'' =>
      rw [hs] at hsubmit
      cases result with
      | ok u =>
        refine ⟨[.makeWithin kind criteria, .submit s.id], ?_⟩
        simp only [after_cons, after_nil, hmade, hsubmit, hs]
      | error e =>
        refine ⟨[.makeWithin kind criteria, .submit s.id, .dropReceiver s.id], ?_⟩
        simp only [after_cons, after_nil, hmade, hsubmit, hs]
        rfl

/-- A hub that has a step to take runs. -/
theorem running_of_turn? {w : World} {t : Turn} (h : w.turn? = some t) :
    w.hub.running = true := by
  unfold turn? at h
  split at h
  · cases h
  · rename_i hr
    simpa using hr

theorem takeTurns_after (n : Nat) (w : World) : ∃ run, takeTurns n w = w.after run := by
  induction n generalizing w with
  | zero => exact ⟨[], rfl⟩
  | succ n ih =>
    rw [takeTurns]
    cases ht : w.turn? with
    | none => exact ⟨[], rfl⟩
    | some t =>
      obtain ⟨run, h⟩ := ih (w.perform t)
      refine ⟨.turn t :: run, ?_⟩
      rw [after_cons, act, if_pos (running_of_turn? ht)]
      exact h

/-- What the hub does until it rests, in the order it has chosen, is a run. -/
theorem runHub_after (w : World) : ∃ run, w.runHub = w.after run := by
  obtain ⟨run, h⟩ := takeTurns_after w.workLeft w
  refine ⟨run ++ [.rest], ?_⟩
  rw [after_concat, ← h]
  rfl

end World

end EventFanout
