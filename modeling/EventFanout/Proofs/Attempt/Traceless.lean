/-
EventFanout.Proofs.Attempt.Traceless — a failed attempt to subscribe leaves no trace.

An attempt can fail before anything is made of it, when it is handed in, when its installation comes
up and the bus refuses the topic, or when the hub stops first (`World.Fails`). By then there may be
a receiver, and that asks for the removal of a subscription which was never installed.

Main statement: `failed_attempts_leave_no_trace`. Everything that the others see is as it would be in
the run without the attempt, but for the count of what was rejected.

## How the proof goes

When the subscription has just been made, the world is the one before without it, but that an
identity is used up (`without_made`). The run up to the failure mirrors itself in the rest, as
nothing has been decided yet; the action that fails adds what it costs (`mirrored_of_fails`); and
from then on the subscription is gone. The three parts are put together in `mirrored_of_attempt`.
-/
import EventFanout.Proofs.Attempt.Mirroring
import EventFanout.Proofs.Counting.Deliveries

namespace EventFanout.World

variable {w v : World} {s : Subscription} {p : Place} {l : Line} {id : SubscriptionId}
  {cost : UInt64} {a b : Action}

/-! ## How an attempt fails -/

/-- An attempt to subscribe fails with an action, and so much is counted as rejected over it. -/
inductive Fails (w : World) (s : Subscription) : Action → UInt64 → Prop
  /-- The hub is in light mode and does not take the kind in. -/
  | lightMode (hheld : w.held.get? s.id = some s)
    (hanswer : (w.submit s).1 = .error (.lightModeUnsupported s.kind)) :
    Fails w s (.submit s.id) 1
  /-- The hub has stopped. -/
  | stopped (hheld : w.held.get? s.id = some s)
    (hanswer : (w.submit s).1 = .error .systemStopped) : Fails w s (.submit s.id) 0
  /-- Its installation comes up, and the bus refuses the topic. -/
  | refused {e : BusError} (hr : w.hub.running = true) (hfirst : w.hub.installs.head? = some s)
    (htopic : w.hub.topics.contains s.topic = false)
    (hanswer : (w.bus.subscribe s.topic).1 = .error e) : Fails w s (.turn .install) 1
  /-- The hub stops while it waits. -/
  | shutdown (hr : w.hub.running = true) (hwaits : s ∈ w.hub.installs) :
    Fails w s (.turn .stop) 1

/-- The hub turns away what is handed in for one of two causes, and says which. -/
theorem light_of_submit (h : (w.submit s).1 = .error (.lightModeUnsupported s.kind)) :
    (w.hub.config.lightMode && s.kind.requiresFullNode) = true := by
  rcases submit_cases w s with ⟨-, -, he⟩ | ⟨hl, -⟩ | ⟨-, -, he⟩
  · rw [he] at h
    cases h
  · exact hl
  · rw [he] at h
    cases h

theorem stopped_of_submit (h : (w.submit s).1 = .error .systemStopped) :
    (w.hub.config.lightMode && s.kind.requiresFullNode) = false ∧ w.hub.running = false := by
  rcases submit_cases w s with ⟨-, -, he⟩ | ⟨-, he⟩ | ⟨hl, hr, -⟩
  · rw [he] at h
    cases h
  · rw [he] at h
    cases h
  · exact ⟨hl, hr⟩

theorem Fails.pending (h : w.Fails s b cost) : ∃ q : Place, q.isPending = true ∧ w.In s q := by
  cases h with
  | lightMode hs => exact ⟨.held, rfl, Table.mem_values_of_get? hs⟩
  | stopped hs => exact ⟨.held, rfl, Table.mem_values_of_get? hs⟩
  | refused hr hfirst => exact ⟨.queued, rfl, List.mem_of_head? hfirst⟩
  | shutdown hr hwaits => exact ⟨.queued, rfl, hwaits⟩

/-- Who fails has ended. -/
theorem Fails.change (h : w.Fails s b cost) : ∃ r, w.change s b = .ended r := by
  cases h with
  | lightMode hs hanswer =>
    have hmem := Table.mem_values_of_get? hs
    refine ⟨.rejected (.lightMode s.kind), ?_⟩
    simp only [World.change, hmem, light_of_submit hanswer, if_true, and_self]
  | stopped hs hanswer =>
    obtain ⟨hl, hr⟩ := stopped_of_submit hanswer
    exact ⟨.shutdown, by simp [World.change, Table.mem_values_of_get? hs, hl, hr]⟩
  | refused hr hfirst htopic hanswer =>
    exact ⟨_, (EndsBy.refused hr hfirst htopic hanswer).change⟩
  | shutdown hr hwaits => exact ⟨.shutdown, (EndsBy.stopped hr (.inl hwaits)).change⟩

/-- An attempt fails in no other way: who ends without being installed has failed. -/
theorem fails_of_ended (hr : w.Roster) (hx : s ∉ w.hub.index.values) {r : SubscriptionError}
    (hc : w.change s b = .ended r) : ∃ cost, w.Fails s b cost := by
  cases b with
  | submit id =>
    simp only [World.change] at hc
    split at hc
    case isFalse => cases hc
    rename_i hid
    obtain ⟨rfl, hmem⟩ := hid
    have hheld := hr.get?_of_held hmem
    rcases submit_cases w s with ⟨hl, hrun, -⟩ | ⟨-, he⟩ | ⟨-, -, he⟩
    · simp [hl, hrun] at hc
    · exact ⟨1, .lightMode hheld (by rw [he])⟩
    · exact ⟨0, .stopped hheld (by rw [he])⟩
  | turn t =>
    simp only [World.change] at hc
    split at hc
    case isFalse => cases hc
    rename_i hrun
    cases endsBy_of_turnChange hrun hc with
    | refused _ hfirst htopic hanswer => exact ⟨1, .refused hrun hfirst htopic hanswer⟩
    | stopped _ hm => exact ⟨1, .shutdown hrun (hm.resolve_right hx)⟩
    | cancelled _ _ hin => exact absurd hin hx
    | topicEnded _ hin => exact absurd hin hx
    | left _ hin => exact absurd hin hx
  | discard id =>
    simp only [World.change] at hc
    split at hc <;> cases hc
  | _ => cases hc

/-- Where the bus refuses a topic that the hub is not registered on, nothing is installed. -/
theorem install_of_refusal (hadm : (w.hub.config.lightMode && s.kind.requiresFullNode) = false)
    (hnew : w.hub.contains s.id = false) (htopic : w.hub.topics.contains s.topic = false)
    {e : BusError} (hanswer : (w.bus.subscribe s.topic).1 = .error e) :
    w.install s = w.refused s e := by
  rcases install_cases w s with ⟨hl, hf, -⟩ | ⟨hdup, -⟩ | ⟨e', -, -, hb, he⟩ | ⟨w', -, hreg, -⟩
  · simp [hl, hf] at hadm
  · cases hnew.symm.trans hdup
  · cases hanswer.symm.trans hb
    exact he
  · rcases register_cases hreg with ⟨hin, -⟩ | ⟨-, hd, bus, hb, -⟩
    · cases htopic.symm.trans hin
    · rw [hb] at hanswer
      cases hanswer

/-- What waits once is refused once. -/
theorem countP_installs (ht : w.Traced s p l) (hwaits : s ∈ w.hub.installs) :
    w.hub.installs.countP (·.id = s.id) = 1 := by
  have hsame : w.hub.installs.countP (·.id = s.id) = w.hub.installs.countP (· == s) := by
    refine List.countP_congr fun s' hs' => ?_
    simp only [decide_eq_true_eq, beq_iff_eq]
    refine ⟨fun hid => ?_, congrArg Subscription.id⟩
    exact (ht.roster.eq_of_in ht.place (Roster.mem_everyone.mpr (.inr (.inl hs'))) hid).1
  rw [hsame]
  exact List.count_eq_one_of_mem ht.roster.parts.2.1 hwaits

/-- The action that an attempt fails with costs what it says, and nothing else. -/
theorem mirrored_of_fails (h : Without s.id 0 w v) (ht : w.Traced s p l) (hf : w.Fails s b cost) :
    Mirrored s.id cost w v [b] := by
  cases hf with
  | lightMode hheld hanswer =>
    have hact : w.act (.submit s.id) = (w.submit s).2 := by simp only [World.act, hheld]
    have hsubmit := h.own_submit
    rw [if_pos (light_of_submit hanswer), UInt64.zero_add] at hsubmit
    exact .of_concerns (by simp [concerns]) (hact ▸ hsubmit)
  | stopped hheld hanswer =>
    have hact : w.act (.submit s.id) = (w.submit s).2 := by simp only [World.act, hheld]
    have hsubmit := h.own_submit
    rw [if_neg (by simp [(stopped_of_submit hanswer).1]), UInt64.zero_add] at hsubmit
    exact .of_concerns (by simp [concerns]) (hact ▸ hsubmit)
  | @refused e hr hfirst htopic hanswer =>
    obtain ⟨rest, hq⟩ := List.head?_eq_some_iff.mp hfirst
    have hmem : s ∈ w.hub.installs := List.mem_of_head? hfirst
    have hact : w.act (.turn .install) = { w with hub.installs := rest }.refused s e := by
      refine Eq.trans ?_ (install_of_refusal (w := { w with hub.installs := rest })
        (ht.roster.admitted s hmem) (ht.roster.contains_eq_false hmem) htopic hanswer)
      rw [World.act, if_pos hr]
      simp only [perform, hq]
    have hrest : Without s.id 0 { w with hub.installs := rest } v := h.own_installs (by simp [hq])
    refine .of_concerns (by simp [concerns, hfirst]) ?_
    rw [hact]
    exact ((hrest.own_note _).own_rejected).own_line _
  | shutdown hr hwaits =>
    have hvalues : s.id ∉ w.hub.index.values.map Subscription.id := by
      refine ht.roster.not_mem_map ht.place
        (fun s' hs' => Roster.mem_everyone.mpr (.inr (.inr hs'))) ?_
      exact ht.roster.parts.2.2.2.2 s hwaits
    refine .of_other rfl ?_ (h.permits rfl)
    have hshutdown := h.shutdown hvalues
    rw [countP_installs ht hwaits] at hshutdown
    rw [World.act, World.act, if_pos hr, if_pos (h.running.trans hr)]
    exact hshutdown

/-! ## Where an attempt begins -/

/-- The world with an identity used up that nobody is given. A request for the removal of that
identity, should there be one already, is left out. -/
def skipIdentity (w : World) : World :=
  { w with
    issued := w.issued + 1
    hub.removals := w.hub.removals.filter (· ≠ .issued w.issued) }

theorem made_of_brought (hs : w.brought a = some s) :
    s.id = .issued w.issued ∧ ∃ buffer attached, w.act a = w.made s buffer attached := by
  cases a with
  | make kind criteria topic buffer =>
    simp only [brought] at hs
    split at hs
    · rename_i s' w' hc
      cases hs
      obtain ⟨hid, rfl⟩ := create_ok hc
      exact ⟨hid, buffer, false, by simp only [act, hc]⟩
    · cases hs
  | makeWithin kind criteria =>
    simp only [brought] at hs
    split at hs
    · rename_i s' w' hc
      cases hs
      obtain ⟨hid, buffer, rfl⟩ := newSubscription_ok hc
      exact ⟨hid, buffer, true, by simp only [act, hc]⟩
    · cases hs
  | _ => cases hs

/-- What fails before anything is made changes nothing. -/
theorem act_of_not_brought (ha : a.makesNobody = false) (hs : w.brought a = none) :
    w.act a = w := by
  cases a with
  | make kind criteria topic buffer =>
    simp only [brought] at hs
    split at hs
    · cases hs
    · rename_i hc
      simp only [act, hc]
  | makeWithin kind criteria =>
    simp only [brought] at hs
    split at hs
    · cases hs
    · rename_i hc
      simp only [act, hc]
  | _ => cases ha

/-- The world in which a subscription has just been made, without it. -/
theorem without_made (hr : w.Roster) (hlines : ∀ id ∈ w.lines.keys, w.Issued id)
    (hid : s.id = .issued w.issued) (buffer : Nat) (attached : Bool) :
    Without s.id 0 (w.made s buffer attached) w.skipIdentity := by
  have hfresh := hr.fresh hid
  have hline : s.id ∉ w.lines.keys := by
    intro hm
    obtain ⟨n, hn, hlt⟩ := hlines _ hm
    rw [hid, SubscriptionId.issued.injEq] at hn
    omega
  have hheld : s.id ∉ w.held.keys := by
    intro hm
    obtain ⟨s', hs'⟩ := Table.exists_get?_of_mem_keys hm
    obtain ⟨hid', hmem⟩ := hr.id_of_held hs'
    exact hfresh (hid' ▸ List.mem_map_of_mem (Roster.mem_everyone.mpr (.inl hmem)))
  have hinstalls : w.hub.installs.filter (·.id ≠ s.id) = w.hub.installs := by
    rw [List.filter_eq_self]
    intro s' hs'
    have hne : s'.id ≠ s.id := fun he => hfresh (he ▸
      List.mem_map_of_mem (Roster.mem_everyone.mpr (.inr (.inl hs'))))
    simpa using hne
  refine ⟨w.hub.ledger, ?_⟩
  rw [skipIdentity, ← hid]
  simp only [leaveOut, World.made, Table.erase_set, Table.erase_of_not_mem hline,
    Table.erase_of_not_mem hheld, hinstalls, UInt64.sub_zero]

/-- A subscription that is asked for in one go and refused is not made, or it is made, not taken in,
and given up. -/
theorem subscribe_error {kind : Kind} {criteria : Option Criteria} {e : FilterError} {w' : World}
    (h : w.subscribe kind criteria = (.error e, w')) :
    (w.brought (.makeWithin kind criteria) = none ∧ w' = w) ∨
      ∃ s cost, w.brought (.makeWithin kind criteria) = some s ∧
        (w.act (.makeWithin kind criteria)).Fails s (.submit s.id) cost ∧
        w' = (w.act (.makeWithin kind criteria)).after [.submit s.id, .dropReceiver s.id] := by
  unfold World.subscribe at h
  cases hn : w.newSubscription kind criteria with
  | error e' =>
    rw [hn] at h
    cases h
    exact .inl ⟨by simp only [brought, hn], rfl⟩
  | ok pair =>
    obtain ⟨s, w₁⟩ := pair
    rw [hn] at h
    have hact : w.act (.makeWithin kind criteria) = w₁ := by simp only [act, hn]
    have hheld : w₁.held.get? s.id = some s := by
      obtain ⟨-, buffer, rfl⟩ := newSubscription_ok hn
      exact (Table.get?_set _ _ _ _).trans (if_pos rfl)
    have hsubmit : w₁.act (.submit s.id) = (w₁.submit s).2 := by simp only [act, hheld]
    have hbrought : w.brought (.makeWithin kind criteria) = some s := by simp only [brought, hn]
    rw [hact]
    refine .inr ⟨s, ?_⟩
    rcases submit_cases w₁ s with ⟨-, -, he⟩ | ⟨-, he⟩ | ⟨-, -, he⟩
    · simp only [he] at h
      cases h
    · rw [he] at hsubmit
      refine ⟨1, hbrought, .lightMode hheld (by rw [he]), ?_⟩
      simp only [he] at h
      cases h
      rw [after_cons, hsubmit]
      rfl
    · rw [he] at hsubmit
      refine ⟨0, hbrought, .stopped hheld (by rw [he]), ?_⟩
      simp only [he] at h
      cases h
      rw [after_cons, hsubmit]
      rfl

/-! ## The main statement -/

/-- The first world is as the second, which went without a subscription, but for what is the
subscription's own, and for how many were rejected. -/
structure NoTrace (id : SubscriptionId) (cost : UInt64) (w v : World) : Prop where
  index : w.hub.index = v.hub.index
  topics : w.hub.topics = v.hub.topics
  feeds : w.hub.feeds = v.hub.feeds
  view : w.hub.view = v.hub.view
  /-- All of the bus, with its channels and the next registration number. -/
  bus : w.bus = v.bus
  /-- The buffers and the signals of all others. -/
  lines : ∀ id', id' ≠ id → w.lines.get? id' = v.lines.get? id'
  held : ∀ id', id' ≠ id → w.held.get? id' = v.held.get? id'
  installs : w.hub.installs.filter (·.id ≠ id) = v.hub.installs
  removals : w.hub.removals.filter (· ≠ id) = v.hub.removals
  running : w.hub.running = v.hub.running
  metrics : w.hub.metrics = { v.hub.metrics with rejected := v.hub.metrics.rejected + cost }

theorem Without.noTrace (h : Without id cost w v) : NoTrace id cost w v where
  index := h.index.symm
  topics := h.topics.symm
  feeds := h.feeds.symm
  view := by
    obtain ⟨ledger, rfl⟩ := h
    rfl
  bus := h.bus.symm
  lines := fun _ hne => (h.line hne).symm
  held := fun _ hne => (h.held hne).symm
  installs := h.installs.symm
  removals := h.removals.symm
  running := h.running.symm
  metrics := by
    obtain ⟨ledger, rfl⟩ := h
    have hcount : w.hub.metrics.rejected - cost + cost = w.hub.metrics.rejected := by grind
    simp only [leaveOut, hcount]

/-- What becomes of the attempts to subscribe that are made in a world and fail. -/
structure Traceless (w : World) : Prop where
  /-- An attempt that fails before anything is made changes nothing. -/
  unmade : ∀ a, a.makesNobody = false → w.brought a = none → w.act a = w
  /-- One that is made in one go fails like this, or it is made, not taken in, and given up. -/
  atOnce : ∀ kind criteria e w', w.subscribe kind criteria = (.error e, w') →
    (w.brought (.makeWithin kind criteria) = none ∧ w' = w) ∨
      ∃ s cost, w.brought (.makeWithin kind criteria) = some s ∧
        (w.act (.makeWithin kind criteria)).Fails s (.submit s.id) cost ∧
        w' = (w.act (.makeWithin kind criteria)).after [.submit s.id, .dropReceiver s.id]
  /-- Whatever happens until a subscription that was made fails, and whatever happens then, the
  world is as it would be after the rest of the run, without all that is about the subscription. -/
  made : ∀ a s earlier b later cost, w.brought a = some s →
    ((w.act a).after earlier).Fails s b cost →
    NoTrace s.id cost ((w.act a).after (earlier ++ b :: later))
      (w.skipIdentity.after ((w.act a).others s.id (earlier ++ b :: later)))
  /-- The rest of the run is one that the hub can take in its order, if it kept to it in the run. -/
  inOrder : ∀ a s earlier b later cost, w.brought a = some s →
    ((w.act a).after earlier).Fails s b cost →
    (w.act a).InOrder (earlier ++ b :: later) →
    w.skipIdentity.InOrder ((w.act a).others s.id (earlier ++ b :: later))
  /-- There is no other way to fail: what ends without having been installed has failed. -/
  complete : ∀ a s earlier b r, w.brought a = some s →
    ((w.act a).after earlier).change s b = .ended r →
    s ∉ ((w.act a).after earlier).hub.index.values →
    ∃ cost, ((w.act a).after earlier).Fails s b cost
  /-- A bus that refuses a topic is as it was. -/
  refusal : ∀ t e bus, w.bus.subscribe t = (.error e, bus) → bus = w.bus

/-- A run in which an attempt fails, against the run without the attempt. -/
theorem mirrored_of_attempt (hr : w.Roster) (hlines : ∀ id ∈ w.lines.keys, w.Issued id)
    (hs : w.brought a = some s) (earlier later : List Action)
    (hf : ((w.act a).after earlier).Fails s b cost) :
    Mirrored s.id cost (w.act a) w.skipIdentity (earlier ++ b :: later) := by
  obtain ⟨hid, buffer, attached, hact⟩ := made_of_brought hs
  have htraced := traced_made hr hid buffer attached
  rw [hact] at hf ⊢
  obtain ⟨q, hq, hin⟩ := hf.pending
  -- up to the failure nothing is decided, and after it nothing more can become of the subscription
  have hbefore := mirrored_of_pending (without_made hr hlines hid buffer attached) htraced hq hin
  obtain ⟨p, l, htraced', -⟩ := htraced.after earlier
  have hfailure := mirrored_of_fails hbefore.without htraced' hf
  obtain ⟨r, hend⟩ := hf.change
  have hgone := htraced'.act b
  rw [hend] at hgone
  have hafter := mirrored_of_gone hfailure.without hgone later
  exact hbefore.append (hfailure.append hafter)

/--
**A failed attempt to subscribe leaves no trace.** Take any state that a hub can get into, and
any attempt to subscribe that is made in it and fails: because nothing is made of it, because it is
not taken in, because the bus refuses its topic when its installation comes up, or because the hub
stops before that. Then whatever others do meanwhile and later, and whatever the client still does
with its receiver, the index, the topics, the feeds, the published view, the bus, the lines of all
others and the counters are at every moment as they would be in the same run without the attempt.
Only `rejected` differs: by one, or not at all where the hub had stopped already.
-/
theorem failed_attempts_leave_no_trace (bus : Bus) (config : Config) (governor : Governor)
    (before : List Action) : ((start bus config governor).after before).Traceless := by
  have hr := after_roster (start_roster bus config governor) before
  have hlines := (after_put bus config governor before).made
  exact {
    unmade := fun a ha hs => act_of_not_brought ha hs
    atOnce := fun kind criteria e w' h => subscribe_error h
    made := fun a s earlier b later cost hs hf =>
      (mirrored_of_attempt hr hlines hs earlier later hf).without.noTrace
    inOrder := fun a s earlier b later cost hs hf =>
      (mirrored_of_attempt hr hlines hs earlier later hf).inOrder
    complete := fun a s earlier b r hs hc hx =>
      fails_of_ended (after_roster (act_roster hr a) earlier) hx hc
    refusal := fun t e bus h => (Bus.subscribe_error h).1 }

/-- A hub in light mode serves one subscription on the topic of transactions. An attempt to get
logs, which are on that topic too, is turned away, and its receiver asks for a removal when it is
given up. Another attempt waits when the bus is closed, and its topic is refused. -/
theorem failed_attempts_leave_no_trace_light :
    let w := (start (Bus.sized 4) { lightMode := true } .absent).after [
      .makeWithin .pendingTransactions none, .submit (.issued 0), .turn .install]
    let logs := w.act (.makeWithin .logs none)
    let light : List Action := [.submit (.issued 1), .dropReceiver (.issued 1),
      .publish ⟨transactionTopic, .transaction {}⟩, .turn .remove, .turn (.read transactionTopic)]
    let headers := w.act (.makeWithin .newHeads none)
    let closing : List Action := [.submit (.issued 1), .busClose, .turn .install,
      .dropReceiver (.issued 1), .turn .remove, .turn (.read transactionTopic)]
    logs.InOrder light ∧ (logs.after light).hub.subscriptionCount = 1 ∧
      (logs.after light).hub.metrics.rejected = 1 ∧
      NoTrace (.issued 1) 1 (logs.after light)
        (w.skipIdentity.after (logs.others (.issued 1) light)) ∧
      headers.InOrder closing ∧ (headers.after closing).hub.subscriptionCount = 0 ∧
      (headers.after closing).hub.metrics.rejected = 1 ∧
      NoTrace (.issued 1) 1 (headers.after closing)
        (w.skipIdentity.after (headers.others (.issued 1) closing)) := by
  intro w logs light headers closing
  have htraceless := failed_attempts_leave_no_trace (Bus.sized 4) { lightMode := true } .absent
    [.makeWithin .pendingTransactions none, .submit (.issued 0), .turn .install]
  have hlight := htraceless.made (.makeWithin .logs none)
    ⟨.issued 1, .logs, transactionTopic, none⟩ [] (.submit (.issued 1)) light.tail 1
    (by decide +kernel) (.lightMode (by decide +kernel) (by decide +kernel))
  have hclosing := htraceless.made (.makeWithin .newHeads none)
    ⟨.issued 1, .newHeads, headerTopic, none⟩ [.submit (.issued 1), .busClose] (.turn .install)
    (closing.drop 3) 1 (by decide +kernel)
    (.refused (e := .closed) (by decide +kernel) (by decide +kernel) (by decide +kernel)
      (by decide +kernel))
  exact ⟨by decide +kernel, by decide +kernel, by decide +kernel, hlight, by decide +kernel,
    by decide +kernel, by decide +kernel, hclosing⟩

end EventFanout.World
