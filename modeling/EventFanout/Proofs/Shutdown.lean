/-
EventFanout.Proofs.Shutdown — a hub that stops leaves nothing open, and stays stopped.

What a hub does when it stops is work of its own: it does not remove the subscriptions one by one
as it would on request. So that it comes to the same has to be shown: everyone who waits or is
installed is told, once; every topic is given up, once; and the counters agree as they do after
removals (`World.Stopped`). After that no action finds anything to change, and whoever is handed
in is turned away (`World.StaysStopped`).

Main statement: `shutdown_final`, for a hub that stops in any state of any run, and every run that
follows.
-/
import EventFanout.Proofs.Hub.Counters
import EventFanout.Proofs.Hub.Upstream
import EventFanout.Proofs.Lifecycle.Traced
import EventFanout.Proofs.Order

namespace EventFanout.World

def refusal (w : World) (s : Subscription) : FilterError :=
  if w.hub.config.lightMode && s.kind.requiresFullNode then .lightModeUnsupported s.kind
  else .systemStopped

/-- The reason that the line of a subscription is closed for which a stopped hub does not take. -/
def refusalReason (w : World) (s : Subscription) : SubscriptionError :=
  if w.hub.config.lightMode && s.kind.requiresFullNode then .rejected (.lightMode s.kind)
  else .shutdown

/-- In `w'` the hub of `w` has stopped. -/
structure Stopped (w w' : World) : Prop where
  running : w'.hub.running = false
  /-- Nothing is installed, registered, read from or shown to clients, and nothing waits. -/
  bare : w'.hub.index = {} ∧ w'.hub.topics = {} ∧ w'.hub.feeds = {} ∧ w'.hub.view = {} ∧
    w'.hub.installs = [] ∧ w'.hub.removals = []
  /-- Whoever waited or was installed had no error, and has the error that the hub has stopped. -/
  told : ∀ s, s ∈ w.hub.installs ∨ s ∈ w.hub.index.values →
    ∃ l, w.lines.get? s.id = some l ∧ l.reason = none ∧
      w'.lines.get? s.id = some (l.close .shutdown) ∧
      (w'.listens s.id = true → (w'.tryError s.id).map (·.1) = some (some .shutdown))
  /-- Nobody both waited and was installed, so that nobody is told twice. -/
  once : ((w.hub.installs ++ w.hub.index.values).map Subscription.id).Nodup
  /-- No other line has changed. -/
  untold : ∀ id, id ∉ (w.hub.installs ++ w.hub.index.values).map Subscription.id →
    w'.lines.get? id = w.lines.get? id
  /-- Every topic that was registered has been given up once, and no other topic; these are the calls
  of the bus that stopping makes (`shutdown_calls`). -/
  released : ∃ ts : List Topic, w'.hub.ledger = w.hub.ledger ++ ts.map .released ∧ ts.Nodup ∧
    ∀ t, t ∈ ts ↔ w.hub.topics.contains t = true
  /-- It has been given up on the bus as well. -/
  unrouted : ∀ t, w'.bus.routes.get? t =
    if w.hub.topics.contains t then none else w.bus.routes.get? t
  counted : w'.hub.metrics.uninstalls = w'.hub.metrics.installs ∧
    w'.hub.metrics.topicsReleased = w'.hub.metrics.topicsRegistered

/-- How things are after a run that began when the hub had stopped, in `w'`. Here `made` are the
subscriptions that had been made before. -/
structure StaysStopped (w' : World) (made : List Subscription) (run : List Action) : Prop where
  /-- Index, topics, feeds and view are as they were, and the bus has not been called. -/
  same : w'.hub.SameLoop (w'.after run).hub
  empty : (w'.after run).hub.installs = []
  /-- The hub's half of the line of whoever was not still held is as it was. -/
  kept : ∀ s ∈ made, s ∉ w'.held.values → ∃ l l', w'.lines.get? s.id = some l ∧
    (w'.after run).lines.get? s.id = some l' ∧ l'.buffer = l.buffer ∧
    l'.installed = l.installed ∧ l'.reason = l.reason
  /-- Whoever is handed in is turned away, and is gone. -/
  refused : ∀ s ∈ (w'.after run).held.values, ∃ l,
    ((w'.after run).submit s).1 = .error ((w'.after run).refusal s) ∧
      (w'.after (run ++ [.submit s.id])).In s .gone ∧
      (w'.after run).lines.get? s.id = some l ∧
      (w'.after (run ++ [.submit s.id])).lines.get? s.id =
        some (l.close ((w'.after run).refusalReason s))
  /-- No subscription is made and taken in one go either. -/
  turnedAway : ∀ kind criteria, ∃ e, ((w'.after run).subscribe kind criteria).1 = .error e

variable {w : World} {s : Subscription} {p : Place} {l : Line}

/-! ## Why a hub stops -/

/-- A request to stop (which whoever gives the hub up makes as well), a signal from outside and the
loss of that signal each make stopping the next step. -/
theorem turn?_of_cause (hr : w.hub.running = true) {a : Action}
    (ha : a ∈ [.requestStop, .signal true, .dropSignal]) : (w.act a).turn? = some .stop := by
  simp only [List.mem_cons, List.not_mem_nil, or_false] at ha
  rcases ha with rfl | rfl | rfl
  · simp [turn?, act, requestStop, hr, Hub.stops]
  · simp [turn?, act, signal, hr, Hub.stops, Governor.stops]
  · simp [turn?, act, dropSignal, hr, Hub.stops, Governor.stops]

/-! ## What stopping comes to -/

/-- A client whose line was open is told the reason for which it is closed. -/
theorem tryError_of_closed (hh : l.Honest) (hc : l.isClosed = false) {w' : World}
    {r : SubscriptionError}
    (hl' : w'.lines.get? s.id = some (l.close r)) (hlisten : w'.listens s.id = true) :
    (w'.tryError s.id).map (·.1) = some (some r) := by
  obtain ⟨⟨l₀, rc⟩, hrecv⟩ := Option.isSome_iff_exists.mp hlisten
  obtain ⟨hl₀, hrc⟩ := receiver?_eq_some.mp hrecv
  rw [hl', Option.some.injEq] at hl₀
  subst hl₀
  have hterm : rc.terminal = none := by
    cases ht : rc.terminal with
    | none => rfl
    | some e =>
      have hopen := (hh rc hrc e ht).1
      rw [hc] at hopen
      cases hopen
  have hclosed : (l.close r).isClosed = true := rfl
  simp only [tryError, hrecv, bind, Option.bind, pure, Option.map_some, Line.tryError, hterm,
    hclosed, if_true, Option.some.injEq]
  rfl

/-- The step by which a running hub stops establishes everything that `Stopped` lists. -/
theorem stopped_of_running (h : w.Roster) (hfit : w.AllFit)
    (hd : w.hub.discrepancy = (0, 0)) (hr : w.hub.running = true) :
    Stopped w (w.act (.turn .stop)) := by
  have hw : w.act (.turn .stop) = w.shutdown := by simp only [act, if_pos hr, perform]
  obtain ⟨m, hhub⟩ := shutdown_hub w
  have hc := h.sound.consistent
  rw [hw]
  constructor
  · rw [hhub]
  · have hfeeds : w.shutdown.hub.feeds = {} := by
      have hkeys := (shutdown_sound h.sound).consistent.feeds_eq
      rw [hhub] at hkeys
      rw [hhub, Table.mk.injEq]
      exact List.map_eq_nil_iff.mp hkeys
    rw [hfeeds, hhub]
    exact ⟨rfl, rfl, rfl, rfl, rfl, rfl⟩
  · intro s hs
    obtain ⟨p, hp, hin⟩ : ∃ p, p ≠ .gone ∧ w.In s p := by
      rcases hs with hs | hs
      · exact ⟨.queued, by simp, hs⟩
      · exact ⟨.indexed, by simp, hs⟩
    obtain ⟨l, hl, hf⟩ := hfit s p hp hin
    obtain ⟨hopen, hreason⟩ := hf.unclosed hp
    have hids : s.id ∈ w.hub.installs.map Subscription.id ∨
        s.id ∈ w.hub.index.values.map Subscription.id :=
      hs.imp (fun hs => List.mem_map.mpr ⟨s, hs, rfl⟩) (fun hs => List.mem_map.mpr ⟨s, hs, rfl⟩)
    have hl' : w.shutdown.lines.get? s.id = some (l.close .shutdown) := by
      rw [shutdown_lines, if_pos hids, hl]
      rfl
    exact ⟨l, hl, hreason, hl', tryError_of_closed hf.honest hopen hl'⟩
  · refine h.once.sublist (List.Sublist.map _ ?_)
    rw [everyone, List.append_assoc]
    exact List.sublist_append_right _ _
  · intro id hid
    rw [List.map_append, List.mem_append] at hid
    rw [shutdown_lines, if_neg hid]
  · refine ⟨w.hub.topics.keys, (shutdown_calls w).ledger, hc.topics_once, fun t => ?_⟩
    exact (Table.contains_iff_mem_keys _ t).symm
  · intro t
    rw [shutdown_routes]
    simp only [Table.contains_iff_mem_keys]
  · have hzero := (shutdown_discrepancy w).trans hd
    have hindex : w.shutdown.hub.index = {} := by rw [hhub]
    have htopics : w.shutdown.hub.topics = {} := by rw [hhub]
    have hnone : UInt64.ofNat 0 = 0 := rfl
    simp only [Hub.discrepancy, hindex, htopics, Table.size, List.length_nil, hnone,
      Prod.mk.injEq] at hzero
    grind

/-! ## What a stopped hub does -/

/-- A stopped hub takes no step. -/
theorem act_stopped (hr : w.hub.running = false) (t : Turn) : w.act (.turn t) = w := by
  simp only [act, hr, Bool.false_eq_true, if_false]

/-- No action changes what only the loop writes, or hands a stopped hub anything. -/
theorem act_staysStopped (hr : w.hub.running = false) (a : Action) :
    w.hub.SameLoop (w.act a).hub ∧ (w.act a).hub.installs = w.hub.installs := by
  by_cases ha : ∃ t, a = .turn t
  · obtain ⟨t, rfl⟩ := ha
    rw [act_stopped hr]
    exact ⟨.refl _, rfl⟩
  · have hcall := act_hub w fun t h => ha ⟨t, h⟩
    refine ⟨hcall.loop, hcall.installs.resolve_right ?_⟩
    rintro ⟨hrun, -⟩
    rw [hr] at hrun
    cases hrun

theorem after_staysStopped (hr : w.hub.running = false) (run : List Action) :
    w.hub.SameLoop (w.after run).hub ∧ (w.after run).hub.installs = w.hub.installs := by
  induction run using List.reverseRecOn with
  | nil => exact ⟨.refl _, rfl⟩
  | append_singleton run a ih =>
    obtain ⟨hl, hi⟩ := ih
    obtain ⟨hl', hi'⟩ := act_staysStopped (hl.running.trans hr) a
    rw [after_concat]
    exact ⟨hl.trans hl', hi'.trans hi⟩

/-- A stopped hub takes nobody in. -/
theorem submit_stopped (hr : w.hub.running = false) (s : Subscription) :
    (w.submit s).1 = .error (w.refusal s) ∧
      (w.submit s).2.lines = w.lines.update s.id fun l => l.close (w.refusalReason s) := by
  rcases submit_cases w s with ⟨_, hrun, _⟩ | ⟨hlight, he⟩ | ⟨hlight, _, he⟩
  · rw [hr] at hrun
    cases hrun
  · rw [he, refusal, refusalReason, if_pos hlight, if_pos hlight]
    exact ⟨rfl, rfl⟩
  · rw [he, refusal, refusalReason, if_neg (by simp [hlight]), if_neg (by simp [hlight])]
    exact ⟨rfl, rfl⟩

theorem gone_of_submit_stopped (h : w.Roster) (hr : w.hub.running = false)
    (hs : s ∈ w.held.values) : (w.submit s).2.In s .gone := by
  rcases submit_cases w s with ⟨_, hrun, _⟩ | ⟨_, he⟩ | ⟨_, _, he⟩
  · rw [hr] at hrun
    cases hrun
  · rw [he]
    exact h.gone_unheld hs rfl rfl rfl rfl
  · rw [he]
    exact h.gone_unheld hs rfl rfl rfl rfl

theorem subscribe_stopped (hr : w.hub.running = false) (kind : Kind) (criteria : Option Criteria) :
    ∃ e, (w.subscribe kind criteria).1 = .error e := by
  unfold World.subscribe
  cases hn : w.newSubscription kind criteria with
  | error e => exact ⟨e, rfl⟩
  | ok pair =>
    obtain ⟨s, w'⟩ := pair
    obtain ⟨-, buffer, rfl⟩ := newSubscription_ok hn
    have hsubmit := (submit_stopped (w := w.made s buffer true) hr s).1
    simp only
    split
    · rename_i he
      rw [he] at hsubmit
      cases hsubmit
    · rename_i e w' _
      exact ⟨e, rfl⟩

/-- By induction on the run: no action of anybody undoes a stop. -/
theorem staysStopped_of_stopped {w' : World} (hs : Stopped w w') (h : w'.Roster)
    (hfit : w'.AllFit) {made : List Subscription}
    (hmade : ∀ s ∈ made, ∃ p l, w'.Traced s p l) (run : List Action) :
    StaysStopped w' made run := by
  obtain ⟨hindex, -, -, -, hinstalls, -⟩ := hs.bare
  obtain ⟨hsame, hqueue⟩ := after_staysStopped hs.running run
  have hrun : (w'.after run).hub.running = false := hsame.running.trans hs.running
  refine ⟨hsame, hqueue.trans hinstalls, ?_, ?_, fun kind criteria => subscribe_stopped hrun _ _⟩
  · intro s hm hheld
    obtain ⟨p, l, ht⟩ := hmade s hm
    have hgone : p = .gone := by
      cases p with
      | gone => rfl
      | held => exact absurd ht.place hheld
      | queued =>
        have hq : s ∈ w'.hub.installs := ht.place
        rw [hinstalls] at hq
        cases hq
      | indexed =>
        have hx : s ∈ w'.hub.index.values := ht.place
        rw [hindex] at hx
        cases hx
    subst hgone
    obtain ⟨l', ht', hb, hi, hr⟩ := ht.gone_after run
    exact ⟨l, l', ht.line, ht'.line, hb, hi, hr⟩
  · intro s hm
    have h' := after_roster h run
    obtain ⟨l, ht⟩ := traced_of_fits (p := .held) h' (after_allFit h hfit run) (by simp) hm
    obtain ⟨herror, hlines⟩ := submit_stopped hrun s
    have hact : (w'.after (run ++ [.submit s.id])) = ((w'.after run).submit s).2 := by
      rw [after_concat]
      simp only [act, h'.get?_of_held hm]
    rw [hact]
    refine ⟨l, herror, gone_of_submit_stopped h' hrun hm, ht.line, ?_⟩
    rw [hlines, Table.get?_update, if_pos rfl, ht.line]
    rfl

/--
**Stopping is complete and final.** Let a hub run, after any run of a new hub. A request to stop,
a signal from outside and the loss of that signal make it stop next; when it stops, everyone is
told and everything is given up, once, and the counters agree; and no run that follows changes
anything of that, or gets a subscription in.
-/
theorem shutdown_final {bus : Bus} {config : Config} {governor : Governor} {before : List Action}
    (hr : ((start bus config governor).after before).hub.running = true) :
    let w := (start bus config governor).after before
    let w' := w.act (.turn .stop)
    (∀ a ∈ [.requestStop, .signal true, .dropSignal], (w.act a).turn? = some .stop) ∧
      Stopped w w' ∧
      ∀ run, StaysStopped w' (along brought (start bus config governor) before) run := by
  intro w w'
  have hstart := start_roster bus config governor
  have h : w.Roster := after_roster hstart before
  have hfit : w.AllFit := after_allFit hstart (start_allFit bus config governor) before
  have hd : w.hub.discrepancy = (0, 0) := by
    rw [after_discrepancy (start_sound bus config governor) before]
    simp [start, Hub.discrepancy, Table.size]
  have hstopped := stopped_of_running h hfit hd hr
  refine ⟨fun a ha => turn?_of_cause hr ha, hstopped, fun run => ?_⟩
  refine staysStopped_of_stopped hstopped (act_roster h _) (act_allFit h hfit _) ?_ run
  intro s hs
  obtain ⟨p, l, ht⟩ := traced_of_along hstart hs
  exact ⟨_, _, ht.act _⟩

/-- A hub stops with one subscription installed and one that waits. Both clients are told so, and
a third that comes later is turned away. -/
theorem shutdown_final_queued :
    let before : List Action := [.makeWithin .newHeads none, .makeWithin .pendingTransactions none,
      .submit (.issued 0), .turn .install, .submit (.issued 1)]
    let run : List Action := [.publish ⟨transactionTopic, .transaction {}⟩,
      .requestRemoval (.issued 0), .makeWithin .newHeads none, .submit (.issued 2)]
    let w := (start (Bus.sized 4) {} .absent).after before
    w.hub.running = true ∧ w.hub.ids = [.issued 0] ∧
      w.hub.installs.map Subscription.id = [.issued 1] ∧
      StaysStopped (w.act (.turn .stop)) (along brought (start (Bus.sized 4) {} .absent) before)
        run ∧
      [.issued 0, .issued 1, .issued 2].map (fun id =>
        (((w.act (.turn .stop)).after run).lines.get? id).map Line.reason) =
          [some (some .shutdown), some (some .shutdown), some (some .shutdown)] := by
  intro before run w
  have hr : ((start (Bus.sized 4) {} .absent).after before).hub.running = true := by decide
  obtain ⟨-, -, hstays⟩ := shutdown_final hr
  exact ⟨hr, by decide, by decide, hstays run, by decide⟩

end EventFanout.World
