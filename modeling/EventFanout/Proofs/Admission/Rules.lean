/-
EventFanout.Proofs.Admission.Rules — the rules of admission, in every state that can be reached.

The constructor looks at criteria and topic, handing in looks at the kind, and installing looks at
the kind again. Taken together: whoever waits or is installed is admissible, and in light mode it is
no subscription to logs. The hub asks the bus for a topic only when it installs the first that
waits, and that one's topic is not blank; so the bus has one cause left to refuse, which is that
it has been closed.

## How the proof goes

* Whoever waits or is installed was made by the constructor (`wellMade_of_after`), and has been
  handed in (`Screened`).
* What the hub asks the bus for in an action is the topic of the first that waits
  (`act_asks`, `move_asks`); this is read off the ledger, whose entries are the calls that the hub
  makes (`perform_calls`).
* An error that names the bus is set where the bus refuses the topic of a subscription that has been
  made (`refused_of_change`), so along a run it is set for one cause only (`closed_of_along`).
  Every line is that of a subscription that was made (`traced_of_line`), so this holds of
  whatever a client is told.

Main statement: `admission_rules`, over any moves after a registry was opened, whatever had
happened before.
-/
import EventFanout.Proofs.Admission.Origin
import EventFanout.Proofs.Counting.Deliveries
import EventFanout.Proofs.Hub.Upstream

namespace EventFanout

/-- A change sets the error of a line by ending its subscription, and otherwise leaves it alone. -/
theorem Change.line_reason (s : Subscription) (l : Line) (c : Change) :
    (c.line s l).reason = l.reason ∨ ∃ r, c = .ended r ∧ (c.line s l).reason = some r := by
  cases c with
  | heard e =>
    simp only [Change.line]
    cases s.notice? e <;> exact .inl rfl
  | ended r => exact .inr ⟨r, rfl, rfl⟩
  | _ => exact .inl rfl

/-- Where a line names the bus, the bus had been closed. -/
def Line.BlamesClosing (l : Line) : Prop :=
  ∀ e, l.reason = some (.registrationFailed e) → e = .closed

namespace World

variable {w w' : World} {s : Subscription}

/-! ## Who is let in -/

/-- Nobody is installed who may not be in the mode of the hub. -/
def Screened (w : World) : Prop :=
  ∀ s ∈ w.hub.index.values, (w.hub.config.lightMode && s.kind.requiresFullNode) = false

/-- Whoever is installed after an action was installed before it, or waited. -/
theorem indexed_of_act (h : w.Roster) (hw : w.AllFit) (a : Action)
    (hs : s ∈ (w.act a).hub.index.values) : s ∈ w.hub.installs ∨ s ∈ w.hub.index.values := by
  have heveryone : s ∈ (w.act a).everyone := Roster.mem_everyone.mpr (.inr (.inr hs))
  rcases act_everyone h a heveryone with hold | ⟨hheld, -⟩
  · obtain ⟨p, hp, hin⟩ := Roster.in_of_mem hold
    obtain ⟨l, hl, hf⟩ := hw s p hp hin
    have hplace := (act_roster h a).place_unique (q := .indexed) (act_fits h hin hl hf a).1 hs
    rcases (change_fitting h hin hl a).before (.inr hplace) with hc | rfl | rfl
    · rw [hc] at hplace
      cases hplace
    · exact .inl hin
    · exact .inr hin
  · cases (act_roster h a).place_unique (p := .held) (q := .indexed) hheld hs

theorem after_screened (h : w.Roster) (hw : w.AllFit) (hs : w.Screened) (run : List Action) :
    (w.after run).Screened := by
  induction run generalizing w with
  | nil => exact hs
  | cons a rest ih =>
    refine ih (act_roster h a) (act_allFit h hw a) fun s hm => ?_
    rw [act_config]
    exact (indexed_of_act h hw a hm).elim (h.admitted s) (hs s)

/-- In light mode nobody waits or is installed who wants logs. -/
theorem ne_logs_of_after {bus : Bus} {config : Config} {governor : Governor} (run : List Action)
    (hs : s ∈ ((start bus config governor).after run).hub.installs ∨
      s ∈ ((start bus config governor).after run).hub.index.values)
    (hlight : config.lightMode = true) : s.kind ≠ .logs := by
  have hstart := start_roster bus config governor
  have hconfig : ((start bus config governor).after run).hub.config = config := after_config _ run
  have hscreened : (start bus config governor).Screened := fun s hm => absurd hm (by
    simp [start, Table.values])
  have hmode := hs.elim ((after_roster hstart run).admitted s)
    (after_screened hstart (start_allFit bus config governor) hscreened run s)
  rw [hconfig, hlight, Bool.true_and] at hmode
  intro hk
  rw [hk] at hmode
  cases hmode

/-! ## What the hub asks the bus for -/

/-- The ledger has grown, and the topics that were asked for are of a kind. -/
def Asks (P : Topic → Prop) (w w' : World) : Prop :=
  ∃ new, w'.hub.ledger = w.hub.ledger ++ new ∧ ∀ t granted, .requested t granted ∈ new → P t

theorem Asks.of_eq {P : Topic → Prop} (h : w'.hub.ledger = w.hub.ledger) : Asks P w w' :=
  ⟨[], by rw [h, List.append_nil], fun _ _ hm => nomatch hm⟩

/-- What an action asks the bus for, on behalf of the hub, is the topic of the first that waits. The
calls that it makes are those of which its new entries tell (`perform_calls`). -/
theorem act_asks (w : World) (a : Action) :
    Asks (fun t => a = .turn .install ∧ ∃ s, w.hub.installs.head? = some s ∧ s.topic = t) w
      (w.act a) := by
  by_cases ha : ∃ t, a = .turn t
  · obtain ⟨t, rfl⟩ := ha
    simp only [act]
    split
    · obtain ⟨bus, new, hcalls, -, hasked⟩ := perform_calls w t
      refine ⟨new, hcalls.ledger, fun topic granted hm => ?_⟩
      obtain ⟨rfl, hfirst⟩ := hasked topic granted hm
      exact ⟨rfl, hfirst⟩
    · exact .of_eq rfl
  · exact .of_eq (act_sameLoop w fun t h => ha ⟨t, h⟩).ledger

theorem after_ledger {run : List Action} (h : ∀ a ∈ run, ∀ t, a ≠ .turn t) :
    (w.after run).hub.ledger = w.hub.ledger := by
  induction run generalizing w with
  | nil => rfl
  | cons a rest ih =>
    rw [after_cons, ih fun b hb => h b (List.mem_cons_of_mem _ hb)]
    exact (act_sameLoop w (h a List.mem_cons_self)).ledger

/-- A move asks the bus for nothing on behalf of the hub, unless it is a step of the hub. -/
theorem move_asks (w : World) (m : Move) :
    Asks (fun t => m = .act (.turn .install) ∧
      ∃ s, w.hub.installs.head? = some s ∧ s.topic = t) w (w.move m) := by
  rcases move_desk_cases w m with hd | ⟨a, run, hmaking, hrun, hd⟩
  · exact .of_eq (congrArg (·.2.2) hd)
  · have hcalls : ∀ b ∈ run, ∀ t, b ≠ .turn t := by
      intro b hb t
      obtain ⟨id, rfl | rfl⟩ := hrun b hb <;> simp
    have hledger : (w.move m).hub.ledger = (w.act a).hub.ledger :=
      (congrArg (·.2.2) hd : _ = ((w.act a).after run).hub.ledger).trans (after_ledger hcalls)
    obtain ⟨new, hnew, hasked⟩ := act_asks w a
    refine ⟨new, hledger.trans hnew, fun t granted hm => ?_⟩
    obtain ⟨rfl, hfirst⟩ := hasked t granted hm
    exact ⟨eq_act_of_making hmaking, hfirst⟩

/-! ## Why the bus refuses -/

/-- A topic that is not blank is refused for one cause. -/
theorem eq_closed_of_subscribe {b : Bus} {t : Topic} {e : BusError} (ht : Text.isBlank t = false)
    (h : (b.subscribe t).1 = .error e) : e = .closed := by
  have herror : b.subscribe t = (.error e, (b.subscribe t).2) := Prod.ext h rfl
  obtain ⟨-, ⟨-, hblank⟩ | ⟨he, -⟩⟩ := Bus.subscribe_error herror
  · rw [ht] at hblank
    cases hblank
  · exact he

/-- A subscription ends with an error of the bus where the bus refuses its topic. -/
theorem refused_of_change {a : Action} {e : BusError}
    (h : w.change s a = .ended (.registrationFailed e)) :
    (w.bus.subscribe s.topic).1 = .error e := by
  cases a with
  | submit id =>
    simp only [change] at h
    repeat' split at h
    all_goals cases h
  | discard id =>
    simp only [change] at h
    split at h <;> cases h
  | turn t =>
    simp only [change] at h
    split at h
    · rename_i hr
      cases endsBy_of_turnChange hr h with
      | refused _ _ _ hb => exact hb
    · cases h
  | _ => cases h

/-- Whoever has been made in a run is traced after it, and its line blames the bus for being closed
only. -/
theorem closed_of_along (h : w.Roster) {run : List Action} (hs : s ∈ along brought w run) :
    ∃ p l, (w.after run).Traced s p l ∧ l.BlamesClosing := by
  have htopic := (wellMade_of_along hs).topic
  induction run using List.reverseRecOn with
  | nil => cases hs
  | append_singleton run a ih =>
    rw [along_concat, List.mem_append, Option.mem_toList] at hs
    rw [after_concat]
    rcases hs with hs | hs
    · obtain ⟨p, l, htraced, hblame⟩ := ih hs
      refine ⟨_, _, htraced.act a, fun e he => ?_⟩
      rcases Change.line_reason s l ((w.after run).change s a) with hsame | ⟨r, hc, hr⟩
      · exact hblame e (hsame ▸ he)
      · have hre : some r = some (.registrationFailed e) := hr ▸ he
        rw [Option.some.injEq] at hre
        exact eq_closed_of_subscribe htopic (refused_of_change (hre ▸ hc))
    · obtain ⟨buffer, attached, htraced⟩ := traced_of_brought (after_roster h run) hs
      refine ⟨_, _, htraced, fun e he => ?_⟩
      cases he

/-- After a run of a new hub every line is that of a subscription that was made, and blames the bus
for being closed only. -/
theorem traced_of_line {bus : Bus} {config : Config} {governor : Governor} {run : List Action}
    {id : SubscriptionId} {l : Line}
    (hl : ((start bus config governor).after run).lines.get? id = some l) :
    ∃ s p, s.id = id ∧ ((start bus config governor).after run).Traced s p l ∧ l.BlamesClosing := by
  have hkey := Table.mem_keys_of_get? hl
  obtain ⟨n, rfl, hlt⟩ := (after_put bus config governor run).made _ hkey
  rcases brought_of_issued run hlt with hnew | ⟨s, hs, hid⟩
  · exact absurd hnew (Nat.not_lt_zero n)
  · obtain ⟨p, l', htraced, hblame⟩ := closed_of_along (start_roster bus config governor) hs
    have hline := htraced.line
    rw [hid, hl, Option.some.injEq] at hline
    subst hline
    exact ⟨s, p, hid, htraced, hblame⟩

/-- Whoever is told that the bus has refused a topic is told that the bus was closed. -/
theorem eq_closed_of_told {bus : Bus} {config : Config} {governor : Governor} {run : List Action}
    {id : SubscriptionId} {e : BusError}
    (h : ((start bus config governor).after run).Told id (.registrationFailed e)) : e = .closed := by
  cases hl : ((start bus config governor).after run).lines.get? id with
  | none =>
    have hnobody : ((start bus config governor).after run).receiver? id = none := by
      simp [receiver?, hl]
    rcases h with ⟨w', h⟩ | ⟨w', h⟩ | ⟨w', h⟩
    · simp [tryError, hnobody] at h
    · simp [World.receive, hnobody] at h
    · simp [World.askInstalled, hnobody] at h
  | some l =>
    obtain ⟨s, p, rfl, htraced, hblame⟩ := traced_of_line hl
    obtain ⟨-, -, he⟩ := h.ending htraced.line htraced.fits.honest
    unfold Line.ending at he
    cases hr : l.reason with
    | none =>
      rw [hr] at he
      cases he
    | some r =>
      rw [hr, Option.getD_some] at he
      exact hblame e (he ▸ hr)

/--
**The rules of admission.** After any moves of a system with polling filters, and whatever came
before them, whoever waits or is installed is admissible, and is no subscription to logs in light
mode; the next move has the hub ask the bus for a topic only if it installs the first that waits,
whose topic that is; the bus refuses the topic of no one that waits but for being closed; and that
is all that a client is ever told of the bus, by its subscription or by a filter that it creates.
-/
theorem admission_rules (bus : Bus) (config : Config) (governor : Governor) (before : List Action)
    (moves : List Move) :
    let w := (((start bus config governor).after before).openPolling).through moves
    (∀ s, s ∈ w.hub.installs ∨ s ∈ w.hub.index.values →
      s.Admissible ∧ (config.lightMode = true → s.kind ≠ .logs)) ∧
    (∀ m, ∃ new, (w.move m).hub.ledger = w.hub.ledger ++ new ∧
      ∀ t granted, .requested t granted ∈ new → m = .act (.turn .install) ∧
        ∃ s, w.hub.installs.head? = some s ∧ s.topic = t ∧
          (config.lightMode = true → s.kind ≠ .logs)) ∧
    (∀ s ∈ w.hub.installs, ∀ e, (w.bus.subscribe s.topic).1 = .error e → e = .closed) ∧
    (∀ id e, w.Told id (.registrationFailed e) →
      SubscriptionError.message (.registrationFailed e) =
        "Upstream registration failed: " ++ BusError.closed.message) ∧
    (∀ c e, (w.finishFilter c).1 = some (.error (.subscription (.registrationFailed e))) →
      SubscriptionError.message (.registrationFailed e) =
        "Upstream registration failed: " ++ BusError.closed.message) := by
  intro w
  obtain ⟨run, hrun⟩ := through_after bus config governor before moves
  have hw : w = (start bus config governor).after run := hrun
  have hmade : ∀ s, s ∈ w.hub.installs ∨ s ∈ w.hub.index.values → s.WellMade := by
    intro s hs
    rw [hw] at hs
    exact wellMade_of_after (Roster.mem_everyone.mpr (.inr hs))
  have hlogs : ∀ s, s ∈ w.hub.installs ∨ s ∈ w.hub.index.values → config.lightMode = true →
      s.kind ≠ .logs := by
    intro s hs
    rw [hw] at hs
    exact ne_logs_of_after run hs
  have htold : ∀ id e, w.Told id (.registrationFailed e) → e = .closed := by
    intro id e h
    rw [hw] at h
    exact eq_closed_of_told h
  refine ⟨fun s hs => ⟨(hmade s hs).admissible, hlogs s hs⟩, fun m => ?_, fun s hs e he => ?_,
    fun id e h => ?_, fun c e h => ?_⟩
  · obtain ⟨new, hledger, hnew⟩ := move_asks w m
    refine ⟨new, hledger, fun t granted hm => ?_⟩
    obtain ⟨hinstall, s, hfirst, ht⟩ := hnew t granted hm
    exact ⟨hinstall, s, hfirst, ht, hlogs s (.inl (List.mem_of_mem_head? hfirst))⟩
  · exact eq_closed_of_subscribe (hmade s (.inl hs)).topic he
  · rw [htold id e h]
    rfl
  · rcases finishFilter_cases w c with ⟨-, hf⟩ | ⟨r, hask, hf⟩ | hf <;> rw [hf] at h <;> cases h
    rw [htold c.id e (.inr (.inr ⟨_, hask⟩))]
    rfl

/-- In light mode a client is refused its logs; another one listens to headers when the bus is closed,
and a third one is told so. -/
theorem admission_rules_light :
    let before : List Action := [.makeWithin .newHeads none, .submit (.issued 0), .turn .install,
      .makeWithin .logs none, .submit (.issued 1), .busClose, .makeWithin .pendingTransactions none,
      .submit (.issued 2), .turn .install]
    let w := ((start (Bus.sized 4) .light .absent).after before).openPolling
    w.hub.index.values = [⟨.issued 0, .newHeads, headerTopic, none⟩] ∧
      Subscription.Admissible ⟨.issued 0, .newHeads, headerTopic, none⟩ ∧
      ∃ e, w.Told (.issued 2) (.registrationFailed e) ∧
        SubscriptionError.message (.registrationFailed e) =
          "Upstream registration failed: Event bus closed" := by
  intro before w
  have hindex : w.hub.index.values = [⟨.issued 0, .newHeads, headerTopic, none⟩] := by
    decide +kernel
  have htold : (w.tryError (.issued 2)).map (·.1) = some (some (.registrationFailed .closed)) := by
    decide +kernel
  obtain ⟨⟨answer, w'⟩, htry, rfl⟩ := Option.map_eq_some_iff.mp htold
  have hrules := admission_rules (Bus.sized 4) .light .absent before []
  refine ⟨hindex, (hrules.1 _ (.inr ?_)).1, .closed, .inl ⟨w', htry⟩, ?_⟩
  · rw [through_nil, hindex]
    exact List.mem_singleton_self _
  · exact hrules.2.2.2.1 (.issued 2) .closed (.inl ⟨w', htry⟩)

end World

end EventFanout
