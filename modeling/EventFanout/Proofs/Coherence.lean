/-
EventFanout.Proofs.Coherence — the kinds of notifications agree along the whole way to a client.

The form of a notification is chosen several times: by the kind of the line when a subscription is
made, by the kind of the subscription when an event is handled, and by the form of the changes when
a polling filter collects. Each of these choices has a case for what does not fit: a line refuses a
notification of another kind, and changes ignore it. Main statement: `kinds_coherent`. Neither case
ever comes up, so nothing is lost there, and an event is only counted as an error for a subscription
that could not read it.
-/
import EventFanout.Proofs.Counting.Intake
import EventFanout.Proofs.Criteria.Matching
import EventFanout.Proofs.Delivery.Draining
import EventFanout.Proofs.Dispatch.FanOut
import EventFanout.Proofs.Lifecycle.Traced
import EventFanout.Proofs.Polling.Collected

namespace EventFanout

/-! ## What is told -/

/-- A line takes what its subscription is told. -/
theorem Line.send_ne_mismatch {l : Line} {s : Subscription} {p : Payload} {n : Notification}
    (hk : l.kind = s.kind) (hn : s.notification p = .ok (some n)) : l.send n ≠ .mismatch := by
  have hkind : n.kind = l.kind := (Subscription.kind_of_notification hn).trans hk.symm
  unfold Line.send
  rw [if_pos hkind]
  split <;> simp

/-- The logs of a notification are some of those of the transaction, in their order. -/
theorem Subscription.logs_of_notification {s : Subscription} {p : Payload} {logs : List Log}
    (hn : s.notification p = .ok (some (.logs logs))) :
    ∃ t, s.transaction p = .ok t ∧ logs ≠ [] ∧ logs.Sublist t.logs := by
  have hk : s.kind = .logs := (kind_of_notification hn).symm
  rw [notification_logs hk] at hn
  cases ht : s.transaction p with
  | error e =>
    rw [ht] at hn
    cases hn
  | ok t =>
    rw [ht] at hn
    simp only [Except.map, Except.ok.injEq] at hn
    split at hn
    · cases hn
    · rename_i hsome
      obtain rfl : s.wanted t = logs := by
        injection hn with hn
        injection hn
      refine ⟨t, rfl, by simpa using hsome, ?_⟩
      unfold wanted
      split
      · exact List.filter_sublist
      · exact List.Sublist.refl _

/-! ## What is collected -/

/-- A poll leaves changes of the form of the kind. -/
theorem Filter.suits_polled {f : Filter} (h : f.changes.Suits f.request.kind) (times : List Nat) :
    (times.foldl Filter.polled f).changes.Suits f.request.kind := by
  induction times generalizing f with
  | nil => exact h
  | cons time times ih => exact ih (f := f.polled time) (Changes.empty_suits _)

/-! ## What is counted -/

namespace World

variable {w : World}

/-- For how many of the clients who listen an event cannot be read, where an action reads one. -/
def failedMatches (w : World) : Action → Nat
  | .turn (.read t) =>
    match w.item? t with
    | some (.entry e) => (w.attended t).countP fun s => s.isUnreadable e.payload
    | _ => 0
  | _ => 0

theorem uninstall_transientErrors (w : World) (id : SubscriptionId) (r : SubscriptionError) :
    (w.uninstall id r).hub.metrics.transientErrors = w.hub.metrics.transientErrors := by
  rcases uninstall_cases w id r with ⟨-, h⟩ | ⟨k, s, -, h⟩ <;> rw [h]
  rcases releaseTopic_cases { w with hub.index := w.hub.index.erase (k, id) } s.topic with
    ⟨_, hrel⟩ | ⟨_, _, _, hrel⟩ | ⟨_, _, _, hrel⟩ <;>
  simp only [removed, hrel, closeLine_hub, publishView_hub, record_hub, releaseOnBus_hub,
    Metrics.record]

theorem install_transientErrors (w : World) (s : Subscription) :
    (w.install s).hub.metrics.transientErrors = w.hub.metrics.transientErrors := by
  rcases install_cases w s with ⟨-, -, h⟩ | ⟨-, h⟩ | ⟨e, -, -, -, h⟩ | ⟨w', -, hreg, h⟩ <;> rw [h]
  · rfl
  · rfl
  · rfl
  · rcases register_cases hreg with ⟨-, rfl⟩ | ⟨-, hd, bus, -, rfl⟩ <;> rfl

theorem closeTopic_transientErrors (hc : w.hub.Consistent) (t : Topic) :
    (w.closeTopic t).hub.metrics.transientErrors = w.hub.metrics.transientErrors := by
  by_cases ht : w.hub.topics.contains t = true
  · have hmetrics : (w.closeTopic t).hub.metrics = w.hub.metrics.recordAll
        (Effect.ending t ((w.hub.listeners t).map Subscription.id)).tallies := by
      rw [closeTopic_eq hc ht]
      rfl
    rw [hmetrics, Effect.ending, Metrics.recordAll_append, recordAll_uninstalls]
    rfl
  · rw [closeTopic, if_neg ht]

/-- Where no event is read, nothing cannot be read. -/
theorem failedMatches_eq_zero {t : Topic} (h : ∀ e, w.item? t ≠ some (.entry e)) :
    w.failedMatches (.turn (.read t)) = 0 := by
  rw [failedMatches]
  split
  · rename_i e hitem
    exact absurd hitem (h e)
  · rfl

/-- A step of the hub counts an error for each client for whom the event it reads cannot be read. -/
theorem perform_transientErrors (hw : w.Roster) (hfit : w.AllFit) (turn : Turn) :
    (w.perform turn).hub.metrics.transientErrors =
      w.hub.metrics.transientErrors + .ofNat (w.failedMatches (.turn turn)) := by
  have hnone : ∀ {w' : World}, w.failedMatches (.turn turn) = 0 →
      w'.hub.metrics.transientErrors = w.hub.metrics.transientErrors →
      w'.hub.metrics.transientErrors =
        w.hub.metrics.transientErrors + .ofNat (w.failedMatches (.turn turn)) := by
    intro w' hzero hsame
    rw [hzero, hsame]
    exact (UInt64.add_zero _).symm
  cases turn with
  | stop => exact hnone rfl (by rw [perform, shutdown_metrics])
  | install =>
    refine hnone rfl ?_
    simp only [perform]
    split
    · rfl
    · exact install_transientErrors _ _
  | remove =>
    refine hnone rfl ?_
    simp only [perform]
    split
    · rfl
    · exact uninstall_transientErrors _ _ _
  | read t =>
    cases hitem : w.item? t with
    | none =>
      refine hnone (failedMatches_eq_zero fun e => by simp [hitem]) ?_
      rw [perform_of_no_item hitem]
    | some item =>
      obtain ⟨h, ch, next, next', ht, -, -, hperform⟩ := reading_of_item hitem
      have hc := hw.sound.consistent
      rw [hperform]
      cases item with
      | entry e =>
        have hgiven := givenOut_of_lined (w := { w with bus := w.bus.advance h next' }) hw.sound
          (lined_of_allFit hfit t) (hc.contains_of_feed ht) e
        rw [hgiven.metrics]
        simp only [failedMatches, hitem]
        rfl
      | lagged n => exact hnone (failedMatches_eq_zero fun e => by simp [hitem]) rfl
      | ended =>
        exact hnone (failedMatches_eq_zero fun e => by simp [hitem])
          (closeTopic_transientErrors (w := { w with bus := w.bus.advance h next' }) hc t)

/-- An error is counted for each client for whom the event that is read cannot be read. -/
theorem act_transientErrors (hw : w.Roster) (hfit : w.AllFit) (a : Action) :
    (w.act a).hub.metrics.transientErrors =
      w.hub.metrics.transientErrors + .ofNat (w.failedMatches a) := by
  by_cases ha : ∃ turn, a = .turn turn
  · obtain ⟨turn, rfl⟩ := ha
    by_cases hr : w.hub.running = true
    · rw [act, if_pos hr, perform_transientErrors hw hfit]
    · -- a hub that has stopped reads nothing any more
      have hstopped : w.failedMatches (.turn turn) = 0 := by
        cases turn with
        | read t =>
          refine failedMatches_eq_zero fun e hitem => hr ?_
          obtain ⟨h, -, -, -, ht, -⟩ := reading_of_item hitem
          exact hw.sound.running (hw.sound.consistent.contains_of_feed ht)
        | _ => rfl
      rw [act, if_neg hr, hstopped]
      exact (UInt64.add_zero _).symm
  · obtain ⟨rejected, filtersExpired, hmetrics⟩ := (act_hub w fun t he => ha ⟨t, he⟩).metrics
    have hother : w.failedMatches a = 0 := by
      cases a with
      | turn turn => exact absurd ⟨turn, rfl⟩ ha
      | _ => rfl
    rw [hmetrics, hother]
    exact (UInt64.add_zero _).symm

/-- The counter of errors has one for each match that failed. -/
theorem after_transientErrors (bus : Bus) (config : Config) (governor : Governor)
    (run : List Action) : ((start bus config governor).after run).hub.metrics.transientErrors =
      .ofNat (tally failedMatches (start bus config governor) run) := by
  induction run using List.reverseRecOn with
  | nil => rfl
  | append_singleton run a ih =>
    have hroster := start_roster bus config governor
    rw [after_concat, act_transientErrors (after_roster hroster run)
      (after_allFit hroster (start_allFit bus config governor) run), ih, tally_concat,
      UInt64.ofNat_add]

/--
**The kinds of notifications agree along the whole way.** After any run of a new hub,

* for every subscription that was made in it, whatever the kind, topic, criteria and buffer, and for
  every payload that is something to tell it: its line takes the notification, and if these are
  logs, they are some of those of the transaction, at least one and in their order;
* the counter of errors has one for each client who listened when an event was read that could not
  be read for its subscription, and nothing else;
* if a registry of polling filters is opened and anything happens then: what the task of a filter
  receives was sent to the subscription of the filter, and of whatever was sent there the changes of
  the filter keep all entries, now and after any number of polls.
-/
theorem kinds_coherent (bus : Bus) (config : Config) (governor : Governor) (run : List Action) :
    let w₀ := start bus config governor
    (∀ s ∈ along brought w₀ run, ∃ l, (w₀.after run).lines.get? s.id = some l ∧
      ∀ p n, s.notification p = .ok (some n) → l.send n ≠ .mismatch ∧
        ∀ logs, n = .logs logs →
          ∃ t, s.transaction p = .ok t ∧ logs ≠ [] ∧ logs.Sublist t.logs) ∧
    (w₀.after run).hub.metrics.transientErrors = .ofNat (tally failedMatches w₀ run) ∧
    ∀ moves id f, let w := (w₀.after run).openPolling.through moves
      w.polling.filters.get? id = some f →
        (∀ m n, drained id w m = some n → n ∈ w.sentTo id) ∧
        ∀ n ∈ w.sentTo id, ∀ times : List Nat,
          let changes := (times.foldl Filter.polled f).changes
          (changes.append n).entries = changes.entries ++ n.entries := by
  intro w₀
  refine ⟨fun s hs => ?_, after_transientErrors bus config governor run, fun moves id f => ?_⟩
  · obtain ⟨p, l, htraced⟩ := traced_of_along (start_roster bus config governor) hs
    refine ⟨l, htraced.line, fun payload n hn =>
      ⟨Line.send_ne_mismatch htraced.fits.kind hn, ?_⟩⟩
    rintro logs rfl
    exact Subscription.logs_of_notification hn
  · intro w hf
    have hw : (w₀.after run).openPolling.Managed := openPolling_managed bus config governor run
    have hnone : (w₀.after run).openPolling.polling.ids = [] := rfl
    refine ⟨fun m n hn => mem_sentTo_of_drained hw hnone hn, fun n hn times => ?_⟩
    intro changes
    have hkind : n.kind = f.request.kind := kind_of_sentTo hw hnone hf hn
    have hsuits : changes.Suits f.request.kind :=
      Filter.suits_polled (through_conserved hw hnone moves hf).suits times
    exact Changes.append_entries (hkind ▸ hsuits)

/-- A payload that is no transaction is counted as an error. Then a filter for logs is polled, and of
two logs that it is sent after that its task has taken the first. The second is kept beside it, and
by itself if the filter is polled once more, or twice, before the task takes it. -/
theorem kinds_coherent_polled :
    let tx : Event := ⟨transactionTopic, .transaction { logs := [{}] }⟩
    let come (e : Event) : List Action := [.publish e, .turn (.read transactionTopic)]
    let run : List Action := [.makeWithin .logs none, .submit (.issued 0), .turn .install] ++
      come ⟨transactionTopic, .raw .null⟩
    let id : SubscriptionId := .issued 1
    let w₀ := start (Bus.sized 4) {} .absent
    let moves : List Move := [.create (.logs {}), .act (.turn .install), .finish id] ++
      (come tx).map .act ++ [.drain id, .poll id] ++
      (come tx).map .act ++ [.drain id] ++ (come tx).map .act
    let w := (w₀.after run).openPolling.through moves
    let f : Filter := ⟨.logs {}, 0, 0, .logs [{}]⟩
    (w₀.after run).hub.metrics.transientErrors = 1 ∧
      w.polling.filters.get? id = some f ∧
      drained id w (.drain id) = some (.logs [{}]) ∧
      (f.changes.append (.logs [{}])).entries = [.inl {}, .inl {}] ∧
      ((f.polled 3).changes.append (.logs [{}])).entries = [.inl {}] ∧
      (((f.polled 3).polled 5).changes.append (.logs [{}])).entries = [.inl {}] := by
  intro tx come run id w₀ moves w f
  have hcoherent := kinds_coherent (Bus.sized 4) {} .absent run
  have hnext : drained id w (.drain id) = some (.logs [{}]) := by decide +kernel
  have hpolling := hcoherent.2.2 moves id f (by decide +kernel)
  have hsent := hpolling.1 (.drain id) (.logs [{}]) hnext
  have hcounted : tally failedMatches w₀ run = 1 := by decide +kernel
  have hkept := hpolling.2 (.logs [{}]) hsent
  refine ⟨?_, by decide +kernel, hnext, hkept [], hkept [3], hkept [3, 5]⟩
  rw [hcoherent.2.1, hcounted]
  rfl

end World

end EventFanout
