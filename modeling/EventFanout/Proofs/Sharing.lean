/-
EventFanout.Proofs.Sharing — a bus that a hub shares with others.

Others subscribe to topics of the bus through handles of their own, also to those that the
hub is registered on. A topic has one channel at a time, so a hub that gives a topic up ends
it for everybody who reads it: the handle of another client does not survive the last
subscription of the hub on the same topic (`granted_ended_shared`). That is all a hub does to
others. No installation ends anything, nor does a removal that leaves a subscription on the
topic, nor taking note that a topic was closed, nor giving another topic up.

Main statement: `granted_ended`, over every run of a new hub on a new bus.
-/
import EventFanout.Proofs.Delivery.EndToEnd
import EventFanout.Proofs.Hub.Endings
import EventFanout.Proofs.Order

namespace EventFanout.World

variable {w : World} {t : Topic} {hd : Handle}

/-- A handle that was granted leads to an open channel of its topic. -/
theorem granted_channel (hf : w.Fed) (h : (w.bus.subscribe t).1 = .ok hd) :
    ∃ ch, (w.act (.busSubscribe t)).bus.channels[hd.channel]? = some ch ∧ ch.topic = t ∧
      ch.log.closed = false := by
  have hsub : w.bus.subscribe t = (.ok hd, (w.bus.subscribe t).2) := Prod.ext h rfl
  have hroute := (Bus.subscribe_ok hsub).2.2.2
  exact (Bus.subscribe_goes hf.wired t).wired t _ hroute

/-- The topic of a channel on record stays. -/
theorem after_channel (hw : w.Orderly) {place : Nat} {ch : TopicChannel}
    (hch : w.bus.channels[place]? = some ch) (run : List Action) :
    ∃ ch', (w.after run).bus.channels[place]? = some ch' ∧ ch'.topic = ch.topic := by
  induction run using List.reverseRecOn with
  | nil => exact ⟨ch, hch, rfl⟩
  | append_singleton run a ih =>
    obtain ⟨ch₁, hch₁, ht₁⟩ := ih
    have hw₁ := hw.after run
    obtain ⟨ch₂, hch₂, ht₂, -⟩ := (act_leaves hw₁.fed hw₁.sound a).channel place ch₁ hch₁
    rw [after_concat]
    exact ⟨ch₂, hch₂, ht₂.trans ht₁⟩

/-- A channel that ends over a run is cut at some moment of it. -/
theorem after_cut (hw : w.Orderly) {ch : TopicChannel}
    (hch : w.bus.channels[hd.channel]? = some ch) (hopen : w.bus.hasEnded hd = false)
    {run : List Action} (hend : (w.after run).bus.hasEnded hd = true) :
    ∃ earlier a, earlier ++ [a] <+: run ∧ (w.after earlier).bus.hasEnded hd = false ∧
      (w.after earlier).Cuts ch.topic a := by
  induction run using List.reverseRecOn with
  | nil =>
    rw [after_nil, hopen] at hend
    cases hend
  | append_singleton run a ih =>
    cases hold : (w.after run).bus.hasEnded hd with
    | true =>
      obtain ⟨earlier, b, hpre, h⟩ := ih hold
      exact ⟨earlier, b, hpre.trans (List.prefix_append _ _), h⟩
    | false =>
      obtain ⟨ch', hch', ht⟩ := after_channel hw hch run
      have hw' := hw.after run
      rw [after_concat] at hend
      refine ⟨run, a, List.prefix_refl _, hold, ?_⟩
      rw [← ht]
      exact (act_leaves hw'.fed hw'.sound a).cut hch' hold hend

/--
**What a hub does to the handles of others.** After any run of a new hub on a new bus, another
client is granted a handle on a topic. Its channel is open then; and if it has ended after any run
that follows, then at some moment of it the channel was open and the action that came next was
another client's unsubscribing of the topic or closing of the bus, or a step in which the hub gave
up its own registration on that topic, by losing its last subscription there or by shutting down.
-/
theorem granted_ended {capacity : Nat} {config : Config} {governor : Governor}
    {before : List Action} {t : Topic} {hd : Handle}
    (hgrant : (((start (Bus.sized capacity) config governor).after before).bus.subscribe t).1 =
      .ok hd) (run : List Action) :
    let granted := ((start (Bus.sized capacity) config governor).after before).act (.busSubscribe t)
    granted.bus.hasEnded hd = false ∧
      ((granted.after run).bus.hasEnded hd = true → ∃ earlier a, earlier ++ [a] <+: run ∧
        (granted.after earlier).bus.hasEnded hd = false ∧ (granted.after earlier).Cuts t a) := by
  intro granted
  have hw := (start_orderly capacity config governor).after before
  obtain ⟨ch, hch, ht, hopen⟩ := granted_channel hw.fed hgrant
  have hopen' : granted.bus.hasEnded hd = false := (Bus.hasEnded_eq hch).trans hopen
  refine ⟨hopen', fun hend => ?_⟩
  subst ht
  exact after_cut (hw.act _) hch hopen' hend

/-- While a hub is registered on a topic another client is granted a handle on it; the hub removes
its only subscription there, and the handle has ended. -/
theorem granted_ended_removed :
    let w := start (Bus.sized 4) {} .absent
    let before := [.makeWithin .newHeads none, .submit (.issued 0), .turn .install]
    let run := [.requestRemoval (.issued 0), .turn .remove]
    let granted := (w.after before).act (.busSubscribe headerTopic)
    ((w.after before).bus.subscribe headerTopic).1 = .ok ⟨headerTopic, 1, 0, 1⟩ ∧
      (granted.after run).bus.hasEnded ⟨headerTopic, 1, 0, 1⟩ = true ∧
      ∃ earlier a, earlier ++ [a] <+: run ∧
        (granted.after earlier).bus.hasEnded ⟨headerTopic, 1, 0, 1⟩ = false ∧
        (granted.after earlier).Cuts headerTopic a := by
  intro w before run granted
  have hgrant : ((w.after before).bus.subscribe headerTopic).1 = .ok ⟨headerTopic, 1, 0, 1⟩ := by
    decide
  exact ⟨hgrant, by decide, (granted_ended hgrant run).2 (by decide)⟩

/-- A handle that another client obtained does end by the work of the hub alone: in this run the hub
works in its order, and nobody else unsubscribes a topic or closes the bus. -/
theorem granted_ended_shared :
    let w := start (Bus.sized 4) {} .absent
    let run := [.makeWithin .newHeads none, .submit (.issued 0), .turn .install,
      .requestRemoval (.issued 0), .turn .remove]
    (w.bus.subscribe headerTopic).1 = .ok ⟨headerTopic, 1, 0, 0⟩ ∧
      w.InOrder (.busSubscribe headerTopic :: run) ∧
      (∀ a ∈ run, a ≠ .busClose ∧ ∀ t, a ≠ .busUnsubscribe t) ∧
      (w.after [.busSubscribe headerTopic]).bus.hasEnded ⟨headerTopic, 1, 0, 0⟩ = false ∧
      (w.after (.busSubscribe headerTopic :: run)).bus.hasEnded ⟨headerTopic, 1, 0, 0⟩ = true := by
  intro w run
  refine ⟨by decide, by decide, ?_, by decide, by decide⟩
  simp [run]

end EventFanout.World
