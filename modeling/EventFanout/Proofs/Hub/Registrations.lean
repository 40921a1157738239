/-
EventFanout.Proofs.Hub.Registrations — what a hub calls the bus for, over whole runs.

Main statement: `registrations_of_evolves`. A hub asks the bus for a topic only while it
holds no subscription on it; between two grants the registration ends once, by a release
or by the end of the topic; nothing is released that is not registered; and what was
granted and not ended is exactly the topics somebody listens to.

All of it is said of the ledger, whose entries are the calls that the hub makes
(`calls_of_step`). That the ledger is in order is part of the invariant of a run. What
is left is the moment of a call: a topic is asked for only while it is not registered,
and then nobody listens to it (`Step.ledger`).
-/
import EventFanout.Proofs.Hub.Upstream

namespace EventFanout.World

/-- A topic is asked for only by a step that begins with no listener on it. -/
theorem Step.ledger {w w' : World} (h : Step w w') (hs : w.hub.Sound) :
    ∃ new, w'.hub.ledger = w.hub.ledger ++ new ∧
      ∀ t granted, .requested t granted ∈ new → w.hub.listeners t = [] := by
  rcases calls_of_step h with ⟨new, hcalls, hasked⟩ | hsame
  · refine ⟨new, hcalls.ledger, fun t granted hm => ?_⟩
    exact hs.consistent.listeners_eq_nil (hasked t granted hm)
  · exact ⟨[], by rw [hsame.ledger, List.append_nil], fun _ _ hm => nomatch hm⟩

/--
**The discipline of registrations.** After every run, for every topic: the next step asks the bus
for it only if no installed subscription listens to it; between two grants, one after the other,
exactly one entry closes the registration; a release finds the registration open; and the grants
outnumber the releases and ends by one if somebody listens, else not at all, as after the hub has
stopped.
-/
theorem registrations_of_evolves {bus : Bus} {config : Config} {governor : Governor} {w : World}
    (h : Evolves (start bus config governor) w) (t : Topic) :
    (∀ w', Step w w' → ∃ new, w'.hub.ledger = w.hub.ledger ++ new ∧
      ∀ granted, .requested t granted ∈ new → w.hub.listeners t = []) ∧
    (∀ before between after,
      w.hub.ledger = before ++ .requested t true :: (between ++ .requested t true :: after) →
      between.countP (Entry.opens t) = 0 → between.countP (Entry.closes t) = 1) ∧
    (∀ before after, w.hub.ledger = before ++ .released t :: after →
      before.countP (Entry.opens t) = before.countP (Entry.closes t) + 1) ∧
    w.hub.ledger.countP (Entry.opens t) = w.hub.ledger.countP (Entry.closes t) +
      (if w.hub.listeners t = [] then 0 else 1) ∧
    (w.hub.running = false →
      w.hub.ledger.countP (Entry.opens t) = w.hub.ledger.countP (Entry.closes t)) := by
  have hs := h.sound (start_sound bus config governor)
  have hbalance := hs.accounts.balance t
  refine ⟨?_, ?_, ?_, ?_, ?_⟩
  · intro w' hstep
    obtain ⟨new, e, hn⟩ := hstep.ledger hs
    exact ⟨new, e, hn t⟩
  · intro before between after hl hno
    exact hs.accounts.one_end_between hl hno
  · intro before after hl
    exact hs.accounts.closed before after _ t hl (by simp [Entry.closes])
  · have hiff := hs.consistent.registered_iff t
    rw [Table.contains_iff_mem_keys, Hub.exists_listener_iff, List.length_pos_iff] at hiff
    rw [hbalance]
    by_cases hl : w.hub.listeners t = [] <;> simp [hiff, hl]
  · intro hr
    rw [hbalance, (hs.stopped hr).2]
    simp [Table.keys]

/-- A topic is granted, ended by the bus, granted again and given up when the hub shuts down. -/
theorem registrations_of_evolves_twice :
    let s : Subscription := ⟨.issued 0, .newHeads, headerTopic, none⟩
    let w := (((start (Bus.sized 4) {} .absent).install s).dispatch headerTopic .ended).install s
    Evolves (start (Bus.sized 4) {} .absent) w.shutdown ∧
      w.shutdown.hub.ledger = [.requested headerTopic true, .ended headerTopic,
        .requested headerTopic true, .released headerTopic] ∧
      w.shutdown.hub.ledger.countP (Entry.opens headerTopic) =
        w.shutdown.hub.ledger.countP (Entry.closes headerTopic) := by
  intro s w
  have hrun : Evolves (start (Bus.sized 4) {} .absent) w.shutdown :=
    (((Relation.ReflTransGen.refl.tail (.install s rfl)).tail
      (.dispatch headerTopic .ended (by decide))).tail (.install s (by decide))).tail
      (.shutdown (by decide))
  exact ⟨hrun, by decide, (registrations_of_evolves hrun headerTopic).2.2.2.2 (by decide)⟩

end EventFanout.World
