/-
EventFanout.Proofs.Admission.Limits — the limits a hub is configured with, and whom they bind.

The limits are looked at where a subscription is made within the limits of the hub, which clients
and the registry of polling filters can do. The constructor itself knows of no hub: it checks
criteria with the number of positions that a log can have and with any number of emitters. What
it has made is taken in as it is.

Main statement: `indexed_within_limits`, over any moves after a registry was opened. That a
subscription of the constructor can be installed beyond the limits is `indexed_beyond_limits`.
-/
import EventFanout.Proofs.Admission.Origin

namespace EventFanout.World

variable {w : World} {s : Subscription} {c : Criteria}

/-- What a run makes within the limits of the hub keeps to the limits it had at the beginning. -/
theorem validate_of_along {run : List Action} (hs : s ∈ along offered w run)
    (hc : s.criteria = some c) :
    c.validate w.hub.config.maxTopics.toNat w.hub.config.maxAddresses.toNat = .ok () := by
  obtain ⟨earlier, a, _, -, ha⟩ := mem_along hs
  have hv := validate_of_offered ha hc
  rwa [after_config] at hv

theorem validate_of_during (h : w.Managed) {moves : List Move} (hs : s ∈ during offeredBy w moves)
    (hc : s.criteria = some c) :
    c.validate w.hub.config.maxTopics.toNat w.hub.config.maxAddresses.toNat = .ok () := by
  obtain ⟨earlier, m, _, -, hm⟩ := mem_during hs
  obtain ⟨a, -, ha⟩ := Option.bind_eq_some_iff.mp hm
  have hv := validate_of_offered ha hc
  rwa [h.through_config] at hv

/--
**Who keeps to the limits.** Whoever is installed, after any moves of a system with polling filters
and whatever came before them, was made by a client or for a filter, and its criteria pass with as
many positions as a log has topics. If it was made within the limits of the hub, as every filter's is, its
criteria pass with the limits that the hub was configured with.
-/
theorem indexed_within_limits (bus : Bus) (config : Config) (governor : Governor)
    (before : List Action) (moves : List Move) :
    let w₀ := start bus config governor
    let w₁ := (w₀.after before).openPolling
    ∀ s ∈ (w₁.through moves).hub.index.values,
      (s ∈ along brought w₀ before ∨ s ∈ during broughtBy w₁ moves) ∧
      (∀ c, s.criteria = some c → c.validate maxTopicSlots (UInt64.size - 1) = .ok ()) ∧
      (s ∈ along offered w₀ before ∨ s ∈ during offeredBy w₁ moves → ∀ c, s.criteria = some c →
        c.validate config.maxTopics.toNat config.maxAddresses.toNat = .ok ()) := by
  intro w₀ w₁ s hs
  have heveryone : s ∈ (w₁.through moves).everyone := Roster.mem_everyone.mpr (.inr (.inr hs))
  obtain ⟨run, hrun⟩ := through_after bus config governor before moves
  have hmade : s.WellMade := wellMade_of_after (hrun ▸ heveryone)
  refine ⟨mem_of_everyone heveryone, fun c hc => hmade.validate hc, ?_⟩
  have hconfig : w₁.hub.config = config := after_config w₀ before
  rintro (hoffered | hoffered) c hc
  · exact validate_of_along hoffered hc
  · have hv := validate_of_during (openPolling_managed bus config governor before) hoffered hc
    rwa [hconfig] at hv

/-- Three are installed where criteria may have two positions: one was made within the limits of
the hub, one by the constructor, and one for a filter. -/
theorem indexed_within_limits_two :
    let config : Config := { maxTopics := 2 }
    let before : List Action := [.makeWithin .logs (some { topics := [[], []] }),
      .submit (.issued 0), .make .logs (some { topics := [[], [], []] }) transactionTopic 4,
      .submit (.issued 1), .turn .install, .turn .install]
    let moves : List Move := [.create (.logs { topics := [[]] }), .act (.turn .install)]
    let installed := (((start (Bus.sized 4) config .absent).after before).openPolling.through
      moves).hub.index.values
    installed.map (fun s => s.criteria.map (·.topics.length)) = [some 2, some 3, some 1] ∧
      ∀ s ∈ installed, s.id ≠ .issued 1 → ∀ c, s.criteria = some c →
        c.validate config.maxTopics.toNat config.maxAddresses.toNat = .ok () := by
  intro config before moves installed
  have hoffered : ∀ s ∈ installed, s.id ≠ .issued 1 →
      s ∈ along offered (start (Bus.sized 4) config .absent) before ∨
        s ∈ during offeredBy ((start (Bus.sized 4) config .absent).after before).openPolling moves :=
    by decide +kernel
  refine ⟨by decide +kernel, fun s hs hid => ?_⟩
  exact (indexed_within_limits (Bus.sized 4) config .absent before moves s hs).2.2
    (hoffered s hs hid)

/-- A client has the constructor make a subscription with three positions and hands it to a hub
that allows two: it is installed. -/
theorem indexed_beyond_limits :
    let config : Config := { maxTopics := 2 }
    let run : List Action := [.make .logs (some { topics := [[], [], []] }) transactionTopic 4,
      .submit (.issued 0), .turn .install]
    config.validate = .ok () ∧
      ¬ ∀ s ∈ ((start (Bus.sized 4) config .absent).after run).hub.index.values, ∀ c,
        s.criteria = some c →
          c.validate config.maxTopics.toNat config.maxAddresses.toNat = .ok () := by
  intro config run
  refine ⟨by decide, fun h => ?_⟩
  have hs : (⟨.issued 0, .logs, transactionTopic, some { topics := [[], [], []] }⟩ : Subscription) ∈
      ((start (Bus.sized 4) config .absent).after run).hub.index.values := by decide
  have hrefused : Criteria.validate { topics := [[], [], []] } config.maxTopics.toNat
      config.maxAddresses.toNat = .error (.tooManyTopics 3 2) := by decide
  have hpass := h _ hs _ rfl
  rw [hrefused] at hpass
  cases hpass

end EventFanout.World
