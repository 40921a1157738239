/-
EventFanout.Proofs.Polling.Settling — what a system with polling filters does by itself.

Left alone, the hub and the tasks of the filters take turns until nothing is left to do, and when
the registry is given up the tasks end, at once or when the hub has worked. Either is a run of moves
(`settle_through`, `closePolling_through`), so what holds of every run of moves holds of these.
-/
import EventFanout.Proofs.Polling.Moves

namespace EventFanout.World

variable {w : World}

/-! ## Settling -/

/-- What is a run of moves for every member of a list is one for the list. -/
theorem foldl_through {α : Type} {f : World → α → World}
    (hf : ∀ w a, ∃ moves, f w a = w.through moves) (l : List α) (w : World) :
    ∃ moves, l.foldl f w = w.through moves := by
  induction l generalizing w with
  | nil => exact ⟨[], rfl⟩
  | cons a rest ih =>
    obtain ⟨first, hfirst⟩ := hf w a
    obtain ⟨others, hothers⟩ := ih (f w a)
    refine ⟨first ++ others, ?_⟩
    rw [through_append, ← hfirst]
    exact hothers

theorem takeTurns_through (n : Nat) (w : World) : ∃ moves, takeTurns n w = w.through moves := by
  induction n generalizing w with
  | zero => exact ⟨[], rfl⟩
  | succ n ih =>
    rw [takeTurns]
    cases ht : w.turn? with
    | none => exact ⟨[], rfl⟩
    | some t =>
      obtain ⟨moves, h⟩ := ih (w.perform t)
      have hmove : w.move (.act (.turn t)) = w.perform t := if_pos (running_of_turn? ht)
      refine ⟨.act (.turn t) :: moves, ?_⟩
      rw [through_cons, hmove]
      exact h

theorem runHub_through (w : World) : ∃ moves, w.runHub = w.through moves := by
  obtain ⟨moves, h⟩ := takeTurns_through w.workLeft w
  refine ⟨moves ++ [.act .rest], ?_⟩
  rw [through_concat, ← h]
  rfl

theorem drainSteps_through (id : SubscriptionId) (n : Nat) (w : World) :
    ∃ moves, drainSteps id n w = w.through moves := by
  induction n generalizing w with
  | zero => exact ⟨[], rfl⟩
  | succ n ih =>
    rw [drainSteps]
    cases hd : w.drainStep id with
    | none => exact ⟨[], rfl⟩
    | some w' =>
      obtain ⟨moves, h⟩ := ih w'
      have hmove : w.move (.drain id) = w' := by simp only [move, hd, Option.getD_some]
      refine ⟨.drain id :: moves, ?_⟩
      rw [through_cons, hmove]
      exact h

theorem runDrains_through (w : World) : ∃ moves, w.runDrains = w.through moves :=
  foldl_through (fun w (d : Drain) => drainSteps_through d.id (w.drainLeft d.id) w)
    w.polling.drains w

theorem settleRounds_through (n : Nat) (w : World) : ∃ moves, settleRounds n w = w.through moves := by
  induction n generalizing w with
  | zero => exact ⟨[], rfl⟩
  | succ n ih =>
    obtain ⟨hub, hhub⟩ := runHub_through w
    obtain ⟨tasks, htasks⟩ := runDrains_through w.runHub
    have hround : w.runHub.runDrains.runSweeper = w.through (hub ++ tasks ++ [.tick]) := by
      rw [through_concat, through_append, ← hhub, ← htasks]
      rfl
    simp only [settleRounds]
    split
    · obtain ⟨others, hothers⟩ := ih w.runHub.runDrains.runSweeper
      refine ⟨hub ++ tasks ++ [.tick] ++ others, ?_⟩
      rw [through_append, ← hround]
      exact hothers
    · exact ⟨_, hround⟩

/-- What the hub, the tasks and the sweeper do until nothing is left to do is a run of moves. -/
theorem settle_through (w : World) : ∃ moves, w.settle = w.through moves :=
  settleRounds_through _ w

/-! ## Giving the registry up -/

theorem endDrain_polling (w : World) (id : SubscriptionId) :
    (w.endDrain id).polling = w.polling.left id :=
  dropReceiver_polling { w with polling := w.polling.left id } id

/-- It does not matter whether a task is told to stop before or after another one ends. -/
theorem cancelDrains_endDrain (w : World) (id : SubscriptionId) :
    (w.endDrain id).cancelDrains = w.cancelDrains.endDrain id := by
  have hfilter : (w.polling.drains.filter fun d => d.id ≠ id).map Drain.cancel =
      (w.polling.drains.map Drain.cancel).filter fun d => d.id ≠ id := by
    rw [List.filter_map]
    rfl
  simp only [cancelDrains, endDrain, dropReceiver_write, hfilter]

/-- A task that has been told to stop ends when it gets to it. -/
theorem drainStep_cancelDrains {id : SubscriptionId} (hid : id ∈ w.polling.drains.map Drain.id) :
    w.cancelDrains.drainStep id = some (w.cancelDrains.endDrain id) := by
  have hd : w.cancelDrains.drain? id = some ⟨id, true⟩ := by
    obtain ⟨d, hd, rfl⟩ := List.mem_map.mp hid
    have hfind : (w.cancelDrains.drain? d.id).isSome :=
      List.find?_isSome.mpr ⟨d.cancel, List.mem_map_of_mem hd, by simp⟩
    obtain ⟨d', hd'⟩ := Option.isSome_iff_exists.mp hfind
    obtain ⟨d₀, -, rfl⟩ := List.mem_map.mp (List.mem_of_find?_eq_some hd')
    have hsame : d₀.cancel.id = d.id := by
      simpa only [decide_eq_true_eq] using List.find?_some hd'
    rw [hd', ← hsame]
    rfl
  simp [drainStep, hd, bind, Option.bind]

/-- To end all tasks is to tell them to stop and let each get to it. -/
theorem endDrains_through {ids : List SubscriptionId} (hn : ids.Nodup)
    (hids : w.polling.drains.map Drain.id = ids) :
    ids.foldl endDrain w = w.cancelDrains.through (ids.map .drain) := by
  induction ids generalizing w with
  | nil =>
    have hnil : w.polling.drains = [] := List.map_eq_nil_iff.mp hids
    simp only [List.foldl_nil, List.map_nil, through_nil, cancelDrains, hnil]
    rw [← hnil]
  | cons id rest ih =>
    have hfirst : id ∈ w.polling.drains.map Drain.id := hids ▸ List.mem_cons_self
    have hrest : (w.endDrain id).polling.drains.map Drain.id = rest := by
      have hmap : (w.polling.drains.filter fun d => d.id ≠ id).map Drain.id =
          (w.polling.drains.map Drain.id).filter (· ≠ id) := by
        rw [List.filter_map]
        rfl
      rw [endDrain_polling]
      show (w.polling.drains.filter fun d => d.id ≠ id).map Drain.id = rest
      rw [hmap, hids, List.filter_cons_of_neg (by simp), List.filter_eq_self]
      intro id' hid'
      simp only [ne_eq, decide_eq_true_eq]
      rintro rfl
      exact (List.nodup_cons.mp hn).1 hid'
    have hmove : w.cancelDrains.move (.drain id) = (w.endDrain id).cancelDrains := by
      simp only [move, drainStep_cancelDrains hfirst, Option.getD_some, cancelDrains_endDrain]
    rw [List.foldl_cons, List.map_cons, through_cons, hmove]
    exact ih (List.nodup_cons.mp hn).2 hrest

/-- To give the registry up, whoever works first then, is a run of moves. -/
theorem closePolling_through (hlive : w.polling.live = true) (hc : w.polling.creations = [])
    (hn : (w.polling.drains.map Drain.id).Nodup) : ∃ moves, w.closePolling = w.through moves := by
  have hclose : w.move .close =
      { w with polling.live := false, polling.filters := {} }.cancelDrains := by
    simp only [move, hlive, hc, List.isEmpty_nil, Bool.and_self, if_true]
  simp only [closePolling]
  split
  · exact ⟨[.close], hclose.symm⟩
  · have hend := endDrains_through (w := { w with polling.live := false, polling.filters := {} })
      hn rfl
    refine ⟨.close :: (w.polling.drains.map Drain.id).map .drain, ?_⟩
    rw [through_cons, hclose, ← hend, List.foldl_map]
    rfl

end EventFanout.World
