/-
EventFanout.Proofs.Polling.Expiry — the expiry of polling filters is exact and bounded.

A sweep removes just those filters that nobody has polled for the timeout, and does everything that
goes with it just for these (`World.Sweeps`). Only its creation and its polls set the time from
which a filter counts (`lastPoll_move`), so one that is polled often enough is never swept away
(`through_polledOften`). And the sweeper comes often enough: while it waits for its next time, no
filter is older than the timeout and the time between two sweeps together (`AgesBounded`).

Main statement: `expiry_exact`, over any moves of a system with polling filters.

## How the bound is kept

The sweeper ticks late, and by any amount; ticks that were missed are not made up for; and filters
are polled at any time. What is kept is a bound from the time of the last tick that swept
(`World.SweptAt`): the next one is due at most one interval after it, and a filter that had not been
polled for the timeout by then has been polled since.
-/
import EventFanout.Proofs.Polling.Clock
import Mathlib.Data.List.Chain

namespace EventFanout.World

variable {w w' : World} {id : SubscriptionId} {f f' : Filter} {m : Move} {time : Nat}

/-! ## What a sweep does -/

/-- All that a sweep does. -/
structure Sweeps (w : World) : Prop where
  /-- It is about the filters that nobody has polled for the timeout, -/
  due : ∀ id, id ∈ w.expired ↔
    ∃ f, w.polling.filters.get? id = some f ∧ w.filterTimeout ≤ w.now - f.lastPoll
  /-- and about each of them once. -/
  once : w.expired.Nodup
  answer : w.sweep.1 = w.expired.length
  /-- It removes them, and leaves every other filter as it is. -/
  filters : ∀ id, w.sweep.2.polling.filters.get? id =
    if id ∈ w.expired then none else w.polling.filters.get? id
  slots : w.sweep.2.polling.slots.toNat + w.expired.length = w.polling.slots.toNat
  counted : w.sweep.2.hub.metrics = { w.hub.metrics with
    filtersExpired := w.hub.metrics.filtersExpired + .ofNat w.expired.length }
  /-- It asks for the removal of their subscriptions; a hub that has stopped has no queue. -/
  asked : w.sweep.2.hub.removals = w.hub.removals ++ if w.hub.running then w.expired else []
  /-- It tells their tasks to stop, and does nothing else. -/
  rest : w.sweep.2 = { w with
    hub.removals := w.sweep.2.hub.removals
    hub.metrics := w.sweep.2.hub.metrics
    polling.filters := w.sweep.2.polling.filters
    polling.slots := w.sweep.2.polling.slots
    polling.drains := w.polling.drains.map fun d => if d.id ∈ w.expired then d.cancel else d }

/-- There are no more filters that have expired than slots taken. -/
theorem length_expired_le {limit : UInt64} (ht : w.polling.Tidy limit) :
    w.expired.length ≤ w.polling.slots.toNat := by
  cases hx : w.expired with
  | nil => exact Nat.zero_le _
  | cons id rest =>
    have hle : w.expired.length ≤ w.polling.filters.size := by
      rw [expired, List.length_map]
      exact List.length_filter_le _ _
    have hlive := ht.live_of_filter ((expired_once ht.filed).2 id (hx ▸ List.mem_cons_self))
    rw [← hx, ht.counted hlive]
    omega

theorem toNat_sub_ofNat {a : UInt64} {n : Nat} (h : n ≤ a.toNat) :
    (a - .ofNat n).toNat + n = a.toNat := by
  have hn : (UInt64.ofNat n).toNat = n := by
    rw [UInt64.toNat_ofNat']
    exact Nat.mod_eq_of_lt (h.trans_lt a.toNat_lt)
  have hle : UInt64.ofNat n ≤ a := by rwa [UInt64.le_iff_toNat_le, hn]
  rw [UInt64.toNat_sub_of_le _ _ hle, hn]
  omega

theorem sweeps {limit : UInt64} (ht : w.polling.Tidy limit) : w.Sweeps := by
  have heq := sweep_eq ht.filed
  refine ⟨fun id => ?_, (expired_once ht.filed).1, rfl, fun id => get?_sweep ht.filed, ?_, ?_, ?_, ?_⟩
  · simp only [mem_expired ht.filed, timedOut, decide_eq_true_eq]
  · rw [heq]
    exact toNat_sub_ofNat (length_expired_le ht)
  · rw [heq]
  · rw [heq]
  · rw [heq]

/-! ## When a filter was polled last -/

def pollTime (id : SubscriptionId) (w : World) (m : Move) : Option Nat :=
  (polled id w m).map fun _ => w.now

/-- A filter that is there after a move was there, polled last when it was or polled in the move; or
it is entered in the move, and counts from then. -/
theorem lastPoll_move (hw : w.Managed) (h : (w.move m).polling.filters.get? id = some f') :
    (∃ f, w.polling.filters.get? id = some f ∧
      f'.lastPoll = (pollTime id w m).getD f.lastPoll) ∨
    (m = .finish id ∧ w.polling.filters.get? id = none ∧ f'.lastPoll = w.now) := by
  have hfate := move_fate hw m id
  rw [h] at hfate
  generalize hbefore : w.polling.filters.get? id = before at hfate
  cases hfate with
  | kept hp _ => exact .inl ⟨f', rfl, by rw [pollTime, hp]; rfl⟩
  | @collected f n hp _ => exact .inl ⟨f, rfl, by rw [pollTime, hp]; rfl⟩
  | @polled f _ hp _ => exact .inl ⟨f, rfl, by rw [pollTime, hp]; rfl⟩
  | entered hm _ _ => exact .inr ⟨hm, rfl, rfl⟩

/-! ## Filters that are polled -/

/-- From when it was polled last until now, a filter is always polled again within the timeout. -/
def PolledOften (w : World) (id : SubscriptionId) (f : Filter) (moves : List Move) : Prop :=
  List.IsChain (fun t t' => t' - t < w.filterTimeout)
    (f.lastPoll :: (during (pollTime id) w moves ++ [(w.through moves).now]))

instance (w : World) (id : SubscriptionId) (f : Filter) (moves : List Move) :
    Decidable (w.PolledOften id f moves) := inferInstanceAs (Decidable (List.IsChain _ _))

theorem filterTimeout_move (hw : w.Managed) (m : Move) :
    (w.move m).filterTimeout = w.filterTimeout := by
  rw [filterTimeout, show (w.move m).hub.config = w.hub.config from hw.through_config [m]]
  rfl

theorem sweepInterval_move (hw : w.Managed) (m : Move) :
    (w.move m).sweepInterval = w.sweepInterval := by
  rw [sweepInterval, show (w.move m).hub.config = w.hub.config from hw.through_config [m]]
  rfl

theorem le_of_mem_pollTimes {moves : List Move} {t : Nat}
    (h : t ∈ during (pollTime id) w moves) : w.now ≤ t := by
  obtain ⟨earlier, m, _, -, hm⟩ := mem_during h
  obtain ⟨_, -, rfl⟩ := Option.map_eq_some_iff.mp hm
  exact le_through_now w earlier

namespace PolledOften

variable {moves : List Move}

/-- A filter that is polled often has not expired. -/
theorem fresh (h : w.PolledOften id f moves) : w.now - f.lastPoll < w.filterTimeout := by
  have hlater : ∀ t ∈ during (pollTime id) w moves ++ [(w.through moves).now], w.now ≤ t := by
    intro t ht
    rcases List.mem_append.mp ht with ht | ht
    · exact le_of_mem_pollTimes ht
    · rw [List.mem_singleton.mp ht]
      exact le_through_now w moves
  rw [PolledOften] at h
  generalize hl : during (pollTime id) w moves ++ [(w.through moves).now] = l at h hlater
  cases l with
  | nil => simp at hl
  | cons t rest =>
    have hnext := (List.isChain_cons_cons.mp h).1
    have hle := hlater t List.mem_cons_self
    omega

/-- While it is there, it is polled often after a move as well. -/
theorem move (h : w.PolledOften id f (m :: moves)) (hw : w.Managed)
    (hlast : f'.lastPoll = (pollTime id w m).getD f.lastPoll) :
    (w.move m).PolledOften id f' moves := by
  rw [PolledOften, filterTimeout_move hw, hlast, ← through_cons]
  rw [PolledOften, during] at h
  cases hp : pollTime id w m with
  | none => simpa [hp] using h
  | some t =>
    rw [hp] at h
    exact (List.isChain_cons_cons.mp h).2

end PolledOften

/-- A sweep leaves a filter that has not expired. -/
theorem contains_move (hw : w.Managed) (hm : m = .sweep ∨ m = .tick)
    (hf : w.polling.filters.get? id = some f) (hfresh : w.now - f.lastPoll < w.filterTimeout) :
    (w.move m).polling.filters.contains id = true := by
  have hfate := move_fate hw m id
  rw [Table.contains]
  generalize (w.move m).polling.filters.get? id = after at hfate
  rw [hf] at hfate
  cases hfate with
  | left hx _ _ =>
    obtain ⟨f', hf', ht⟩ := (mem_expired hw.tidy.filed).mp (hx hm)
    rw [hf, Option.some.injEq] at hf'
    subst hf'
    rw [timedOut, decide_eq_true_eq] at ht
    omega
  | _ => rfl

/-- A filter that is always polled within the timeout is never swept away. -/
theorem through_polledOften (hw : w.Managed) (ht : w.Tended id) {earlier : List Move}
    {rest : List Move} (hf : w.polling.filters.get? id = some f)
    (h : w.PolledOften id f (earlier ++ m :: rest)) (hm : m = .sweep ∨ m = .tick)
    (hthere : (w.through earlier).polling.filters.contains id = true) :
    (w.through (earlier ++ [m])).polling.filters.contains id = true := by
  induction earlier generalizing w f with
  | nil => exact contains_move hw hm hf h.fresh
  | cons m' earlier ih =>
    have hkey : id ∈ w.polling.filters.keys :=
      Table.mem_keys_of_get? hf
    cases hafter : (w.move m').polling.filters.get? id with
    | none =>
      -- it is gone, and does not come back
      have hcreation : id ∉ (w.move m').polling.creations.map Creation.id := fun hc =>
        hw.tidy.not_filed ((through_left hw ht [m']).1 hc) hkey
      have hback := (through_left (hw.move m') (move_tended hw ht m') earlier).2
        ((Table.contains_iff_mem_keys _ _).mp hthere)
      exact absurd (hback.resolve_right hcreation) ((Table.get?_eq_none_iff _ _).mp hafter)
    | some f' =>
      refine ih (hw.move m') (move_tended hw ht m') hafter (h.move hw ?_) hthere
      rcases lastPoll_move hw hafter with ⟨f₀, hf₀, hlast⟩ | ⟨-, hnone, -⟩
      · rw [hf, Option.some.injEq] at hf₀
        rw [hlast, hf₀]
      · rw [hf] at hnone
        cases hnone

/-! ## The sweeper -/

def dueAt (w : World) (due : Nat) : World := { w with polling.sweepDue := due }

theorem runSweeper_config (w : World) : w.runSweeper.hub.config = w.hub.config := by
  unfold runSweeper
  split
  · rw [sweep, foldl_removeFilter_eq]
    rfl
  · rfl

/-- A sweep may come early for want of a clock that counts so far, but never late. -/
theorem intervalAfter_le (w : World) (moment : Nat) :
    w.intervalAfter moment ≤ moment + w.sweepInterval := by
  simp only [intervalAfter]
  split
  · exact Nat.le_refl _
  · exact Nat.min_le_left _ _

theorem lt_intervalAfter {moment : Nat} (h : w.now < moment + w.sweepInterval) :
    w.now < w.intervalAfter moment := by
  simp only [intervalAfter]
  split
  · exact h
  · exact Nat.lt_min.mpr ⟨h, Nat.lt_add_of_pos_right (by decide)⟩

/-- When the next sweep is due is in the future, and one interval away at most. -/
theorem nextSweep_bounds (hdue : w.polling.sweepDue ≤ w.now) (hlong : 5 < w.sweepInterval) :
    w.now < w.nextSweep ∧ w.nextSweep ≤ w.now + w.sweepInterval := by
  unfold nextSweep
  split
  · exact ⟨by omega, Nat.le_refl _⟩
  · have hle := intervalAfter_le w w.polling.sweepDue
    exact ⟨lt_intervalAfter (by omega), by omega⟩

/-- A sweeper that has run while the registry is held waits for its next time. -/
theorem runSweeper_waits (hlong : 5 < w.runSweeper.sweepInterval)
    (hlive : w.runSweeper.polling.live = true) :
    w.runSweeper.now < w.runSweeper.polling.sweepDue := by
  have hnow : w.runSweeper.now = w.now := move_now w .tick
  have hnext : w.runSweeper.polling.sweepDue = w.dueAfter .tick := move_sweepDue w .tick
  rw [sweepInterval, runSweeper_config] at hlong
  rw [hnow, hnext, dueAfter]
  split
  · rename_i hdue
    rw [Bool.and_eq_true, decide_eq_true_eq] at hdue
    exact (nextSweep_bounds hdue.2 hlong).1
  · rename_i hdue
    rw [runSweeper, if_neg hdue] at hlive
    rw [hlive, Bool.true_and, decide_eq_true_eq] at hdue
    exact Nat.lt_of_not_le hdue

/-- The last that a system does before it rests is to look whether a sweep is due. -/
theorem settle_eq_runSweeper (w : World) : ∃ w' : World, w.settle = w'.runSweeper := by
  have hrounds : ∀ (n : Nat) (w : World), ∃ w' : World, settleRounds (n + 1) w = w'.runSweeper := by
    intro n
    induction n with
    | zero =>
      intro w
      refine ⟨w.runHub.runDrains, ?_⟩
      simp only [settleRounds, ite_self]
    | succ n ih =>
      intro w
      rw [settleRounds]
      split
      · exact ih _
      · exact ⟨_, rfl⟩
  exact hrounds _ w

/-- The sweep interval of a configuration that is valid is no shorter than a second. -/
theorem sweepInterval_of_valid (h : w.hub.config.validate = .ok ()) : 5 < w.sweepInterval := by
  have hsecs : w.hub.config.sweepIntervalSecs ≠ 0 := by
    intro hzero
    have hnone : w.hub.config.fault? = none := by
      cases hfault : w.hub.config.fault? with
      | none => rfl
      | some fault => simp [Config.validate, hfault] at h
    simp only [Config.fault?, hzero, if_true] at hnone
    repeat' split at hnone
    all_goals cases hnone
  have hpos : 0 < w.hub.config.sweepIntervalSecs.toNat := by
    rw [Nat.pos_iff_ne_zero]
    exact fun hzero => hsecs (UInt64.toNat_inj.mp hzero)
  rw [sweepInterval]
  omega

/-! ## The age of filters -/

/-- The last sweep that was due took place at that time, or the registry was opened then. -/
structure SweptAt (w : World) (time : Nat) : Prop where
  past : time ≤ w.now
  due : w.polling.sweepDue ≤ time + w.sweepInterval
  /-- A filter that had not been polled for the timeout then has been polled since. -/
  polled : ∀ id f, w.polling.filters.get? id = some f →
    time ≤ f.lastPoll ∨ time - f.lastPoll < w.filterTimeout

theorem openPolling_sweptAt (w : World) : w.openPolling.SweptAt w.now where
  past := Nat.le_refl _
  due := intervalAfter_le w w.now
  polled := by
    intro id f hf
    cases hf

/-- No filter has gone without a poll for the timeout and the time between two sweeps together. -/
def AgesBounded (w : World) : Prop :=
  ∀ id f, w.polling.filters.get? id = some f →
    w.now - f.lastPoll < w.filterTimeout + w.sweepInterval

/-- While the sweeper waits for its next time, no filter gets too old. -/
theorem SweptAt.agesBounded (h : w.SweptAt time) (hwait : w.now < w.polling.sweepDue) :
    w.AgesBounded := by
  intro id f hf
  have hpast := h.past
  have hdue := h.due
  rcases h.polled id f hf with hsince | hyoung <;> omega

/-- A tick that sweeps makes its own time that of the last sweep. -/
theorem tick_sweptAt (hw : w.Managed) (hlong : 5 < w.sweepInterval)
    (hdue : w.polling.live = true ∧ w.polling.sweepDue ≤ w.now) :
    (w.move .tick).SweptAt w.now := by
  have hnow := move_now w .tick
  have hinterval := sweepInterval_move hw .tick
  have htimeout := filterTimeout_move hw .tick
  refine ⟨hnow.ge, ?_, fun id f hf => .inr ?_⟩
  · have hnext : (w.move .tick).polling.sweepDue = w.nextSweep := by
      rw [move_sweepDue, dueAfter, if_pos (by simpa using hdue)]
    rw [hnext, hinterval]
    exact (nextSweep_bounds hdue.2 hlong).2
  · rw [htimeout]
    rw [World.move, get?_runSweeper hw.tidy.filed] at hf
    split at hf
    · cases hf
    · rename_i hx
      simp only [hdue.1, hdue.2, decide_true, Bool.and_self, Bool.true_and, decide_eq_true_eq,
        mem_expired hw.tidy.filed] at hx
      by_contra hold
      exact hx ⟨f, hf, decide_eq_true (Nat.le_of_not_lt hold)⟩

theorem move_sweptAt (hw : w.Managed) (hlong : 5 < w.sweepInterval) (h : w.SweptAt time)
    (m : Move) : ∃ time', (w.move m).SweptAt time' := by
  by_cases htick : m = .tick ∧ w.polling.live = true ∧ w.polling.sweepDue ≤ w.now
  · obtain ⟨rfl, hdue⟩ := htick
    exact ⟨w.now, tick_sweptAt hw hlong hdue⟩
  · have hkept : (w.move m).polling.sweepDue = w.polling.sweepDue := by
      rw [move_sweepDue]
      unfold dueAfter
      split
      · exact if_neg (by simpa using htick)
      · rfl
    have hpast := h.past
    refine ⟨time, hpast.trans (le_move_now w m), ?_, fun id f' hf' => ?_⟩
    · rw [hkept, sweepInterval_move hw]
      exact h.due
    · rw [filterTimeout_move hw]
      rcases lastPoll_move hw hf' with ⟨f, hf, hlast⟩ | ⟨-, -, hlast⟩
      · rw [hlast, pollTime]
        cases polled id w m with
        | none => exact h.polled id f hf
        | some changes => exact .inl hpast
      · exact .inl (hlast ▸ hpast)

theorem through_sweptAt (hw : w.Managed) (hlong : 5 < w.sweepInterval) (h : w.SweptAt time)
    (moves : List Move) : ∃ time', (w.through moves).SweptAt time' := by
  induction moves generalizing w time with
  | nil => exact ⟨time, h⟩
  | cons m rest ih =>
    obtain ⟨time', h'⟩ := move_sweptAt hw hlong h m
    exact ih (hw.move m) (by rwa [sweepInterval_move hw]) h'

/--
**The expiry of polling filters is exact and bounded.** Let a registry be opened in any state of any
run of a new hub whose configuration is valid, and let anything happen then, with time passing in
between as it may. A sweep, called for or due, removes exactly the filters that nobody has polled for
the timeout and does what goes with it (`Sweeps`). From when this counts is set where a filter is
entered and by polls that find it, and by nothing else, so one that is polled again and again within
the timeout is never swept away. While the sweeper waits for its next time, and so whenever a system
whose registry is held has come to rest, no filter has gone without a poll for the timeout and the
time between two sweeps together.
-/
theorem expiry_exact {bus : Bus} {config : Config} {governor : Governor} (before : List Action)
    (moves : List Move) (hvalid : config.validate = .ok ()) :
    let w := (((start bus config governor).after before).openPolling).through moves
    w.hub.config = config ∧
    (∀ due, (w.dueAt due).Sweeps) ∧
    (∀ m id f', (w.move m).polling.filters.get? id = some f' →
      (∃ f, w.polling.filters.get? id = some f ∧
        f'.lastPoll = (pollTime id w m).getD f.lastPoll) ∨
      (m = .finish id ∧ w.polling.filters.get? id = none ∧ f'.lastPoll = w.now)) ∧
    (∀ id f earlier m rest, w.polling.filters.get? id = some f →
      w.PolledOften id f (earlier ++ m :: rest) → m = .sweep ∨ m = .tick →
      (w.through earlier).polling.filters.contains id = true →
      (w.through (earlier ++ [m])).polling.filters.contains id = true) ∧
    (w.now < w.polling.sweepDue → w.AgesBounded) ∧
    (w.settle.polling.live = true →
      w.settle.now < w.settle.polling.sweepDue ∧ w.settle.AgesBounded) := by
  intro w
  have hopen := openPolling_managed bus config governor before
  have hw : w.Managed := hopen.through moves
  have hconfig₀ : (((start bus config governor).after before).openPolling).hub.config = config :=
    after_config _ before
  have hconfig : w.hub.config = config := (hopen.through_config moves).trans hconfig₀
  have hlong := sweepInterval_of_valid (hconfig₀ ▸ hvalid)
  have hswept : ∀ moves, ∃ time,
      ((((start bus config governor).after before).openPolling).through moves).SweptAt time :=
    through_sweptAt hopen hlong (openPolling_sweptAt _)
  refine ⟨hconfig, fun due => sweeps (Polling.Changes.due due |>.tidy hw.tidy),
    fun m id f' => lastPoll_move hw, ?_, fun hwait => ?_, fun hlive => ?_⟩
  · intro id f earlier m rest hf hoften hm hthere
    have hnow : w.polling.filters.contains id = true := by simp [Table.contains, hf]
    have htended : w.Tended id := tended_of_created hopen (mem_created_of_filter hopen rfl hnow)
    exact through_polledOften hw htended hf hoften hm hthere
  · obtain ⟨time, h⟩ := hswept moves
    exact h.agesBounded hwait
  · obtain ⟨more, hmore⟩ := settle_through w
    obtain ⟨w', hlast⟩ := settle_eq_runSweeper w
    have hlong' : 5 < w.settle.sweepInterval := by
      refine sweepInterval_of_valid ?_
      rw [hmore, hw.through_config more, hconfig]
      exact hvalid
    have hwait : w.settle.now < w.settle.polling.sweepDue := by
      rw [hlast] at hlive hlong' ⊢
      exact runSweeper_waits hlong' hlive
    obtain ⟨time, h⟩ := hswept (moves ++ more)
    rw [through_append, ← hmore] at h
    exact ⟨hwait, h.agesBounded hwait⟩

/-- Of two filters one is polled after three seconds, with a timeout of five. After six seconds it is
the other one that a sweep takes out; the first stays until nobody has polled it for so long. -/
theorem expiry_exact_two :
    let config : Config := { timeoutSecs := 5, sweepIntervalSecs := 5 }
    let w₀ := ((start (Bus.sized 4) config .absent).after []).openPolling
    let entering : List Move := [.create .blocks, .create .pendingTransactions,
      .act (.turn .install), .act (.turn .install), .finish (.issued 0), .finish (.issued 1)]
    let polling : List Move := [.advance 3000, .poll (.issued 0), .advance 3000]
    let entered := w₀.through entering
    let polled := w₀.through (entering ++ polling)
    config.validate = .ok () ∧ polled.expired = [.issued 1] ∧
      polled.nextSweep = 11000 ∧ (polled.dueAt 11000).Sweeps ∧
      (polled.move .tick).polling.filters.keys = [.issued 0] ∧
      entered.PolledOften (.issued 0) ⟨.blocks, 0, 0, .hashes []⟩ (polling ++ [.tick]) ∧
      polled.settle.polling.live = true ∧ polled.settle.AgesBounded ∧
      (polled.settle.through [.advance 2000, .sweep]).polling.filters.keys = [] := by
  intro config w₀ entering polling entered polled
  have hvalid : config.validate = .ok () := by decide
  obtain ⟨-, hsweeps, -, -, -, hsettled⟩ :=
    @expiry_exact (Bus.sized 4) config .absent [] (entering ++ polling) hvalid
  exact ⟨hvalid, by decide +kernel, by decide +kernel, hsweeps 11000, by decide +kernel,
    by decide +kernel, by decide +kernel, (hsettled (by decide +kernel)).2, by decide +kernel⟩

end EventFanout.World
