/-
EventFanout.Proofs.Counting.Truth — the counters tell the truth.

As long as no counter has reached 2^64 (`World.Unwrapped`), the counters of a hub say, after every
run, how many subscriptions are installed and how many topics are registered, and clients who ask
for either number are told the same; whoever was taken in has been installed, has been turned away
or waits; and what was delivered is what was put on lines with a client.

Main statement: `counters_true`. Everything in it but the bound is known modulo 2^64 already
(`after_recount`, `after_put`).
-/
import EventFanout.Proofs.Counting.Deliveries
import EventFanout.Proofs.Counting.Intake

namespace EventFanout

/-! ## What clients are told -/

/-- A list falls apart into those that belong to each of some keys. -/
theorem sum_length_filter {α κ : Type} [DecidableEq κ] {f : α → κ} {ks : List κ} (hn : ks.Nodup)
    {l : List α} (hl : ∀ a ∈ l, f a ∈ ks) :
    (ks.map fun k => (l.filter fun a => f a = k).length).sum = l.length := by
  induction ks generalizing l with
  | nil =>
    cases l with
    | nil => rfl
    | cons a rest => exact absurd (hl a List.mem_cons_self) (List.not_mem_nil)
  | cons k rest ih =>
    obtain ⟨hk, hrest⟩ := List.nodup_cons.mp hn
    have hothers : ∀ a ∈ l.filter fun a => ¬ f a = k, f a ∈ rest := by
      intro a ha
      simp only [List.mem_filter, decide_eq_true_eq] at ha
      exact (List.mem_cons.mp (hl a ha.1)).resolve_left ha.2
    have hsame : (rest.map fun k' => ((l.filter fun a => ¬ f a = k).filter fun a => f a = k').length) =
        rest.map fun k' => (l.filter fun a => f a = k').length := by
      refine List.map_congr_left fun k' hk' => ?_
      rw [List.filter_filter]
      congr 1
      refine List.filter_congr fun a _ => ?_
      by_cases ha : f a = k'
      · have hne : ¬ k' = k := by
          rintro rfl
          exact hk hk'
        simp [ha, hne]
      · simp [ha]
    have hsplit := List.length_eq_length_filter_add (l := l) fun a => decide (f a = k)
    have hsum := ih hrest hothers
    rw [hsame] at hsum
    simp only [← decide_not] at hsplit
    rw [List.map_cons, List.sum_cons, hsum]
    exact hsplit.symm

/-- The number of subscriptions that clients are told is that of the index. -/
theorem Hub.Consistent.subscriptionCount_eq {h : Hub} (hc : h.Consistent) :
    h.subscriptionCount = h.index.size := by
  have hcounts : h.topics.values.map Registration.subscribers =
      h.topics.keys.map fun t => (h.index.values.filter fun s => s.topic = t).length := by
    rw [Table.values, Table.keys, List.map_map, List.map_map]
    refine List.map_congr_left fun e he => ?_
    exact hc.subscribers_eq e.1 e.2 (Table.get?_of_mem hc.topics_once he)
  have htopics : ∀ s ∈ h.index.values, s.topic ∈ h.topics.keys := by
    intro s hs
    exact (Table.contains_iff_mem_keys _ _).mp ((hc.registered_iff s.topic).mpr ⟨s, hs, rfl⟩)
  show (h.view.values.map Registration.subscribers).sum = _
  rw [hc.view_eq, hcounts, sum_length_filter hc.topics_once htopics, Table.length_values]

namespace World

/-- No counter has reached 2^64: less than that was there to count in the run. -/
structure Unwrapped (w₀ : World) (run : List Action) : Prop where
  installs : tally came w₀ run < UInt64.size
  rejected : tally rejections w₀ run < UInt64.size
  registered : tally registrations w₀ run < UInt64.size
  delivered : (w₀.after run).put < UInt64.size

/--
**The counters tell the truth.** After every run of a new hub in which no counter has reached 2^64,
each of them says how much there was to count. So the installations less the removals are the
subscriptions in the index, which is the number that clients are told, and the registrations less
the releases are the registered topics, as clients are shown them; whoever handed a subscription in
and was not refused, or was refused for light mode, has one that was installed, one that was turned
away or one that still waits; and the deliveries are what was ever put on lines, each of which had
a client who listened then.
-/
theorem counters_true {bus : Bus} {config : Config} {governor : Governor} {run : List Action}
    (hfit : Unwrapped (start bus config governor) run) :
    let w₀ := start bus config governor
    let w := w₀.after run
    let m := w.hub.metrics
    (m.installs.toNat = tally came w₀ run ∧ m.uninstalls.toNat = tally went w₀ run ∧
      m.installs.toNat = m.uninstalls.toNat + w.hub.index.size ∧
      w.hub.subscriptionCount = w.hub.index.size ∧
      m.activeSubscriptions = w.hub.subscriptionCount) ∧
    (m.topicsRegistered.toNat = tally registrations w₀ run ∧
      m.topicsReleased.toNat = tally releases w₀ run ∧
      m.topicsRegistered.toNat = m.topicsReleased.toNat + w.hub.topics.size ∧
      w.hub.view = w.hub.topics ∧ m.activeTopics = w.hub.view.size) ∧
    (m.rejected.toNat = tally rejections w₀ run ∧
      m.installs.toNat + m.rejected.toNat + w.hub.installs.length =
        (along answer w₀ run).countP decided) ∧
    (m.notificationsDelivered.toNat = w.put ∧
      ∀ earlier a, earlier ++ [a] <+: run →
        (w₀.after earlier).Grows (w₀.after (earlier ++ [a]))) := by
  intro w₀ w m
  have hc : w.hub.Consistent := (after_roster (start_roster bus config governor) run).sound.consistent
  have hn : Recount w₀ run := after_recount bus config governor run
  have hcount := hc.subscriptionCount_eq
  have hexact : ∀ {c : UInt64} {n : Nat}, c = .ofNat n → n < UInt64.size → c.toNat = n := by
    intro c n hc hlt
    rw [hc, UInt64.toNat_ofNat_of_lt' hlt]
  have hindexed : tally came w₀ run = tally went w₀ run + w.hub.index.size := hn.indexed
  have htopics : tally registrations w₀ run = tally releases w₀ run + w.hub.topics.size := hn.topics
  have hcame : tally came w₀ run < UInt64.size := hfit.installs
  have hopened : tally registrations w₀ run < UInt64.size := hfit.registered
  have hinstalls : m.installs.toNat = tally came w₀ run := hexact hn.installs hcame
  have huninstalls : m.uninstalls.toNat = tally went w₀ run := hexact hn.uninstalls (by omega)
  have hregistered : m.topicsRegistered.toNat = tally registrations w₀ run :=
    hexact hn.registered hopened
  have hreleased : m.topicsReleased.toNat = tally releases w₀ run := hexact hn.released (by omega)
  have hrejected : m.rejected.toNat = tally rejections w₀ run := hexact hn.rejected hfit.rejected
  have hintake : tally came w₀ run + tally rejections w₀ run + w.hub.installs.length =
      (along answer w₀ run).countP decided := hn.intake
  refine ⟨⟨hinstalls, huninstalls, by omega, hcount, ?_⟩,
    ⟨hregistered, hreleased, by omega, hc.view_eq, ?_⟩, ⟨hrejected, by omega⟩, ?_, ?_⟩
  · rw [Metrics.activeSubscriptions, hcount]
    omega
  · rw [Metrics.activeTopics, hc.view_eq]
    omega
  · exact hexact (after_put bus config governor run).counted hfit.delivered
  · intro earlier a _
    rw [after_concat]
    exact (act_grows (after_roster (start_roster bus config governor) earlier)
      (after_put bus config governor earlier) a).2

/-- In light mode one of three subscriptions is installed and given a header, one is turned away when
it is handed in, and one still waits. -/
theorem counters_true_light :
    let run : List Action := [.makeWithin .newHeads none, .submit (.issued 0), .turn .install,
      .makeWithin .logs none, .submit (.issued 1), .makeWithin .newHeads none,
      .submit (.issued 2), .publish ⟨headerTopic, .header {}⟩, .turn (.read headerTopic)]
    let w₀ := start (Bus.sized 4) .light .absent
    let w := w₀.after run
    let m := w.hub.metrics
    Unwrapped w₀ run ∧ m.activeSubscriptions = 1 ∧ m.activeTopics = 1 ∧
      m.installs.toNat + m.rejected.toNat + w.hub.installs.length = 3 ∧
      m.notificationsDelivered.toNat = 1 := by
  intro run w₀ w m
  have hfit : Unwrapped w₀ run := ⟨by decide +kernel, by decide +kernel, by decide +kernel, by decide +kernel⟩
  obtain ⟨⟨-, -, -, -, hactive⟩, ⟨-, -, -, -, htopics⟩, ⟨-, hintake⟩, hdelivered, -⟩ :=
    counters_true hfit
  refine ⟨hfit, ?_, ?_, ?_, ?_⟩
  · rw [hactive]
    decide +kernel
  · rw [htopics]
    decide +kernel
  · rw [hintake]
    decide +kernel
  · rw [hdelivered]
    decide +kernel

end World

end EventFanout
