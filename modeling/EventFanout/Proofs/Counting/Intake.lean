/-
EventFanout.Proofs.Counting.Intake — what a run adds to the counters of a hub.

What there is to count is read off the tables and queues before and after each action, and not off
the counters: the subscriptions that have come into the index (`came`) and gone out of it (`went`),
the topics that have been registered and released, and the subscriptions that were turned away
(`rejections`). Main statements: every action adds to each counter as much as there was to count
(`act_counted`), and whoever was taken in or turned away for light mode has by now been installed,
or been rejected, or waits (`after_recount`).

Of the steps of the hub, all but installing and shutting down only take away (`Hub.Thins`).
-/
import EventFanout.Proofs.Hub.Counters
import EventFanout.Proofs.Lifecycle.Roster
import Mathlib.Data.List.Induction

namespace EventFanout

/-! ## Comparing lists -/

/-- How many members of the second list are not in the first. -/
def gained {α : Type} [DecidableEq α] (l l' : List α) : Nat := l'.countP (· ∉ l)

section Lists

variable {α : Type} [DecidableEq α] {l l' : List α}

theorem gained_eq_zero (h : l' ⊆ l) : gained l l' = 0 := by
  rw [gained, List.countP_eq_zero]
  intro a ha
  simpa using h ha

theorem gained_concat {a : α} (ha : a ∉ l) : gained l (l ++ [a]) = 1 := by
  have hold : l.countP (· ∉ l) = 0 := gained_eq_zero (List.Subset.refl l)
  rw [gained, List.countP_append, hold]
  simp [ha]

/-- What lists without repetition have and have not in common makes up both. -/
theorem length_add_gained (hl : l.Nodup) (hl' : l'.Nodup) :
    l.length + gained l l' = l'.length + gained l' l := by
  have hcommon : (l.filter (· ∈ l')).Perm (l'.filter (· ∈ l)) := by
    rw [List.perm_ext_iff_of_nodup (hl.filter _) (hl'.filter _)]
    intro a
    simp only [List.mem_filter, decide_eq_true_eq]
    exact and_comm
  have hsplit := l.length_eq_countP_add_countP (· ∈ l')
  have hsplit' := l'.length_eq_countP_add_countP (· ∈ l)
  have hlength := hcommon.length_eq
  rw [← List.countP_eq_length_filter, ← List.countP_eq_length_filter] at hlength
  simp only [decide_eq_true_eq] at hsplit hsplit'
  simp only [gained]
  omega

end Lists

namespace World

/-! ## What there is to count -/

def came (w : World) (a : Action) : Nat := gained w.hub.index.values (w.act a).hub.index.values

def went (w : World) (a : Action) : Nat := gained (w.act a).hub.index.values w.hub.index.values

def registrations (w : World) (a : Action) : Nat :=
  gained w.hub.topics.keys (w.act a).hub.topics.keys

def releases (w : World) (a : Action) : Nat :=
  gained (w.act a).hub.topics.keys w.hub.topics.keys

def answer (w : World) : Action → Option (Except FilterError Unit)
  | .submit id => (w.held.get? id).map fun s => (w.submit s).1
  | _ => none

def refusedForLight : Except FilterError Unit → Bool
  | .error (.lightModeUnsupported _) => true
  | _ => false

/-- Whether an answer is that the subscription was taken in, or turned away for light mode. -/
def decided (answer : Except FilterError Unit) : Bool :=
  match answer with
  | .ok _ => true
  | .error _ => refusedForLight answer

/-- The subscriptions that are turned away with an action: those that waited, and neither wait any
more nor are installed, and one that was handed in and refused for light mode. -/
def rejections (w : World) (a : Action) : Nat :=
  w.hub.installs.countP (fun s => s ∉ (w.act a).hub.installs ∧ s ∉ (w.act a).hub.index.values) +
    (w.answer a).toList.countP refusedForLight

/-- What there is to count in each action of a run, added up. -/
def tally (count : World → Action → Nat) (w : World) : List Action → Nat
  | [] => 0
  | a :: run => count w a + tally count (w.act a) run

theorem tally_concat (count : World → Action → Nat) (w : World) (run : List Action) (a : Action) :
    tally count w (run ++ [a]) = tally count w run + count (w.after run) a := by
  induction run generalizing w with
  | nil => simp [tally]
  | cons b rest ih => rw [List.cons_append, tally, tally, ih, after_cons, Nat.add_assoc]

end World

/-! ## Taking away -/

/-- The counters of what is taken in. -/
def Metrics.intake (m : Metrics) : UInt64 × UInt64 × UInt64 :=
  (m.installs, m.rejected, m.topicsRegistered)

/-- Nothing comes into the tables of a hub, nor is anything of that sort counted. -/
structure Hub.Thins (h h' : Hub) : Prop where
  index : h'.index.values ⊆ h.index.values
  topics : h'.topics.keys ⊆ h.topics.keys
  installs : h'.installs = h.installs
  metrics : h'.metrics.intake = h.metrics.intake

theorem Hub.Thins.refl (h : Hub) : h.Thins h :=
  ⟨List.Subset.refl _, List.Subset.refl _, rfl, rfl⟩

theorem Hub.Thins.trans {h₀ h₁ h₂ : Hub} (h₀₁ : h₀.Thins h₁) (h₁₂ : h₁.Thins h₂) :
    h₀.Thins h₂ where
  index := List.Subset.trans h₁₂.index h₀₁.index
  topics := List.Subset.trans h₁₂.topics h₀₁.topics
  installs := h₁₂.installs.trans h₀₁.installs
  metrics := h₁₂.metrics.trans h₀₁.metrics

namespace World

variable {w : World}

theorem releaseTopic_thins (w : World) (t : Topic) : w.hub.Thins (w.releaseTopic t).hub := by
  rcases releaseTopic_cases w t with ⟨_, h⟩ | ⟨r, hr, _, h⟩ | ⟨r, _, _, h⟩ <;> rw [h]
  · exact .refl _
  · have hkeys := Table.keys_set_of_mem { r with subscribers := r.subscribers - 1 }
      (Table.mem_keys_of_get? hr)
    exact ⟨List.Subset.refl _, hkeys ▸ List.Subset.refl _, rfl, rfl⟩
  · rw [releaseOnBus_hub]
    exact ⟨List.Subset.refl _, Table.keys_erase_subset _ t, rfl, rfl⟩

theorem uninstall_thins (w : World) (id : SubscriptionId) (r : SubscriptionError) :
    w.hub.Thins (w.uninstall id r).hub := by
  rcases uninstall_cases w id r with ⟨_, h⟩ | ⟨k, s, _, h⟩ <;> rw [h]
  · exact .refl _
  · have hrelease := releaseTopic_thins { w with hub.index := w.hub.index.erase (k, id) } s.topic
    rw [removed, closeLine_hub, publishView_hub, record_hub]
    exact ⟨List.Subset.trans hrelease.index (Table.values_erase_subset _ (k, id)),
      hrelease.topics, hrelease.installs, hrelease.metrics⟩

/-- Work that thins the hub for each of a list thins it. -/
theorem foldl_thins {α : Type} {f : World → α → World}
    (hf : ∀ (w : World) x, w.hub.Thins (f w x).hub) (l : List α) (w : World) :
    w.hub.Thins (l.foldl f w).hub := by
  induction l generalizing w with
  | nil => exact .refl _
  | cons x rest ih => exact (hf w x).trans (ih (f w x))

theorem delivered_thins (w : World) (t : Topic) (p : Payload) :
    w.hub.Thins (w.delivered t p).hub := by
  have hsame := delivered_sameLoop w t p
  refine ⟨?_, ?_, ?_, ?_⟩
  · rw [hsame.index]
    exact List.Subset.refl _
  · rw [hsame.topics]
    exact List.Subset.refl _
  · simp only [delivered, record_hub]
  · simp only [delivered, record_hub, Metrics.record, Metrics.intake]

theorem endWithTopic_thins (w : World) (t : Topic) (s : Subscription) :
    w.hub.Thins (endWithTopic t w s).hub := by
  unfold endWithTopic
  split
  · exact .refl _
  · rename_i key _ _
    exact ⟨Table.values_erase_subset _ key, List.Subset.refl _, rfl, rfl⟩

theorem closeTopic_thins (w : World) (t : Topic) : w.hub.Thins (w.closeTopic t).hub := by
  unfold closeTopic
  split
  · have herase : w.hub.Thins ({ w with hub.topics := w.hub.topics.erase t }.dropFeed t).hub := by
      rw [dropFeed_hub]
      exact ⟨List.Subset.refl _, Table.keys_erase_subset _ t, rfl, rfl⟩
    have hend := foldl_thins (f := endWithTopic t) (fun w s => endWithTopic_thins w t s)
      (w.hub.listeners t) ({ w with hub.topics := w.hub.topics.erase t }.dropFeed t)
    have hall := herase.trans hend
    simp only [publishView_hub, record_hub, note_hub]
    exact ⟨hall.index, hall.topics, hall.installs, hall.metrics⟩
  · exact .refl _

theorem dispatch_thins (w : World) (t : Topic) (item : Item Event) :
    w.hub.Thins (w.dispatch t item).hub := by
  cases item with
  | entry e =>
    show w.hub.Thins (w.fanOut t e.payload).hub
    rw [fanOut_eq]
    exact (delivered_thins w t e.payload).trans
      (foldl_thins (f := fun w id => w.uninstall id .closed)
        (fun w id => uninstall_thins w id .closed) _ _)
  | lagged n => exact .refl _
  | ended => exact closeTopic_thins w t

/-! ## One action -/

/-- An action adds to the counters as much as there was to count, and who waited or was taken in or
was turned away is accounted for. -/
structure Counted (w : World) (a : Action) : Prop where
  installs : (w.act a).hub.metrics.installs = w.hub.metrics.installs + .ofNat (w.came a)
  rejected : (w.act a).hub.metrics.rejected = w.hub.metrics.rejected + .ofNat (w.rejections a)
  registered : (w.act a).hub.metrics.topicsRegistered =
    w.hub.metrics.topicsRegistered + .ofNat (w.registrations a)
  intake : w.came a + w.rejections a + (w.act a).hub.installs.length =
    w.hub.installs.length + (w.answer a).toList.countP decided

/-- Who still waits has not been turned away. -/
theorem rejections_of_subset {a : Action} (h : w.hub.installs ⊆ (w.act a).hub.installs) :
    w.rejections a = (w.answer a).toList.countP refusedForLight := by
  have hnone : w.hub.installs.countP (fun s =>
      s ∉ (w.act a).hub.installs ∧ s ∉ (w.act a).hub.index.values) = 0 := by
    rw [List.countP_eq_zero]
    intro s hs
    simp [h hs]
  rw [rejections, hnone, Nat.zero_add]

theorem ofNat_zero_add (n : UInt64) : n + .ofNat 0 = n := UInt64.add_zero n

/-- What only takes away has nothing to count here. -/
theorem Counted.of_thins {a : Action} (h : w.hub.Thins (w.act a).hub) (ha : w.answer a = none) :
    w.Counted a := by
  obtain ⟨hinstalls, hrejected, hregistered⟩ : (w.act a).hub.metrics.installs = _ ∧
      (w.act a).hub.metrics.rejected = _ ∧ (w.act a).hub.metrics.topicsRegistered = _ := by
    simpa only [Metrics.intake, Prod.mk.injEq] using h.metrics
  have hcame : w.came a = 0 := gained_eq_zero h.index
  have hreg : w.registrations a = 0 := gained_eq_zero h.topics
  have hrej : w.rejections a = 0 := by
    rw [rejections_of_subset (h.installs ▸ List.Subset.refl _), ha]
    rfl
  constructor
  · rw [hcame, hinstalls, ofNat_zero_add]
  · rw [hrej, hrejected, ofNat_zero_add]
  · rw [hreg, hregistered, ofNat_zero_add]
  · simp [hcame, hrej, h.installs, ha]

theorem counted_stop (hr : w.hub.running = true) : w.Counted (.turn .stop) := by
  have hact : w.act (.turn .stop) = w.shutdown := if_pos hr
  obtain ⟨m, hhub⟩ := shutdown_hub w
  have hmetrics := shutdown_metrics w
  have hcame : w.came (.turn .stop) = 0 := by
    rw [came, hact, hhub]
    exact gained_eq_zero (List.nil_subset _)
  have hreg : w.registrations (.turn .stop) = 0 := by
    rw [registrations, hact, hhub]
    exact gained_eq_zero (List.nil_subset _)
  have hrej : w.rejections (.turn .stop) = w.hub.installs.length := by
    rw [rejections, hact, hhub]
    simp [Table.values, answer]
  constructor
  · rw [hcame, hact, hmetrics, ofNat_zero_add]
  · rw [hrej, hact, hmetrics]
  · rw [hreg, hact, hmetrics, ofNat_zero_add]
  · rw [hcame, hrej, hact, hhub]
    simp [answer]

/-- The first that waits is turned away. -/
theorem counted_refused (hw : w.Roster) {s : Subscription} {rest : List Subscription}
    (hq : w.hub.installs = s :: rest) (hi : (w.act (.turn .install)).hub.installs = rest)
    (hx : (w.act (.turn .install)).hub.index = w.hub.index)
    (ht : (w.act (.turn .install)).hub.topics = w.hub.topics)
    (hm : (w.act (.turn .install)).hub.metrics = w.hub.metrics.record .rejected) :
    w.Counted (.turn .install) := by
  obtain ⟨-, honce, -, -, hqx⟩ := hw.parts
  rw [hq, List.nodup_cons] at honce
  have hindex : s ∉ w.hub.index.values := hqx s (hq ▸ List.mem_cons_self)
  have hrest : rest.countP (fun s => s ∉ rest ∧ s ∉ w.hub.index.values) = 0 := by
    rw [List.countP_eq_zero]
    intro s' hs'
    simp [hs']
  have hcame : w.came (.turn .install) = 0 := gained_eq_zero (hx ▸ List.Subset.refl _)
  have hreg : w.registrations (.turn .install) = 0 := gained_eq_zero (ht ▸ List.Subset.refl _)
  have hrej : w.rejections (.turn .install) = 1 := by
    rw [rejections, hi, hx, hq, List.countP_cons, hrest]
    simp [honce.1, hindex, answer]
  constructor
  · rw [hcame, hm, ofNat_zero_add]
    rfl
  · rw [hrej, hm]
    rfl
  · rw [hreg, hm, ofNat_zero_add]
    rfl
  · rw [hcame, hrej, hi, hq, List.length_cons]
    simp [answer, Nat.add_comm]

/-- The first that waits is installed. -/
theorem counted_filed (hw : w.Roster) {s : Subscription} {rest : List Subscription}
    (hq : w.hub.installs = s :: rest) (hi : (w.act (.turn .install)).hub.installs = rest)
    (hx : (w.act (.turn .install)).hub.index.values = w.hub.index.values ++ [s])
    (hm : (w.act (.turn .install)).hub.metrics.installs = w.hub.metrics.installs + 1)
    (hrejected : (w.act (.turn .install)).hub.metrics.rejected = w.hub.metrics.rejected)
    (hreg : (w.act (.turn .install)).hub.metrics.topicsRegistered =
      w.hub.metrics.topicsRegistered + .ofNat (w.registrations (.turn .install))) :
    w.Counted (.turn .install) := by
  obtain ⟨-, -, -, -, hqx⟩ := hw.parts
  have hcame : w.came (.turn .install) = 1 := by
    rw [came, hx]
    exact gained_concat (hqx s (hq ▸ List.mem_cons_self))
  have hrej : w.rejections (.turn .install) = 0 := by
    have hnone : (s :: rest).countP (fun s' => s' ∉ rest ∧ s' ∉ w.hub.index.values ++ [s]) = 0 := by
      rw [List.countP_eq_zero]
      intro s' hs'
      rcases List.mem_cons.mp hs' with rfl | hs' <;> simp [*]
    rw [rejections, hi, hx, hq, hnone]
    rfl
  constructor
  · rw [hcame, hm]
    rfl
  · rw [hrej, hrejected, ofNat_zero_add]
  · exact hreg
  · rw [hcame, hrej, hi, hq, List.length_cons]
    simp [answer, Nat.add_comm]

/-- An installation takes one subscription in, or turns it away, if any waits; what it counts says
which, and whether the topic is new. -/
theorem counted_install (hw : w.Roster) (hr : w.hub.running = true) :
    w.Counted (.turn .install) := by
  have hact : w.act (.turn .install) = w.perform .install := if_pos hr
  cases hq : w.hub.installs with
  | nil =>
    have hsame : w.act (.turn .install) = w := by rw [hact, perform, hq]
    refine .of_thins ?_ rfl
    rw [hsame]
    exact .refl _
  | cons s rest =>
    have hperform : w.act (.turn .install) = { w with hub.installs := rest }.install s := by
      rw [hact, perform, hq]
    have hvalues := hw.values_filed (hq ▸ List.mem_cons_self : s ∈ w.hub.installs)
    rcases install_cases { w with hub.installs := rest } s with
      ⟨_, _, he⟩ | ⟨_, he⟩ | ⟨e, _, _, _, he⟩ | ⟨w', _, hreg, he⟩ <;> rw [he] at hperform
    · exact counted_refused hw hq (by rw [hperform]; rfl) (by rw [hperform]; rfl)
        (by rw [hperform]; rfl) (by rw [hperform]; rfl)
    · exact counted_refused hw hq (by rw [hperform]; rfl) (by rw [hperform]; rfl)
        (by rw [hperform]; rfl) (by rw [hperform]; rfl)
    · exact counted_refused hw hq (by rw [hperform]; rfl) (by rw [hperform]; rfl)
        (by rw [hperform]; rfl) (by rw [hperform]; rfl)
    · rcases register_cases hreg with ⟨_, rfl⟩ | ⟨ht, hd, bus, _, rfl⟩ <;>
        rw [← hperform] at he
      · have hnone : w.registrations (.turn .install) = 0 := by
          rw [registrations, hperform, file_hub]
          refine gained_eq_zero ?_
          simp only [Table.keys_update]
          exact List.Subset.refl _
        refine counted_filed hw hq ?_ ?_ ?_ ?_ ?_
        · rw [hperform, file_hub]
        · rw [hperform, file_hub]
          exact hvalues
        · rw [hperform, file_hub]
          rfl
        · rw [hperform, file_hub]
          rfl
        · rw [hnone, hperform, file_hub, ofNat_zero_add]
          rfl
      · have hkeys := Table.keys_set_of_not_mem (⟨hd.registration, 0⟩ : Registration)
          ((Table.contains_eq_false_iff _ _).mp ht)
        have hone : w.registrations (.turn .install) = 1 := by
          rw [registrations, hperform, file_hub, registered_hub]
          simp only [Table.keys_update, hkeys]
          exact gained_concat ((Table.contains_eq_false_iff _ _).mp ht)
        refine counted_filed hw hq ?_ ?_ ?_ ?_ ?_
        · rw [hperform, file_hub, registered_hub]
        · rw [hperform, file_hub, registered_hub]
          exact hvalues
        · rw [hperform, file_hub, registered_hub]
          rfl
        · rw [hperform, file_hub, registered_hub]
          rfl
        · rw [hone, hperform, file_hub, registered_hub]
          rfl

/-- Handing in is answered, and whoever is taken in waits from then on. -/
theorem counted_submit (w : World) (id : SubscriptionId) : w.Counted (.submit id) := by
  cases hget : w.held.get? id with
  | none =>
    have hsame : w.act (.submit id) = w := by simp only [act, hget]
    refine .of_thins ?_ (by simp only [answer, hget, Option.map_none])
    rw [hsame]
    exact .refl _
  | some s =>
    have hact : w.act (.submit id) = (w.submit s).2 := by simp only [act, hget]
    have hanswer : w.answer (.submit id) = some (w.submit s).1 := by
      simp only [answer, hget, Option.map_some]
    have hloop := (submit_hub w s).loop
    rw [← hact] at hloop
    have hcame : w.came (.submit id) = 0 := gained_eq_zero (hloop.index ▸ List.Subset.refl _)
    have hreg : w.registrations (.submit id) = 0 :=
      gained_eq_zero (hloop.topics ▸ List.Subset.refl _)
    have hsub : w.hub.installs ⊆ (w.act (.submit id)).hub.installs := by
      rw [hact]
      rcases (submit_hub w s).installs with h | ⟨_, s', h⟩ <;> rw [h]
      · exact List.Subset.refl _
      · exact List.subset_append_left _ _
    have hrej := rejections_of_subset hsub
    rw [hanswer] at hrej
    rcases submit_cases w s with ⟨_, _, h⟩ | ⟨_, h⟩ | ⟨_, _, h⟩ <;> rw [h] at hact hanswer hrej
    · constructor
      · rw [hcame, hact, ofNat_zero_add]
      · rw [hrej, hact]
        exact (ofNat_zero_add _).symm
      · rw [hreg, hact, ofNat_zero_add]
      · rw [hcame, hrej, hact, hanswer]
        simp [refusedForLight, decided]
    · constructor
      · rw [hcame, hact, ofNat_zero_add]
        rfl
      · rw [hrej, hact]
        rfl
      · rw [hreg, hact, ofNat_zero_add]
        rfl
      · rw [hcame, hrej, hact, hanswer]
        simp [refusedForLight, decided, record, closeLine, Nat.add_comm]
    · constructor
      · rw [hcame, hact, ofNat_zero_add]
        rfl
      · rw [hrej, hact]
        exact (ofNat_zero_add _).symm
      · rw [hreg, hact, ofNat_zero_add]
        rfl
      · rw [hcame, hrej, hact, hanswer]
        simp [refusedForLight, decided, closeLine]

theorem requestRemoval_thins (w : World) (id : SubscriptionId) :
    w.hub.Thins (w.requestRemoval id).hub := by
  unfold requestRemoval
  split
  · exact ⟨List.Subset.refl _, List.Subset.refl _, rfl, rfl⟩
  · exact .refl _

/-- What is no step of the hub, and hands nothing in, counts nothing that is taken in. -/
theorem call_thins (w : World) {a : Action} (ht : ∀ t, a ≠ .turn t) (hs : ∀ id, a ≠ .submit id) :
    w.hub.Thins (w.act a).hub := by
  cases a with
  | turn t => exact absurd rfl (ht t)
  | submit id => exact absurd rfl (hs id)
  | make kind criteria topic buffer =>
    rcases make_cases w kind criteria topic buffer with h | ⟨s, _, h⟩ <;> rw [h] <;> exact .refl _
  | makeWithin kind criteria =>
    rcases makeWithin_cases w kind criteria with h | ⟨s, buffer, _, h⟩ <;> rw [h] <;> exact .refl _
  | discard id =>
    rcases discard_cases w id with ⟨_, h⟩ | ⟨_, h⟩ <;> simp only [act, h] <;> exact .refl _
  | requestRemoval id => exact requestRemoval_thins w id
  | dropReceiver id =>
    simp only [act, dropReceiver]
    split
    · exact .refl _
    · split
      · exact requestRemoval_thins { w with lines := w.lines.update id Line.dropReceiver } id
      · exact .refl _
  | askInstalled id =>
    simp only [act, askInstalled]
    cases w.receiver? id <;> exact .refl _
  | tryError id =>
    simp only [act, tryError]
    cases w.receiver? id <;> exact .refl _
  | receive id =>
    simp only [act, receive]
    cases w.receiver? id <;> exact .refl _
  | signal cancelled =>
    simp only [act, signal]
    split <;> exact ⟨List.Subset.refl _, List.Subset.refl _, rfl, rfl⟩
  | busReceive h =>
    simp only [act]
    split <;> exact .refl _
  | busDrop h =>
    simp only [act]
    split <;> exact .refl _
  | _ => exact ⟨List.Subset.refl _, List.Subset.refl _, rfl, rfl⟩

theorem act_counted (hw : w.Roster) (a : Action) : w.Counted a := by
  cases a with
  | submit id => exact counted_submit w id
  | turn t =>
    by_cases hr : w.hub.running = true
    · cases t with
      | stop => exact counted_stop hr
      | install => exact counted_install hw hr
      | remove =>
        refine .of_thins ?_ rfl
        rw [act, if_pos hr, perform]
        split
        · exact .refl _
        · rename_i id rest _
          have h := uninstall_thins { w with hub.removals := rest } id .unsubscribed
          exact ⟨h.index, h.topics, h.installs, h.metrics⟩
      | read topic =>
        refine .of_thins ?_ rfl
        rw [act, if_pos hr, perform]
        split
        · exact .refl _
        · rename_i item bus _
          exact dispatch_thins { w with bus } topic item
    · refine .of_thins ?_ rfl
      rw [act, if_neg hr]
      exact .refl _
  | _ => exact .of_thins (call_thins w (by simp) (by simp)) rfl

/-! ## Runs -/

/-- The counters of what is taken in and given up say what there was to count in a run, modulo 2^64,
and the sizes of the tables and of the queue are what that leaves. -/
structure Recount (w₀ : World) (run : List Action) : Prop where
  installs : (w₀.after run).hub.metrics.installs = .ofNat (tally came w₀ run)
  uninstalls : (w₀.after run).hub.metrics.uninstalls = .ofNat (tally went w₀ run)
  rejected : (w₀.after run).hub.metrics.rejected = .ofNat (tally rejections w₀ run)
  registered : (w₀.after run).hub.metrics.topicsRegistered = .ofNat (tally registrations w₀ run)
  released : (w₀.after run).hub.metrics.topicsReleased = .ofNat (tally releases w₀ run)
  indexed : tally came w₀ run = tally went w₀ run + (w₀.after run).hub.index.size
  topics : tally registrations w₀ run = tally releases w₀ run + (w₀.after run).hub.topics.size
  intake : tally came w₀ run + tally rejections w₀ run + (w₀.after run).hub.installs.length =
    (along answer w₀ run).countP decided

theorem index_balance (hw : w.Roster) (a : Action) :
    w.hub.index.size + w.came a = (w.act a).hub.index.size + w.went a := by
  have honce : ∀ {w : World}, w.Roster → w.hub.index.values.Nodup := by
    intro w hw
    have hids := hw.sound.consistent.ids_once
    rw [← hw.sound.consistent.values_ids] at hids
    exact hids.of_map
  rw [← Table.length_values, ← Table.length_values]
  exact length_add_gained (honce hw) (honce (act_roster hw a))

theorem topics_balance (hw : w.Roster) (a : Action) :
    w.hub.topics.size + w.registrations a = (w.act a).hub.topics.size + w.releases a := by
  rw [← Table.length_keys, ← Table.length_keys]
  exact length_add_gained hw.sound.consistent.topics_once
    (act_roster hw a).sound.consistent.topics_once

/-- The tallies of a run leave what the tables and the queue hold. -/
theorem tallies_balance (bus : Bus) (config : Config) (governor : Governor) (run : List Action) :
    let w₀ := start bus config governor
    let w := w₀.after run
    tally came w₀ run = tally went w₀ run + w.hub.index.size ∧
      tally registrations w₀ run = tally releases w₀ run + w.hub.topics.size ∧
      tally came w₀ run + tally rejections w₀ run + w.hub.installs.length =
        (along answer w₀ run).countP decided := by
  intro w₀ w
  induction run using List.reverseRecOn with
  | nil => exact ⟨rfl, rfl, rfl⟩
  | append_singleton run a ih =>
    obtain ⟨hindex, htopics, hintake⟩ := ih
    have hw : (w₀.after run).Roster := after_roster (start_roster bus config governor) run
    have hindex' := index_balance hw a
    have htopics' := topics_balance hw a
    have hintake' := (act_counted hw a).intake
    simp only [w, after_concat, tally_concat, along_concat, List.countP_append]
    omega

/-- The counters of a run are the tallies, modulo 2^64. -/
theorem tallies_counted (bus : Bus) (config : Config) (governor : Governor) (run : List Action) :
    let w₀ := start bus config governor
    let m := (w₀.after run).hub.metrics
    m.installs = .ofNat (tally came w₀ run) ∧ m.rejected = .ofNat (tally rejections w₀ run) ∧
      m.topicsRegistered = .ofNat (tally registrations w₀ run) := by
  intro w₀ m
  induction run using List.reverseRecOn with
  | nil => exact ⟨rfl, rfl, rfl⟩
  | append_singleton run a ih =>
    obtain ⟨hinstalls, hrejected, hregistered⟩ := ih
    have h := act_counted (after_roster (start_roster bus config governor) run) a
    simp only [m, after_concat, tally_concat, UInt64.ofNat_add]
    exact ⟨h.installs.trans (by rw [hinstalls]), h.rejected.trans (by rw [hrejected]),
      h.registered.trans (by rw [hregistered])⟩

theorem after_recount (bus : Bus) (config : Config) (governor : Governor) (run : List Action) :
    Recount (start bus config governor) run := by
  obtain ⟨hindex, htopics, hintake⟩ := tallies_balance bus config governor run
  obtain ⟨hinstalls, hrejected, hregistered⟩ := tallies_counted bus config governor run
  obtain ⟨hinstalled, hheld⟩ := after_counters bus config governor run
  refine ⟨hinstalls, ?_, hrejected, hregistered, ?_, hindex, htopics, hintake⟩
  · rw [hinstalls, hindex, UInt64.ofNat_add] at hinstalled
    exact ((UInt64.add_left_inj _).mp hinstalled).symm
  · rw [hregistered, htopics, UInt64.ofNat_add] at hheld
    exact ((UInt64.add_left_inj _).mp hheld).symm

end World

end EventFanout
