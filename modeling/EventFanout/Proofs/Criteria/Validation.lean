/-
EventFanout.Proofs.Criteria.Validation — criteria that are admitted, and the logs they want.

The checks that criteria go through and the test that a log is put to are written apart, and take a
missing bound differently: for the checks it is `latest`, for a log it is no bound. What the checks
ask for is said here without them, as the list of everything that is wrong with the criteria
(`faults`), from predicates on the bounds as they were given (`Settled`, `Ordered`).

A log that the criteria want is then written down: as low as the lower bound, from the first emitter
listed, with the first value of every position (`sample`).

Main statement: `validate_agrees`. Criteria are admitted just when nothing is wrong with them, the
first fault is the one that is told, criteria that are admitted want some log, and none that pass
the limits of a hub are turned away when the subscription is made.
-/
import EventFanout.Proofs.Criteria.Matching

namespace EventFanout

namespace Criteria

/-! ## What may be wrong with criteria -/

/-- Neither bound is `pending`. -/
def Settled (c : Criteria) : Prop :=
  c.fromBlock ≠ some (.tag .pending) ∧ c.toBlock ≠ some (.tag .pending)

instance (c : Criteria) : Decidable c.Settled := inferInstanceAs (Decidable (_ ∧ _))

/-- A height above which no log is wanted comes with one below which none is, and that is not
greater. -/
def Ordered (c : Criteria) : Prop :=
  ∀ u ∈ c.toBlock.bind BlockSpec.height, ∃ l ∈ c.fromBlock.bind BlockSpec.height, l ≤ u

theorem ordered_iff {c : Criteria} : rangeOk c.lower c.upper = true ↔ c.Ordered := by
  rw [Ordered, ← lower_height, ← upper_height, rangeOk]
  cases c.lower.height <;> cases c.upper.height <;> simp

instance (c : Criteria) : Decidable c.Ordered := decidable_of_iff _ ordered_iff

/-- Everything that is wrong with criteria within limits, in the order in which it is looked for. -/
def faults (c : Criteria) (slots emitters : Nat) : List FilterError :=
  (if c.topics.length ≤ slots then [] else [.tooManyTopics c.topics.length slots]) ++
  (if c.addresses.length ≤ emitters then [] else [.tooManyAddresses c.addresses.length emitters]) ++
  (if c.Settled then [] else [.pendingLogsUnsupported]) ++
  (if c.Ordered then [] else [.invalidBlockRange c.lower c.upper])

theorem faults_eq_nil_iff {c : Criteria} {slots emitters : Nat} : c.faults slots emitters = [] ↔
    c.topics.length ≤ slots ∧ c.addresses.length ≤ emitters ∧ c.Settled ∧ c.Ordered := by
  simp [faults]

/-! ## What the checks look at -/

variable {c : Criteria}

theorem isPending_iff {b : BlockSpec} : b.isPending = true ↔ b = .tag .pending := by
  cases b with
  | number n => simp [BlockSpec.isPending]
  | tag t => cases t <;> simp [BlockSpec.isPending]

/-- What stands for a missing bound is not `pending`. -/
theorem getD_latest_eq_pending_iff {bound : Option BlockSpec} :
    bound.getD (.tag .latest) = .tag .pending ↔ bound = some (.tag .pending) := by
  cases bound <;> simp

theorem settled_iff : (c.lower.isPending || c.upper.isPending) = false ↔ c.Settled := by
  rw [Bool.or_eq_false_iff, ← Bool.not_eq_true, ← Bool.not_eq_true, isPending_iff, isPending_iff,
    lower, upper, getD_latest_eq_pending_iff, getD_latest_eq_pending_iff, Settled]

/-- The error that is told is the first of all faults. -/
theorem validate_eq_head (c : Criteria) (slots emitters : Nat) :
    c.validate slots emitters = (c.faults slots emitters).head?.elim (.ok ()) .error := by
  unfold validate faults
  by_cases ht : c.topics.length ≤ slots
  · rw [if_neg (Nat.not_lt.mpr ht), if_pos ht]
    by_cases ha : c.addresses.length ≤ emitters
    · rw [if_neg (Nat.not_lt.mpr ha), if_pos ha]
      by_cases hs : c.Settled
      · rw [settled_iff.mpr hs, if_pos hs]
        by_cases hr : c.Ordered
        · rw [ordered_iff.mpr hr, if_pos hr]
          rfl
        · rw [if_neg (mt ordered_iff.mp hr), if_neg hr]
          rfl
      · have hpending : (c.lower.isPending || c.upper.isPending) = true :=
          eq_true_of_ne_false (mt settled_iff.mp hs)
        rw [if_pos hpending, if_neg hs]
        rfl
    · rw [if_pos (Nat.not_le.mp ha), if_neg ha]
      rfl
  · rw [if_pos (Nat.not_le.mp ht), if_neg ht]
    rfl

theorem validate_ok_iff_admissible {slots emitters : Nat} : c.validate slots emitters = .ok () ↔
    c.topics.length ≤ slots ∧ c.addresses.length ≤ emitters ∧ c.Settled ∧ c.Ordered := by
  rw [← faults_eq_nil_iff, validate_eq_head]
  cases c.faults slots emitters <;> simp

/-- Wider limits admit what narrower ones do. -/
theorem validate_mono {slots slots' emitters emitters' : Nat} (hslots : slots ≤ slots')
    (hemitters : emitters ≤ emitters') (h : c.validate slots emitters = .ok ()) :
    c.validate slots' emitters' = .ok () := by
  obtain ⟨ht, ha, hbounds⟩ := validate_ok_iff_admissible.mp h
  exact validate_ok_iff_admissible.mpr ⟨ht.trans hslots, ha.trans hemitters, hbounds⟩

/-! ## A log that is wanted -/

/-- The lowest log that the criteria may want, with as many topics as they have positions. -/
def sample (c : Criteria) : Log where
  blockNumber := (c.fromBlock.bind BlockSpec.height).getD 0
  address := c.addresses.headD .zero
  topics := c.topics.map fun values => values.headD .zero

/-- The first value of a position is accepted there. -/
theorem accepts_headD (values : List Hash) : Accepts values (some (values.headD .zero)) := by
  cases values with
  | nil => exact .inl rfl
  | cons v rest => exact .inr ⟨v, rfl, List.mem_cons_self⟩

theorem matchesLog_sample (h : c.Ordered) : c.matchesLog c.sample = true := by
  refine matchesLog_iff.mpr ⟨?lower, ?upper, ?emitter, ?slots, ?topics⟩
  case lower =>
    intro l hl
    rw [sample, Option.mem_def.mp hl]
    exact UInt64.le_refl l
  case upper =>
    intro u hu
    obtain ⟨l, hl, hle⟩ := h u hu
    rw [sample, Option.mem_def.mp hl]
    exact hle
  case emitter =>
    cases ha : c.addresses with
    | nil => exact .inl rfl
    | cons a rest => exact .inr (by simp [sample, ha])
  case slots => exact (List.length_map _).ge
  case topics =>
    intro p hp
    rw [sample, List.getElem?_map, List.getElem?_eq_getElem hp, List.getD_eq_getElem?_getD,
      List.getElem?_eq_getElem hp]
    exact accepts_headD _

end Criteria

/-! ## Criteria within the limits of a hub -/

namespace Config

/-- A valid configuration allows no more positions than a log has topics. -/
theorem maxTopics_le {config : Config} (h : config.validate = .ok ()) :
    config.maxTopics.toNat ≤ maxTopicSlots := by
  by_contra hmany
  have hfault : ∃ fault, config.fault? = some fault := by
    unfold fault?
    split
    · exact ⟨_, rfl⟩
    · rw [if_pos (.inr (Nat.not_le.mp hmany))]
      exact ⟨_, rfl⟩
  obtain ⟨fault, hfault⟩ := hfault
  rw [validate, hfault] at h
  cases h

theorem maxAddresses_le (config : Config) : config.maxAddresses.toNat ≤ UInt64.size - 1 :=
  Nat.le_sub_one_of_lt config.maxAddresses.toNat_lt_size

end Config

namespace World

variable {w : World} {kind : Kind} {c : Criteria}

/-- The topic of a kind is not blank, so only its criteria can keep a subscription from being
made. -/
theorem make_of_kind (id : SubscriptionId) (kind : Kind) (criteria : Option Criteria) :
    Subscription.make id kind criteria kind.topic =
      (Subscription.admitCriteria kind criteria).map fun kept => ⟨id, kind, kind.topic, kept⟩ := by
  have hnamed : Text.isBlank kind.topic = false := by cases kind <;> decide
  unfold Subscription.make
  rw [hnamed]
  rfl

/-- Where a valid configuration lets criteria pass, the constructor lets them pass too. -/
theorem newSubscription_of_valid (hvalid : w.hub.config.validate = .ok ())
    (hkind : kind.acceptsCriteria = true) : w.newSubscription kind (some c) =
      (c.validate w.hub.config.maxTopics.toNat w.hub.config.maxAddresses.toNat).map fun _ =>
        (⟨.issued w.issued, kind, kind.topic, some c⟩,
          w.made ⟨.issued w.issued, kind, kind.topic, some c⟩ w.hub.config.deliveryBuffer.toNat
            true) := by
  unfold newSubscription checkLimits
  simp only [hkind, if_true]
  cases hv : c.validate w.hub.config.maxTopics.toNat w.hub.config.maxAddresses.toNat with
  | error e => rfl
  | ok u =>
    have hsecond : c.validate maxTopicSlots (UInt64.size - 1) = .ok () :=
      Criteria.validate_mono (Config.maxTopics_le hvalid) (Config.maxAddresses_le _) hv
    have hkept : Subscription.admitCriteria kind (some c) = .ok (some c) := by
      simp only [Subscription.admitCriteria, hkind, if_true, hsecond, Except.map]
    simp only [create, make_of_kind, hkept]
    rfl

end World

namespace Criteria

/--
**Validation and matching agree.** The checks answer with the first of all faults. So criteria are
admitted just when they have no more positions and emitters than allowed, neither bound is
`pending`, and an upper height comes with a lower one that is not greater. Criteria that are
admitted want some log with exactly as many topics as they have positions; wider limits admit them
too; and in a hub with a valid configuration the check against its limits alone decides whether the
subscription is made.
-/
theorem validate_agrees (c : Criteria) :
    (∀ slots emitters : Nat, c.validate slots emitters =
      (c.faults slots emitters).head?.elim (.ok ()) .error) ∧
    (∀ slots emitters : Nat, c.validate slots emitters = .ok () ↔
      c.topics.length ≤ slots ∧ c.addresses.length ≤ emitters ∧ c.Settled ∧ c.Ordered) ∧
    (∀ slots emitters : Nat, c.validate slots emitters = .ok () →
      ∃ log : Log, log.topics.length = c.topics.length ∧ c.matchesLog log = true) ∧
    (∀ slots slots' emitters emitters' : Nat, slots ≤ slots' → emitters ≤ emitters' →
      c.validate slots emitters = .ok () → c.validate slots' emitters' = .ok ()) ∧
    ∀ (w : World) (kind : Kind), w.hub.config.validate = .ok () → kind.acceptsCriteria = true →
      w.newSubscription kind (some c) =
        (c.validate w.hub.config.maxTopics.toNat w.hub.config.maxAddresses.toNat).map fun _ =>
          (⟨.issued w.issued, kind, kind.topic, some c⟩,
            w.made ⟨.issued w.issued, kind, kind.topic, some c⟩ w.hub.config.deliveryBuffer.toNat
              true) := by
  refine ⟨validate_eq_head c, fun _ _ => validate_ok_iff_admissible, ?satisfiable,
    fun _ _ _ _ => validate_mono, fun _ _ => World.newSubscription_of_valid⟩
  case satisfiable =>
    intro slots emitters h
    obtain ⟨-, -, -, hordered⟩ := validate_ok_iff_admissible.mp h
    exact ⟨c.sample, List.length_map _, matchesLog_sample hordered⟩

/-- Three positions up to a height, in a hub that allows three: they pass both checks, and where
two positions are allowed the first of two faults is told. -/
theorem validate_agrees_three :
    let c : Criteria := {
      fromBlock := some (.tag .earliest), toBlock := some (.number 7)
      addresses := [.zero], topics := [[], [.zero], []] }
    let w := World.start (Bus.sized 4) { maxTopics := 3 } .absent
    c.validate 3 1 = .ok () ∧ c.validate 4 9 = .ok () ∧
      c.validate 2 0 = .error (.tooManyTopics 3 2) ∧
      (∃ log : Log, log.topics.length = 3 ∧ c.matchesLog log = true) ∧
      (w.newSubscription .logs (some c)).map (·.1) =
        .ok ⟨.issued 0, .logs, transactionTopic, some c⟩ := by
  intro c w
  obtain ⟨hfirst, hiff, hwanted, hmono, hhub⟩ := validate_agrees c
  have hok : c.validate 3 1 = .ok () := (hiff 3 1).mpr (by decide)
  refine ⟨hok, hmono 3 4 1 9 (by decide) (by decide) hok, hfirst 2 0, hwanted 3 1 hok, ?_⟩
  have hlimits : c.validate w.hub.config.maxTopics.toNat w.hub.config.maxAddresses.toNat = .ok () :=
    hmono 3 _ 1 _ (by decide) (by decide) hok
  rw [hhub w .logs (by decide) rfl, hlimits]
  rfl

end Criteria

end EventFanout
