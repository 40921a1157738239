/-
EventFanout.Proofs.Admission.Making — what is asked of a subscription before it is made.

Every subscription comes from one constructor, which looks at its criteria and at its topic.
Making it within the limits of a hub looks at the criteria once more, with the limits that the
hub was configured with. `Subscription.WellMade` is what the constructor has seen to, and
`Subscription.Admissible` spells it out.

Main statements: what an action makes is well made (`wellMade_of_brought`), and what it makes
within the limits of the hub keeps to them (`validate_of_offered`).
-/
import EventFanout.Proofs.Departure

namespace EventFanout

/-! ## Criteria that pass -/

namespace Criteria

variable {c : Criteria} {topics addresses : Nat}

theorem validate_ok_iff : c.validate topics addresses = .ok () ↔
    c.topics.length ≤ topics ∧ c.addresses.length ≤ addresses ∧ c.lower.isPending = false ∧
      c.upper.isPending = false ∧ rangeOk c.lower c.upper = true := by
  unfold validate
  split
  · rename_i h
    simp only [reduceCtorEq, false_iff]
    exact fun hc => absurd hc.1 (Nat.not_le.mpr h)
  · rename_i ht
    split
    · rename_i h
      simp only [reduceCtorEq, false_iff]
      exact fun hc => absurd hc.2.1 (Nat.not_le.mpr h)
    · rename_i ha
      split
      · rename_i h
        simp only [reduceCtorEq, false_iff]
        rintro ⟨-, -, hl, hu, -⟩
        simp [hl, hu] at h
      · rename_i hp
        simp only [Bool.or_eq_true, not_or, Bool.not_eq_true] at hp
        split
        · rename_i hr
          exact ⟨fun _ => ⟨Nat.not_lt.mp ht, Nat.not_lt.mp ha, hp.1, hp.2, hr⟩, fun _ => rfl⟩
        · rename_i hr
          simp only [reduceCtorEq, false_iff]
          exact fun hc => hr hc.2.2.2.2

/-- A missing bound has no height, as `latest` has none. -/
theorem lower_height (c : Criteria) : c.lower.height = c.fromBlock.bind BlockSpec.height := by
  unfold lower
  cases c.fromBlock <;> rfl

theorem upper_height (c : Criteria) : c.upper.height = c.toBlock.bind BlockSpec.height := by
  unfold upper
  cases c.toBlock <;> rfl

/-- Where a range is in order, a fixed end has a fixed start that is not above it. -/
theorem le_of_rangeOk {lower upper : BlockSpec} (h : rangeOk lower upper = true) {u : UInt64}
    (hu : upper.height = some u) : ∃ l, lower.height = some l ∧ l ≤ u := by
  unfold rangeOk at h
  rw [hu] at h
  cases hl : lower.height with
  | none => simp [hl] at h
  | some l =>
    simp only [hl, decide_eq_true_eq] at h
    exact ⟨l, rfl, h⟩

/-- Some height is in a range that is in order. -/
theorem exists_inRange (h : rangeOk c.lower c.upper = true) :
    ∃ n, reaches c.fromBlock n = true ∧ within c.toBlock n = true := by
  unfold reaches within
  rw [← lower_height, ← upper_height]
  cases hu : c.upper.height with
  | none =>
    cases hl : c.lower.height with
    | none => exact ⟨0, rfl, rfl⟩
    | some l => exact ⟨l, decide_eq_true (UInt64.le_refl l), rfl⟩
  | some u =>
    obtain ⟨l, hl, hle⟩ := le_of_rangeOk h hu
    rw [hl]
    exact ⟨l, decide_eq_true (UInt64.le_refl l), decide_eq_true hle⟩

theorem ne_pending_of_lower (h : c.lower.isPending = false) :
    c.fromBlock ≠ some (.tag .pending) := by
  intro hb
  simp [lower, hb, BlockSpec.isPending] at h

theorem ne_pending_of_upper (h : c.upper.isPending = false) :
    c.toBlock ≠ some (.tag .pending) := by
  intro hb
  simp [upper, hb, BlockSpec.isPending] at h

end Criteria

/-! ## Subscriptions -/

namespace Subscription

variable {s : Subscription}

/-- What the constructor has seen to. -/
structure WellMade (s : Subscription) : Prop where
  criteria : s.criteria = none ∨ s.kind = .logs ∧
    ∃ c, s.criteria = some c ∧ c.validate maxTopicSlots (UInt64.size - 1) = .ok ()
  topic : Text.isBlank s.topic = false

/-- The rules of admission that hold for every subscription, however it was made. -/
structure Admissible (s : Subscription) : Prop where
  /-- Only a subscription to logs has criteria. -/
  plain : s.kind ≠ .logs → s.criteria = none
  /-- Its criteria have no more positions than a log has topics. -/
  slots : ∀ c, s.criteria = some c → c.topics.length ≤ maxTopicSlots
  /-- Neither bound is `pending`. -/
  settled : ∀ c, s.criteria = some c →
    c.fromBlock ≠ some (.tag .pending) ∧ c.toBlock ≠ some (.tag .pending)
  /-- A fixed end has a fixed start that is not above it. -/
  ordered : ∀ c, s.criteria = some c → ∀ u, c.upper.height = some u →
    ∃ l, c.lower.height = some l ∧ l ≤ u
  /-- There is a height that both bounds let through. -/
  inhabited : ∀ c, s.criteria = some c →
    ∃ n, Criteria.reaches c.fromBlock n = true ∧ Criteria.within c.toBlock n = true
  /-- There is more than white space in its topic. -/
  named : Text.isBlank s.topic = false

theorem WellMade.validate (h : s.WellMade) {c : Criteria} (hc : s.criteria = some c) :
    c.validate maxTopicSlots (UInt64.size - 1) = .ok () := by
  rcases h.criteria with hnone | ⟨-, c', hc', hv⟩
  · rw [hnone] at hc
    cases hc
  · rw [hc', Option.some.injEq] at hc
    exact hc ▸ hv

theorem WellMade.admissible (h : s.WellMade) : s.Admissible where
  plain := fun hk => h.criteria.resolve_right fun hlogs => hk hlogs.1
  slots := fun _ hc => (Criteria.validate_ok_iff.mp (h.validate hc)).1
  settled := by
    intro c hc
    obtain ⟨-, -, hl, hu, -⟩ := Criteria.validate_ok_iff.mp (h.validate hc)
    exact ⟨Criteria.ne_pending_of_lower hl, Criteria.ne_pending_of_upper hu⟩
  ordered := by
    intro c hc u hu
    obtain ⟨-, -, -, -, hr⟩ := Criteria.validate_ok_iff.mp (h.validate hc)
    exact Criteria.le_of_rangeOk hr hu
  inhabited := by
    intro c hc
    obtain ⟨-, -, -, -, hr⟩ := Criteria.validate_ok_iff.mp (h.validate hc)
    exact Criteria.exists_inRange hr
  named := h.topic

/-- Criteria that are kept are the ones that were given, and have been checked. -/
theorem admitCriteria_ok {kind : Kind} {criteria kept : Option Criteria}
    (h : admitCriteria kind criteria = .ok kept) :
    kept = none ∨ kind = .logs ∧ ∃ c, criteria = some c ∧ kept = some c ∧
      c.validate maxTopicSlots (UInt64.size - 1) = .ok () := by
  unfold admitCriteria at h
  split at h
  · cases h
    exact .inl rfl
  · rename_i c
    split at h
    · rename_i hk
      have hkind : kind = .logs := by
        cases kind <;> first | rfl | cases hk
      cases hv : c.validate maxTopicSlots (UInt64.size - 1) with
      | error e =>
        rw [hv] at h
        cases h
      | ok u =>
        rw [hv] at h
        cases h
        exact .inr ⟨hkind, c, rfl, rfl, hv⟩
    · split at h
      · cases h
        exact .inl rfl
      · cases h

theorem isBlank_of_make {id : SubscriptionId} {kind : Kind} {criteria : Option Criteria}
    {topic : Topic} (h : make id kind criteria topic = .ok s) : Text.isBlank topic = false := by
  unfold make at h
  cases hc : admitCriteria kind criteria with
  | error e => simp [hc, bind, Except.bind] at h
  | ok c =>
    simp only [hc, bind, Except.bind] at h
    split at h
    · cases h
    · rename_i hblank
      simpa using hblank

theorem wellMade_of_make {id : SubscriptionId} {kind : Kind} {criteria : Option Criteria}
    {topic : Topic} (h : make id kind criteria topic = .ok s) : s.WellMade := by
  obtain ⟨-, hkind, htopic⟩ := World.make_eq h
  refine ⟨?_, htopic ▸ isBlank_of_make h⟩
  rcases admitCriteria_ok (World.admitCriteria_of_make h) with hnone | ⟨hk, c, -, hc, hv⟩
  · exact .inl hnone
  · exact .inr ⟨hkind.trans hk, c, hc, hv⟩

end Subscription

/-! ## What actions make -/

namespace World

variable {w w' : World} {s : Subscription}

theorem create_make {kind : Kind} {criteria : Option Criteria} {topic : Topic} {buffer : Nat}
    {attached : Bool} (h : w.create kind criteria topic buffer attached = .ok (s, w')) :
    Subscription.make (.issued w.issued) kind criteria topic = .ok s := by
  unfold create at h
  cases hm : Subscription.make (.issued w.issued) kind criteria topic with
  | error e => simp [hm, bind, Except.bind] at h
  | ok s' =>
    simp only [hm, bind, Except.bind, pure, Except.pure, Except.ok.injEq, Prod.mk.injEq] at h
    rw [h.1]

/-- Making a subscription within the limits of the hub is a check and then the constructor. -/
theorem newSubscription_make {kind : Kind} {criteria : Option Criteria}
    (h : w.newSubscription kind criteria = .ok (s, w')) :
    w.checkLimits kind criteria = .ok () ∧
      Subscription.make (.issued w.issued) kind criteria kind.topic = .ok s := by
  unfold newSubscription at h
  cases hl : w.checkLimits kind criteria with
  | error e => simp [hl, bind, Except.bind] at h
  | ok u =>
    simp only [hl, bind, Except.bind] at h
    exact ⟨rfl, create_make h⟩

/-- Whatever an action makes comes from the constructor. -/
theorem make_of_brought {a : Action} (h : w.brought a = some s) :
    ∃ kind criteria topic, Subscription.make (.issued w.issued) kind criteria topic = .ok s := by
  cases a with
  | make kind criteria topic buffer =>
    simp only [brought] at h
    split at h
    · rename_i s' w' hc
      cases h
      exact ⟨kind, criteria, topic, create_make hc⟩
    · cases h
  | makeWithin kind criteria =>
    simp only [brought] at h
    split at h
    · rename_i s' w' hc
      cases h
      exact ⟨kind, criteria, kind.topic, (newSubscription_make hc).2⟩
    · cases h
  | _ => cases h

theorem wellMade_of_brought {a : Action} (h : w.brought a = some s) : s.WellMade := by
  obtain ⟨kind, criteria, topic, hm⟩ := make_of_brought h
  exact Subscription.wellMade_of_make hm

theorem id_of_brought {a : Action} (h : w.brought a = some s) : s.id = .issued w.issued := by
  obtain ⟨kind, criteria, topic, hm⟩ := make_of_brought h
  exact (make_eq hm).1

/-- What is made within the limits of a hub keeps to the limits it is configured with. -/
theorem validate_of_offered {a : Action} (h : w.offered a = some s) {c : Criteria}
    (hc : s.criteria = some c) :
    c.validate w.hub.config.maxTopics.toNat w.hub.config.maxAddresses.toNat = .ok () := by
  cases a with
  | makeWithin kind criteria =>
    simp only [offered, brought] at h
    split at h
    · rename_i s' w' hnew
      cases h
      obtain ⟨hlimits, hm⟩ := newSubscription_make hnew
      rcases Subscription.admitCriteria_ok (admitCriteria_of_make hm) with hnone |
        ⟨hk, c', rfl, hkept, -⟩
      · rw [hnone] at hc
        cases hc
      · rw [hkept, Option.some.injEq] at hc
        subst hc hk
        exact hlimits
    · cases h
  | _ => cases h

end World

end EventFanout
