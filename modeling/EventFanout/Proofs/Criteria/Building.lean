/-
EventFanout.Proofs.Criteria.Building — what a sequence of building calls means for a log.

Criteria are built in place: positions are padded, overwritten, and replaced all at once. What the
calls mean is said here without the criteria, from the sequence alone: the last call that set a
bound, the emitters named since the list of them was last given whole, and for a position of the
topics the last values assigned to it since all positions were last given.

Main statement: `filterLogs_build`. The criteria that any calls build keep exactly the logs that the
calls want, in order, and are refused for too many positions just when the calls speak of more
positions than are allowed.
-/
import EventFanout.Proofs.Criteria.Matching
import Mathlib.Data.List.DropRight

namespace EventFanout.Criteria

namespace Build

/-! ## What single calls say -/

def lower? : Build → Option BlockSpec
  | .fromBlock b => some b
  | _ => none

def upper? : Build → Option BlockSpec
  | .toBlock b => some b
  | _ => none

def emitters? : Build → Option (List Address)
  | .addresses as => some as
  | _ => none

def emitter? : Build → Option Address
  | .address a => some a
  | _ => none

def slots? : Build → Option (List (List Hash))
  | .topics slots => some slots
  | _ => none

/-- The position that a call assigns values to, and the values. All positions out of range are one
position. -/
def assigned? : Build → Option (Nat × List Hash)
  | .topic position values => some (min position maxTopicSlots, values)
  | _ => none

/-! ## What a sequence of calls says -/

variable {α β : Type}

def last? (said : Build → Option α) (calls : List Build) : Option α :=
  (calls.filterMap said).getLast?

/-- What is said after the last call that gives all anew. -/
def since (renewed : Build → Option α) (said : Build → Option β) (calls : List Build) : List β :=
  (calls.rtakeWhile fun b => (renewed b).isNone).filterMap said

def emitters (calls : List Build) : List Address :=
  (last? emitters? calls).getD [] ++ since emitters? emitter? calls

/-- The positions last given for all. -/
def base (calls : List Build) : List (List Hash) := (last? slots? calls).getD []

/-- The assignments to single positions since. -/
def assignments (calls : List Build) : List (Nat × List Hash) := since slots? assigned? calls

def slotCount (calls : List Build) : Nat :=
  (assignments calls).foldl (fun n a => max n (a.1 + 1)) (base calls).length

/-- The values last assigned to a position; a position that nothing was assigned to accepts
everything. -/
def values (calls : List Build) (p : Nat) : List Hash :=
  match ((assignments calls).filter fun a => a.1 = p).getLast? with
  | some a => a.2
  | none => (base calls).getD p []

def Wanted (calls : List Build) (log : Log) : Prop :=
  (∀ h ∈ (last? lower? calls).bind BlockSpec.height, h ≤ log.blockNumber) ∧
  (∀ h ∈ (last? upper? calls).bind BlockSpec.height, log.blockNumber ≤ h) ∧
  (emitters calls = [] ∨ log.address ∈ emitters calls) ∧
  slotCount calls ≤ log.topics.length ∧
  ∀ p < slotCount calls, Accepts (values calls p) log.topics[p]?

instance (calls : List Build) (log : Log) : Decidable (Wanted calls log) :=
  inferInstanceAs (Decidable (_ ∧ _ ∧ _ ∧ _ ∧ _))

/-! ## One call more -/

variable {said : Build → Option β} {renewed : Build → Option α} {b : Build}

theorem last?_concat (calls : List Build) :
    last? said (calls ++ [b]) = (said b).or (last? said calls) := by
  cases h : said b <;> simp [last?, h]

/-- Nothing is left of what was said before a call that gives all anew. -/
theorem since_concat_some {all : α} (h : renewed b = some all) (calls : List Build) :
    since renewed said (calls ++ [b]) = [] := by
  simp [since, h]

theorem since_concat_none (h : renewed b = none) (calls : List Build) :
    since renewed said (calls ++ [b]) = since renewed said calls ++ (said b).toList := by
  cases hs : said b <;> simp [since, h, hs]

theorem emitters_concat (calls : List Build) (b : Build) : emitters (calls ++ [b]) =
    (emitters? b).getD (emitters calls ++ (emitter? b).toList) := by
  cases h : emitters? b with
  | some as => simp [emitters, last?_concat, since_concat_some h, h]
  | none => simp [emitters, last?_concat, since_concat_none h, h]

/-! Of the positions, a call gives all, assigns one, or says nothing. -/

theorem slotCount_topics (calls : List Build) (slots : List (List Hash)) :
    slotCount (calls ++ [.topics slots]) = slots.length := by
  have hall : slots? (.topics slots) = some slots := rfl
  simp [slotCount, base, assignments, last?_concat, since_concat_some hall, hall]

theorem slotCount_topic (calls : List Build) (position : Nat) (vs : List Hash) :
    slotCount (calls ++ [.topic position vs]) =
      max (slotCount calls) (min position maxTopicSlots + 1) := by
  have hone : slots? (.topic position vs) = none := rfl
  simp [slotCount, base, assignments, last?_concat, since_concat_none hone, hone, assigned?]

theorem values_topics (calls : List Build) (slots : List (List Hash)) (p : Nat) :
    values (calls ++ [.topics slots]) p = slots.getD p [] := by
  have hall : slots? (.topics slots) = some slots := rfl
  simp [values, base, assignments, last?_concat, since_concat_some hall, hall]

theorem values_topic (calls : List Build) (position : Nat) (vs : List Hash) (p : Nat) :
    values (calls ++ [.topic position vs]) p =
      if min position maxTopicSlots = p then vs else values calls p := by
  have hone : slots? (.topic position vs) = none := rfl
  by_cases hp : min position maxTopicSlots = p <;>
    simp [values, base, assignments, last?_concat, since_concat_none hone, hone, assigned?, hp]

theorem base_concat_none (h : slots? b = none) (calls : List Build) :
    base (calls ++ [b]) = base calls := by
  simp [base, last?_concat, h]

theorem assignments_concat_none (h : slots? b = none) (ha : assigned? b = none)
    (calls : List Build) : assignments (calls ++ [b]) = assignments calls := by
  simp [assignments, since_concat_none h, ha]

end Build

open Build

theorem build_concat (calls : List Build) (b : Build) :
    build (calls ++ [b]) = (build calls).apply b := by
  simp [build]

/-! ## What is built -/

theorem fromBlock_build (calls : List Build) :
    (build calls).fromBlock = last? lower? calls := by
  induction calls using List.reverseRecOn with
  | nil => rfl
  | append_singleton calls b ih =>
    rw [build_concat, last?_concat]
    cases b with
    | fromBlock b => rfl
    | _ => exact ih

theorem toBlock_build (calls : List Build) : (build calls).toBlock = last? upper? calls := by
  induction calls using List.reverseRecOn with
  | nil => rfl
  | append_singleton calls b ih =>
    rw [build_concat, last?_concat]
    cases b with
    | toBlock b => rfl
    | _ => exact ih

theorem addresses_build (calls : List Build) : (build calls).addresses = emitters calls := by
  induction calls using List.reverseRecOn with
  | nil => rfl
  | append_singleton calls b ih =>
    rw [build_concat, emitters_concat, ← ih]
    cases b with
    | address a => rfl
    | addresses as => rfl
    | _ => exact (List.append_nil _).symm

theorem length_withTopic (c : Criteria) (position : Nat) (vs : List Hash) :
    (c.withTopic position vs).topics.length =
      max c.topics.length (min position maxTopicSlots + 1) := by
  simp only [withTopic, List.length_set, List.length_append, List.length_replicate]
  omega

theorem getD_withTopic (c : Criteria) (position : Nat) (vs : List Hash) (p : Nat) :
    (c.withTopic position vs).topics.getD p [] =
      if min position maxTopicSlots = p then vs else c.topics.getD p [] := by
  let padded := c.topics ++ List.replicate (min position maxTopicSlots + 1 - c.topics.length) []
  have hroom : min position maxTopicSlots < padded.length := by
    simp only [padded, List.length_append, List.length_replicate]
    omega
  -- what was padded accepts everything, as what is missing does
  have hold : padded.getD p [] = c.topics.getD p [] := by
    by_cases hp : p < c.topics.length
    · simp [padded, List.getElem?_append_left hp]
    · simp [padded, List.getElem?_append_right (Nat.le_of_not_lt hp), List.getElem?_replicate,
        List.getElem?_eq_none (Nat.le_of_not_lt hp)]
      split <;> rfl
  rw [← hold]
  change (padded.set _ vs).getD p [] = _
  by_cases hp : min position maxTopicSlots = p
  · subst hp
    simp [List.getElem?_set_self hroom]
  · simp [List.getElem?_set_ne hp, hp]

theorem length_topics_build (calls : List Build) :
    (build calls).topics.length = slotCount calls := by
  induction calls using List.reverseRecOn with
  | nil => rfl
  | append_singleton calls b ih =>
    rw [build_concat]
    cases b with
    | topic position vs => rw [slotCount_topic, ← ih]; exact length_withTopic _ _ _
    | topics slots => exact (slotCount_topics calls slots).symm
    | _ => rw [slotCount, base_concat_none rfl, assignments_concat_none rfl rfl]; exact ih

/-- The values in a position are those last assigned to it. -/
theorem getD_topics_build (calls : List Build) (p : Nat) :
    (build calls).topics.getD p [] = values calls p := by
  induction calls using List.reverseRecOn with
  | nil => rfl
  | append_singleton calls b ih =>
    rw [build_concat]
    cases b with
    | topic position vs => rw [values_topic, ← ih]; exact getD_withTopic _ _ _ _
    | topics slots => exact (values_topics calls slots p).symm
    | _ => rw [values, base_concat_none rfl, assignments_concat_none rfl rfl]; exact ih

/-! ## What the built criteria do -/

theorem matchesLog_build (calls : List Build) (log : Log) :
    (build calls).matchesLog log = true ↔ Wanted calls log := by
  rw [matchesLog_iff]
  simp only [fromBlock_build, toBlock_build, addresses_build, length_topics_build,
    getD_topics_build, Wanted]

theorem validate_tooManyTopics_iff {c : Criteria} {topics addresses count limit : Nat} :
    c.validate topics addresses = .error (.tooManyTopics count limit) ↔
      topics < c.topics.length ∧ count = c.topics.length ∧ limit = topics := by
  unfold validate
  constructor
  · intro h
    split at h
    · cases h
      exact ⟨‹_›, rfl, rfl⟩
    · -- no later check is about the positions
      repeat' split at h
      all_goals cases h
  · rintro ⟨hmany, rfl, rfl⟩
    rw [if_pos hmany]

/--
Criteria built by calls keep the logs that the calls want, in order. They are refused for too many
positions just when the calls speak of more than are allowed.
-/
theorem filterLogs_build (calls : List Build) :
    (∀ logs : List Log, (build calls).filterLogs logs =
      logs.filter fun log => Wanted calls log) ∧
    ∀ topics addresses count limit : Nat,
      (build calls).validate topics addresses = .error (.tooManyTopics count limit) ↔
        topics < slotCount calls ∧ count = slotCount calls ∧ limit = topics := by
  constructor
  · intro logs
    refine List.filter_congr fun log _ => ?_
    rw [Bool.eq_iff_iff, matchesLog_build, decide_eq_true_iff]
  · intro topics addresses count limit
    rw [validate_tooManyTopics_iff, length_topics_build]

/-- A position far out of range is the fifth, whatever was given for all before. -/
example (h : Hash) : slotCount [.topic 1 [h], .topics [[h], []], .topic 100 [h]] = 5 ∧
    values [.topic 1 [h], .topics [[h], []], .topic 100 [h]] 1 = [] := ⟨rfl, rfl⟩

end EventFanout.Criteria
