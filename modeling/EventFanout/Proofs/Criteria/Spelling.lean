/-
EventFanout.Proofs.Criteria.Spelling — criteria, however they are spelled.

Criteria are written in one form, and that form reads back as the same criteria (`ofJson_toJson`).
They are read in many: one emitter for the list of it, nothing or `null` for an empty list, a bound as a
number or as any text of it. Two objects are `Respelled` where each of their four members, which
may be anywhere in the object, is the same up to such alternatives; then they read alike,
refusals included (`ofMembers_of_respelled`).

## How the proof goes

* Reading an object comes down to reading four values that may be absent (`ofMembers_eq`,
  `getD_field?`), so what is to be shown is that each alternative reads as what it replaces.
* For emitters and positions that is one equation each. For bounds it is which texts are read as
  a height (`height?_eq_some`), and that none of them spells a tag (`tag_of_height`).

Main statement: `criteria_canonical`.
-/
import EventFanout.Criteria.Wire
import EventFanout.Proofs.Codec
import EventFanout.Proofs.Criteria.Numeral
import Mathlib.Data.List.Forall2
import Mathlib.Data.Setoid.Basic

namespace EventFanout

open Text (Numeral.Writes Numeral.read? Numeral.digit? Numeral.digits?)

/-! ## Bounds in text -/

/-- A tag is read where its name is spelled in some letter case. -/
theorem BlockTag.read?_eq_some {cs : List Char} {t : BlockTag} :
    BlockTag.read? cs = some t ↔ cs.map Char.toLower = t.name.toList := by
  unfold BlockTag.read?
  constructor
  · intro h
    simpa using List.find?_some h
  · intro h
    rw [h]
    cases t <;> decide

namespace BlockSpec

variable {cs : List Char} {n : UInt64}

/-- The mark of hexadecimal digits is no decimal digit. -/
theorem read?_ten_marked {mark : Char} (hm : mark = 'x' ∨ mark = 'X') (cs : List Char) :
    Numeral.read? 10 ('0' :: mark :: cs) = none := by
  have hzero : Numeral.digit? 10 '0' = some 0 := by decide
  have hmark : Numeral.digit? 10 mark = none := by
    rcases hm with rfl | rfl <;> decide
  have hdigits : Numeral.digits? 10 0 ('0' :: mark :: cs) = none := by
    simp [Numeral.digits?, hzero, hmark]
  simp [Numeral.read?, Text.Numeral.unsigned, hdigits]

/-- The texts that are read as a height are those of its decimal digits, and those of its hexadecimal
digits after a mark. -/
theorem height?_eq_some : height? cs = some n ↔ Numeral.Writes 10 n.toNat cs ∨
    ∃ mark rest, (mark = 'x' ∨ mark = 'X') ∧ Numeral.Writes 16 n.toNat rest ∧
      cs = '0' :: mark :: rest := by
  have hdecimal : Numeral.Writes 10 n.toNat cs ↔ Numeral.read? 10 cs = some n :=
    (Text.Numeral.read?_eq_some (by decide) (by decide)).symm
  have hmarked (rest : List Char) : Numeral.Writes 16 n.toNat rest ↔
      Numeral.read? 16 rest = some n := (Text.Numeral.read?_eq_some (by decide) (by decide)).symm
  simp only [hdecimal, hmarked]
  constructor
  · intro h
    unfold height? at h
    split at h
    · exact .inr ⟨_, _, .inl rfl, h, rfl⟩
    · exact .inr ⟨_, _, .inr rfl, h, rfl⟩
    · exact .inl h
  · rintro (h | ⟨mark, rest, hm, h, rfl⟩)
    · unfold height?
      split
      · rw [read?_ten_marked (.inl rfl)] at h
        cases h
      · rw [read?_ten_marked (.inr rfl)] at h
        cases h
      · exact h
    · rcases hm with rfl | rfl <;> exact h

/-- The first letter of a tag is neither a decimal digit nor a sign. -/
theorem height?_of_letter {c : Char} (hc : c.toLower = 'e' ∨ c.toLower = 'l' ∨ c.toLower = 'p')
    (cs : List Char) : height? (c :: cs) = none := by
  have hdigit : Numeral.digit? 10 c = none := by
    rw [← Text.Numeral.digit?_toLower]
    rcases hc with h | h | h <;> rw [h] <;> rfl
  have hzero : c ≠ '0' := by
    rintro rfl
    revert hc
    decide
  have hplus : c ≠ '+' := by
    rintro rfl
    revert hc
    decide
  have hunsigned : Text.Numeral.unsigned (c :: cs) = c :: cs := by
    unfold Text.Numeral.unsigned
    split
    · rename_i he
      exact absurd (List.cons.inj he).1 hplus
    · rfl
  have hdigits : Numeral.digits? 10 0 (c :: cs) = none := by
    rw [Numeral.digits?, hdigit]
    rfl
  have hread : Numeral.read? 10 (c :: cs) = none := by
    simp [Numeral.read?, hunsigned, hdigits]
  unfold height?
  split
  · rename_i he
    exact absurd (List.cons.inj he).1 hzero
  · rename_i he
    exact absurd (List.cons.inj he).1 hzero
  · exact hread

/-- No text of a height spells a tag. -/
theorem tag_of_height (h : height? cs = some n) : BlockTag.read? cs = none := by
  cases ht : BlockTag.read? cs with
  | none => rfl
  | some t =>
    have hname := BlockTag.read?_eq_some.mp ht
    have hletter : ∀ t : BlockTag, ∃ l rest, t.name.toList = l :: rest ∧
        (l = 'e' ∨ l = 'l' ∨ l = 'p') := by
      intro t
      cases t <;> exact ⟨_, _, rfl, by decide⟩
    obtain ⟨l, rest, hl, hmem⟩ := hletter t
    cases cs with
    | nil =>
      rw [hl] at hname
      cases hname
    | cons c cs =>
      rw [hl, List.map_cons, List.cons.injEq] at hname
      rw [height?_of_letter (hname.1 ▸ hmem)] at h
      cases h

theorem read?_of_height {s : String} (h : height? s.toList = some n) :
    read? s = some (.number n) := by
  simp only [read?, tag_of_height h, h, Option.map_some]

theorem read?_of_tag {s : String} {t : BlockTag} (h : s.toList.map Char.toLower = t.name.toList) :
    read? s = some (.tag t) := by
  simp only [read?, BlockTag.read?_eq_some.mpr h]

theorem ofJson_text {s : String} {b : BlockSpec} (h : read? s = some b) :
    ofJson (.text s) = .ok b := by
  simp only [ofJson, ofText, h]

theorem ofJson_ofWord (n : UInt64) : ofJson (.ofWord n) = .ok (.number n) := by
  show (Json.ofWord n).toWord.map BlockSpec.number = _
  rw [Json.toWord_ofWord]
  rfl

theorem ofJson_toJson (b : BlockSpec) : ofJson b.toJson = .ok b := by
  refine ofJson_text ?_
  cases b with
  | number n =>
    refine read?_of_height ?_
    rw [text, String.toList_ofList]
    have hdigits : Numeral.Writes 16 n.toNat (Nat.toDigits 16 n.toNat) :=
      Text.Numeral.writes_toDigits (by decide) (by decide) n.toNat
    exact height?_eq_some.mpr (.inr ⟨_, _, .inl rfl, hdigits, rfl⟩)
  | tag t =>
    refine read?_of_tag ?_
    cases t <;> decide

end BlockSpec

/-! ## What is written reads back -/

namespace Criteria

theorem wordsOfJson_ofList {size : Nat} (ws : List (Word size)) :
    wordsOfJson (.ofList Word.toJson ws) = .ok ws :=
  Json.toList_ofList ws fun w _ => Word.ofJson_toJson w

theorem topicsOfJson_ofList (slots : List (List Hash)) :
    topicsOfJson (.ofList (.ofList Word.toJson) slots) = .ok slots :=
  Json.toList_ofList slots fun slot _ => wordsOfJson_ofList slot

theorem toOption_toJson (b : BlockSpec) :
    Json.toOption BlockSpec.ofJson b.toJson = .ok (some b) :=
  congrArg (Except.map some) b.ofJson_toJson

theorem ofJson_toJson (c : Criteria) : ofJson c.toJson = .ok c := by
  obtain ⟨lower, upper, addresses, topics⟩ := c
  have haddresses := wordsOfJson_ofList addresses
  have htopics := topicsOfJson_ofList topics
  -- Each of the four members is written or left out.
  cases lower <;> cases upper <;> cases addresses <;> cases topics <;>
    simp_all [ofJson, toJson, ofMembers, Json.Members.field?_cons, toOption_toJson, Except.map,
      bind, Except.bind, pure, Except.pure]

end Criteria

/-! ## Spellings -/

/-- A member that is looked for, where an absent one counts as `absent`. -/
theorem Json.Members.getD_field? {α : Type} (m : Json.Members) (key : String) (absent : α)
    (decode : Json → Decoded α) : (·.getD absent) <$> m.field? key decode =
      (m.get? key).elim (.ok absent) decode := by
  unfold Json.Members.field?
  cases m.get? key with
  | none => rfl
  | some v =>
    show (·.getD absent) <$> (decode v).map some = decode v
    cases decode v <;> rfl

namespace Criteria

/-- One value for the array of it, and `null` for the array of none. -/
inductive WordsStep : Json → Json → Prop
  | one (s : String) : WordsStep (.text s) (.array [.text s])
  | none : WordsStep .null (.array [])

inductive EmittersStep : Option Json → Option Json → Prop
  | absent : EmittersStep none (some .null)
  | words {v v' : Json} (h : WordsStep v v') : EmittersStep (some v) (some v')

/-- Positions in other words, each of them any number of times. -/
inductive PositionsStep : Option Json → Option Json → Prop
  | absent : PositionsStep none (some .null)
  | null : PositionsStep (some .null) (some (.array []))
  | slots {vs vs' : List Json} (h : List.Forall₂ (Relation.EqvGen WordsStep) vs vs') :
    PositionsStep (some (.array vs)) (some (.array vs'))

/-- A bound in other words: a height as a number or as a text of it, in decimal or hexadecimal
digits; a tag in any letter case. -/
inductive BoundStep : Option Json → Option Json → Prop
  | absent : BoundStep none (some .null)
  | decimal {n : UInt64} {s : String} (h : Numeral.Writes 10 n.toNat s.toList) :
    BoundStep (some (.ofWord n)) (some (.text s))
  | hexadecimal {n : UInt64} {mark : Char} {cs : List Char} (hm : mark = 'x' ∨ mark = 'X')
    (h : Numeral.Writes 16 n.toNat cs) :
    BoundStep (some (.ofWord n)) (some (.text (String.ofList ('0' :: mark :: cs))))
  | tag {t : BlockTag} {s : String} (h : s.toList.map Char.toLower = t.name.toList) :
    BoundStep (some (.text t.name)) (some (.text s))

/-- Two objects whose members spell the same criteria, alternative by alternative. Where the members
stand, and which others are there, makes no difference. -/
structure Respelled (m m' : Json.Members) : Prop where
  emitters : Relation.EqvGen EmittersStep (m.get? "address") (m'.get? "address")
  lower : Relation.EqvGen BoundStep (m.get? "fromBlock") (m'.get? "fromBlock")
  upper : Relation.EqvGen BoundStep (m.get? "toBlock") (m'.get? "toBlock")
  positions : Relation.EqvGen PositionsStep (m.get? "topics") (m'.get? "topics")

variable {v v' : Option Json}

theorem wordsOfJson_of_step {size : Nat} {v v' : Json} (h : WordsStep v v') :
    (wordsOfJson v : Decoded (List (Word size))) = wordsOfJson v' := by
  cases h with
  | one s => simp [wordsOfJson]
  | none => rfl

/-- What one alternative leaves as it is, any number of them does. -/
theorem eq_of_eqvGen {α β : Type} {r : α → α → Prop} {f : α → β} (hf : ∀ a b, r a b → f a = f b)
    {a b : α} (h : Relation.EqvGen r a b) : f a = f b :=
  Setoid.eqvGen_le (s := Setoid.ker f) hf h

theorem mapM_wordsOfJson {vs vs' : List Json}
    (h : List.Forall₂ (Relation.EqvGen WordsStep) vs vs') :
    (vs.mapM wordsOfJson : Decoded (List (List Hash))) = vs'.mapM wordsOfJson := by
  induction h with
  | nil => rfl
  | cons h _ ih =>
    rw [List.mapM_cons, List.mapM_cons, ih, eq_of_eqvGen (@wordsOfJson_of_step _) h]

theorem emitters_of_step (h : EmittersStep v v') :
    (v.elim (.ok []) wordsOfJson : Decoded (List Address)) = v'.elim (.ok []) wordsOfJson := by
  cases h with
  | absent => rfl
  | words h => exact wordsOfJson_of_step h

theorem positions_of_step (h : PositionsStep v v') :
    v.elim (.ok []) topicsOfJson = v'.elim (.ok []) topicsOfJson := by
  cases h with
  | absent => rfl
  | null => rfl
  | slots h => exact mapM_wordsOfJson h

theorem bound_of_step (h : BoundStep v v') :
    v.elim (.ok none) (Json.toOption BlockSpec.ofJson) =
      v'.elim (.ok none) (Json.toOption BlockSpec.ofJson) := by
  have hnumber (n : UInt64) : Json.toOption BlockSpec.ofJson (.ofWord n) = .ok (some (.number n)) :=
    congrArg (Except.map some) (BlockSpec.ofJson_ofWord n)
  have htext {s : String} {b : BlockSpec} (h : BlockSpec.read? s = some b) :
      Json.toOption BlockSpec.ofJson (.text s) = .ok (some b) :=
    congrArg (Except.map some) (BlockSpec.ofJson_text h)
  cases h with
  | absent => rfl
  | @decimal n s h =>
    have hheight := BlockSpec.height?_eq_some.mpr (.inl h)
    exact (hnumber n).trans (htext (BlockSpec.read?_of_height hheight)).symm
  | @hexadecimal n mark cs hm h =>
    have hheight := BlockSpec.height?_eq_some.mpr (.inr ⟨_, _, hm, h, rfl⟩)
    rw [← String.toList_ofList (l := '0' :: mark :: cs)] at hheight
    exact (hnumber n).trans (htext (BlockSpec.read?_of_height hheight)).symm
  | @tag t s h =>
    exact (toOption_toJson (.tag t)).trans (htext (BlockSpec.read?_of_tag h)).symm

/-- An object is read by its four members, each of which may be absent. -/
theorem ofMembers_eq (m : Json.Members) : ofMembers m = do
    let addresses ← (m.get? "address").elim (.ok []) wordsOfJson
    let lower ← (m.get? "fromBlock").elim (.ok none) (Json.toOption BlockSpec.ofJson)
    let upper ← (m.get? "toBlock").elim (.ok none) (Json.toOption BlockSpec.ofJson)
    let topics ← (m.get? "topics").elim (.ok []) topicsOfJson
    return { fromBlock := lower, toBlock := upper, addresses, topics } := by
  simp only [← Json.Members.getD_field?, bind_map_left, ofMembers]

/-- Objects that differ in spelling read alike. -/
theorem ofMembers_of_respelled {m m' : Json.Members} (h : Respelled m m') :
    ofMembers m = ofMembers m' := by
  have hemitters := eq_of_eqvGen (@emitters_of_step) h.emitters
  have hlower := eq_of_eqvGen (@bound_of_step) h.lower
  have hupper := eq_of_eqvGen (@bound_of_step) h.upper
  have hpositions := eq_of_eqvGen (@positions_of_step) h.positions
  rw [ofMembers_eq, ofMembers_eq, hemitters, hlower, hupper, hpositions]

theorem toJson_inj {c c' : Criteria} : c.toJson = c'.toJson ↔ c = c' := by
  constructor
  · intro h
    have hread : (Except.ok c : Decoded Criteria) = .ok c' := by
      rw [← ofJson_toJson c, ← ofJson_toJson c', h]
    exact Except.ok.inj hread
  · rintro rfl
    rfl

/--
**Criteria have one written form.** What is written for criteria reads back as the same criteria,
and objects that spell the same criteria in different words read alike. So two values that are
accepted are read as equal criteria exactly if they are written again as the same value, and then
they want the same logs.
-/
theorem criteria_canonical :
    (∀ c : Criteria, ofJson c.toJson = .ok c) ∧
    (∀ m m' : Json.Members, Respelled m m' → ofJson (.object m) = ofJson (.object m')) ∧
    ∀ (v v' : Json) (c c' : Criteria), ofJson v = .ok c → ofJson v' = .ok c' →
      (ofJson v = ofJson v' ↔ c.toJson = c'.toJson) ∧
      (c.toJson = c'.toJson → ∀ logs, c.filterLogs logs = c'.filterLogs logs) := by
  refine ⟨ofJson_toJson, fun m m' h => ofMembers_of_respelled h, fun v v' c c' hv hv' => ⟨?_, ?_⟩⟩
  · rw [hv, hv', toJson_inj, Except.ok.injEq]
  · intro h logs
    rw [toJson_inj.mp h]

/-- Emitters as one text, a height in capital digits, a tag in capitals and positions that are no arrays
read as the arrays, the number and the name do, and as what is written for the criteria. -/
theorem criteria_canonical_respelled :
    let a : Address := .ofNat 20 10
    let h : Hash := .ofNat 32 1
    let c : Criteria := ⟨some (.number 255), some (.tag .latest), [a], [[], [h]]⟩
    let m : Json.Members := [("address", a.toJson), ("fromBlock", .text "0xFf"),
      ("toBlock", .text "LATEST"), ("topics", .array [.null, h.toJson])]
    let m' : Json.Members := [("address", .array [a.toJson]), ("fromBlock", .ofWord 255),
      ("toBlock", .text "latest"), ("topics", .array [.array [], .array [h.toJson]])]
    ofJson (.object m) = .ok c ∧ ofJson (.object m) = ofJson (.object m') ∧
      ofJson (.object m') = ofJson c.toJson := by
  intro a h c m m'
  have hdigits : Numeral.Writes 16 (255 : UInt64).toNat ['F', 'f'] := ⟨0, by decide⟩
  have hlower : BoundStep (some (.ofWord 255)) (some (.text "0xFf")) :=
    .hexadecimal (.inl rfl : 'x' = 'x' ∨ 'x' = 'X') hdigits
  have hupper : BoundStep (some (.text "latest")) (some (.text "LATEST")) :=
    .tag (t := .latest) (by decide)
  have hslot : WordsStep h.toJson (.array [h.toJson]) := .one h.text
  have hrespelled : Respelled m m' :=
    { emitters := .rel _ _ (.words (.one a.text))
      lower := .symm _ _ (.rel _ _ hlower)
      upper := .symm _ _ (.rel _ _ hupper)
      positions := .rel _ _ (.slots (.cons (.rel _ _ .none) (.cons (.rel _ _ hslot) .nil))) }
  have hread : ofJson (.object m) = .ok c := by decide +kernel
  have halike := criteria_canonical.2.1 m m' hrespelled
  have hread' : ofJson (.object m') = .ok c := halike ▸ hread
  have hcanonical := criteria_canonical.2.2 _ _ c c hread' (criteria_canonical.1 c)
  exact ⟨hread, halike, hcanonical.1.mpr rfl⟩

end Criteria

end EventFanout
