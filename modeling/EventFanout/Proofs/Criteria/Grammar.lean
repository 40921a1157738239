/-
EventFanout.Proofs.Criteria.Grammar — the texts of a bound, and what becomes of all others.

A bound is spelled by the name of a tag in any letter case, or by digits: decimal ones, or
hexadecimal ones after `0x` or `0X`, in either case with at most one plus sign before them
(`BlockSpec.Spells`). A run of digits is one or more of them, and its number is that of the values
of its characters in the base, so zeros at the front add nothing (`Numeral.Run`).

The names of tags are looked for after folding letter case, and the characters of a text need not be
ASCII. What else the lower case of a character may be is said by `LowersTo`; it makes no
difference, since no such character has a letter of these names for its lower case
(`flatten_eq_iff`).

Main statement: `ofText_grammar`. A text is read as a bound exactly if it spells the bound, each
other text is refused by name, and what is written for a bound is read back.
-/
import EventFanout.Proofs.Criteria.Spelling
import Mathlib.Data.Nat.Digits.Defs

namespace EventFanout

/-! ## Runs of digits -/

namespace Text.Numeral

variable {base n : Nat} {cs : List Char}

/-- The characters are one or more digits of a base in either letter case, from the highest on, and
`n` is their number. -/
def Run (base n : Nat) (cs : List Char) : Prop :=
  ∃ values : List Nat, values ≠ [] ∧ (∀ v ∈ values, v < base) ∧
    cs.map Char.toLower = values.map Nat.digitChar ∧ Nat.ofDigits base values.reverse = n

/-- A run of digits with at most one plus sign before it. -/
def SignedRun (base n : Nat) (cs : List Char) : Prop :=
  ∃ sign digits, (sign = [] ∨ sign = ['+']) ∧ Run base n digits ∧ cs = sign ++ digits

theorem digit?_eq_some (hb : base ≤ 16) {c : Char} {v : Nat} :
    digit? base c = some v ↔ v < base ∧ c.toLower = Nat.digitChar v := by
  constructor
  · intro h
    obtain ⟨hvalue, hlt⟩ := Option.filter_eq_some_iff.mp h
    exact ⟨of_decide_eq_true hlt, Hex.toLower_of_value? hvalue⟩
  · rintro ⟨hlt, hc⟩
    rw [← digit?_toLower, hc, digit?_digitChar hb hlt]

theorem digits?_concat {m : Nat} {c : Char} : digits? base m (cs ++ [c]) = some n ↔
    ∃ high v, digits? base m cs = some high ∧ digit? base c = some v ∧ base * high + v = n := by
  rw [digits?_append, Option.bind_eq_some_iff]
  constructor
  · rintro ⟨high, hhigh, h⟩
    obtain ⟨v, hv, h⟩ := Option.bind_eq_some_iff.mp h
    exact ⟨high, v, hhigh, hv, Option.some.inj h⟩
  · rintro ⟨high, v, hhigh, hv, rfl⟩
    exact ⟨high, hhigh, Option.bind_eq_some_iff.mpr ⟨v, hv, rfl⟩⟩

/-- Digits are read as the number that their values are the digits of. -/
theorem digits?_eq_some_iff (hb : base ≤ 16) : digits? base 0 cs = some n ↔
    ∃ values : List Nat, (∀ v ∈ values, v < base) ∧
      cs.map Char.toLower = values.map Nat.digitChar ∧ Nat.ofDigits base values.reverse = n := by
  -- from the end: the last digit is the one that is not multiplied by the base
  induction cs using List.reverseRecOn generalizing n with
  | nil =>
    constructor
    · rintro ⟨⟩
      exact ⟨[], by simp, rfl, rfl⟩
    · rintro ⟨values, -, hmap, rfl⟩
      rw [List.map_eq_nil_iff.mp hmap.symm]
      rfl
  | append_singleton cs c ih =>
    rw [digits?_concat]
    constructor
    · rintro ⟨high, v, hhigh, hv, rfl⟩
      obtain ⟨values, hlt, hmap, rfl⟩ := ih.mp hhigh
      obtain ⟨hv, hc⟩ := (digit?_eq_some hb).mp hv
      refine ⟨values ++ [v], ?_, by simp [hmap, hc], ?_⟩
      · intro u hu
        rcases List.mem_append.mp hu with hu | hu
        · exact hlt u hu
        · exact List.mem_singleton.mp hu ▸ hv
      · rw [List.reverse_concat, Nat.ofDigits_cons]
        exact Nat.add_comm _ _
    · rintro ⟨values, hlt, hmap, rfl⟩
      rcases values.eq_nil_or_concat with rfl | ⟨high, v, rfl⟩
      · simp at hmap
      · rw [List.concat_eq_append] at hlt hmap ⊢
        simp only [List.map_append, List.map_singleton] at hmap
        obtain ⟨hhigh, hlast⟩ := List.append_inj' hmap rfl
        have hv : digit? base c = some v := (digit?_eq_some hb).mpr
          ⟨hlt v (by simp), List.singleton_inj.mp hlast⟩
        refine ⟨_, v, ih.mpr ⟨high, fun u hu => hlt u (by simp [hu]), hhigh, rfl⟩, hv, ?_⟩
        rw [List.reverse_concat, Nat.ofDigits_cons]
        exact Nat.add_comm _ _

theorem run_iff (hb : base ≤ 16) : Run base n cs ↔ cs ≠ [] ∧ digits? base 0 cs = some n := by
  rw [digits?_eq_some_iff hb]
  constructor
  · rintro ⟨values, hsome, hlt, hmap, hn⟩
    refine ⟨?_, values, hlt, hmap, hn⟩
    rintro rfl
    exact hsome (List.map_eq_nil_iff.mp hmap.symm)
  · rintro ⟨hsome, values, hlt, hmap, hn⟩
    refine ⟨values, ?_, hlt, hmap, hn⟩
    rintro rfl
    exact hsome (List.map_eq_nil_iff.mp hmap)

/-- The plus sign is no digit. -/
theorem unsigned_of_run (hb : base ≤ 16) (h : Run base n cs) : unsigned cs = cs := by
  unfold unsigned
  split
  · rename_i rest
    have hplus : digit? base '+' = none := rfl
    have hdigits := ((run_iff hb).mp h).2
    rw [digits?, hplus] at hdigits
    cases hdigits
  · rfl

/-- Dropping one plus sign leaves the digits of a signed run. -/
theorem signedRun_iff (hb : base ≤ 16) : SignedRun base n cs ↔ Run base n (unsigned cs) := by
  constructor
  · rintro ⟨sign, digits, rfl | rfl, h, rfl⟩
    · exact (unsigned_of_run hb h).symm ▸ h
    · exact h
  · intro h
    unfold unsigned at h
    split at h
    · exact ⟨_, _, .inr rfl, h, rfl⟩
    · exact ⟨[], _, .inl rfl, h, rfl⟩

/-- The texts that are read as a number below 2^64 are the signed runs of its digits. -/
theorem read?_iff (hb : base ≤ 16) {n : UInt64} :
    read? base cs = some n ↔ SignedRun base n.toNat cs := by
  rw [signedRun_iff hb, run_iff hb]
  unfold read?
  by_cases hempty : unsigned cs = []
  · simp [hempty]
  · have hfits (value : Nat) : (value < UInt64.size ∧ UInt64.ofNat value = n) ↔
        value = n.toNat := by
      constructor
      · rintro ⟨hlt, rfl⟩
        exact (UInt64.toNat_ofNat_of_lt' hlt).symm
      · rintro rfl
        exact ⟨n.toNat_lt_size, UInt64.ofNat_toNat⟩
    simp [hempty, Option.bind_eq_some_iff, hfits]

end Text.Numeral

/-! ## Letter case -/

/-- What the lower case of a character may be. An ASCII character is folded by itself; the Kelvin
sign becomes a `k`; what any other becomes has some character that is not ASCII. -/
inductive LowersTo : Char → List Char → Prop
  | ascii {c : Char} (h : c.toNat < 128) : LowersTo c [c.toLower]
  | kelvin : LowersTo '\u212A' ['k']
  | other {c : Char} {cs : List Char} (h : 128 ≤ c.toNat) (h' : ∃ d ∈ cs, 128 ≤ d.toNat) :
    LowersTo c cs

namespace LowersTo

variable {cs : List Char} {ws : List (List Char)}

theorem flatten_of_ascii (h : List.Forall₂ LowersTo cs ws) (hcs : ∀ c ∈ cs, c.toNat < 128) :
    ws.flatten = cs.map Char.toLower := by
  induction h with
  | nil => rfl
  | @cons c w cs ws hc _ ih =>
    rw [List.forall_mem_cons] at hcs
    rw [List.flatten_cons, List.map_cons, ih hcs.2]
    cases hc with
    | ascii h => rfl
    | kelvin => exact absurd hcs.1 (by decide)
    | other h h' => exact absurd hcs.1 (Nat.not_lt.mpr h)

/-- A character that is not ASCII leaves a trace. -/
theorem exists_of_other (h : List.Forall₂ LowersTo cs ws) {c : Char} (hc : c ∈ cs)
    (hother : 128 ≤ c.toNat) : ∃ d ∈ ws.flatten, d = 'k' ∨ 128 ≤ d.toNat := by
  induction h with
  | nil => cases hc
  | @cons c' w cs ws hw _ ih =>
    rcases List.mem_cons.mp hc with rfl | hc
    · cases hw with
      | ascii h => exact absurd h (Nat.not_lt.mpr hother)
      | kelvin => exact ⟨'k', by simp, .inl rfl⟩
      | other h h' =>
        obtain ⟨d, hd, hd'⟩ := h'
        exact ⟨d, by simp [hd], .inr hd'⟩
    · obtain ⟨d, hd, hd'⟩ := ih hc
      exact ⟨d, by simp [hd], hd'⟩

theorem toLower_of_other {c : Char} (h : 128 ≤ c.toNat) : c.toLower = c := by
  refine Char.toNat_inj.mp ?_
  rw [Text.toNat_toLower, if_neg]
  rintro ⟨-, hle⟩
  exact absurd (h.trans hle) (by decide)

/-- For a name in ASCII without a `k`, folding the letters of ASCII is enough. -/
theorem flatten_eq_iff (h : List.Forall₂ LowersTo cs ws) {name : List Char}
    (hname : ∀ c ∈ name, c ≠ 'k' ∧ c.toNat < 128) :
    ws.flatten = name ↔ cs.map Char.toLower = name := by
  by_cases hcs : ∀ c ∈ cs, c.toNat < 128
  · rw [flatten_of_ascii h hcs]
  · push Not at hcs
    obtain ⟨c, hc, hother⟩ := hcs
    constructor
    · rintro rfl
      obtain ⟨d, hd, rfl | hd'⟩ := exists_of_other h hc hother
      · exact absurd rfl (hname _ hd).1
      · exact absurd (hname d hd).2 (Nat.not_lt.mpr hd')
    · rintro rfl
      have hmem : c ∈ cs.map Char.toLower := List.mem_map.mpr ⟨c, hc, toLower_of_other hother⟩
      exact absurd (hname c hmem).2 (Nat.not_lt.mpr hother)

end LowersTo

/-- The names of the tags are ASCII without a `k`. -/
theorem BlockTag.name_ascii (t : BlockTag) : ∀ c ∈ t.name.toList, c ≠ 'k' ∧ c.toNat < 128 := by
  cases t <;> simp [BlockTag.name]

/-! ## Texts of a bound -/

namespace BlockSpec

open Text.Numeral (SignedRun)

inductive Spells : BlockSpec → List Char → Prop
  | tag {t : BlockTag} {cs : List Char} (h : cs.map Char.toLower = t.name.toList) :
    Spells (.tag t) cs
  | decimal {n : UInt64} {cs : List Char} (h : SignedRun 10 n.toNat cs) : Spells (.number n) cs
  | hexadecimal {n : UInt64} {mark : Char} {cs : List Char} (hm : mark = 'x' ∨ mark = 'X')
    (h : SignedRun 16 n.toNat cs) : Spells (.number n) ('0' :: mark :: cs)

theorem height?_iff {cs : List Char} {n : UInt64} : height? cs = some n ↔
    SignedRun 10 n.toNat cs ∨
      ∃ mark rest, (mark = 'x' ∨ mark = 'X') ∧ SignedRun 16 n.toNat rest ∧
        cs = '0' :: mark :: rest := by
  rw [height?_eq_some]
  simp only [← Text.Numeral.read?_eq_some (show 1 < 10 by decide) (show 10 ≤ 16 by decide),
    ← Text.Numeral.read?_eq_some (show 1 < 16 by decide) (show 16 ≤ 16 by decide),
    Text.Numeral.read?_iff (show 10 ≤ 16 by decide),
    Text.Numeral.read?_iff (show 16 ≤ 16 by decide)]

theorem spells_tag_iff {cs : List Char} {t : BlockTag} :
    Spells (.tag t) cs ↔ cs.map Char.toLower = t.name.toList := by
  constructor
  · rintro ⟨h⟩
    exact h
  · exact .tag

theorem spells_number_iff {cs : List Char} {n : UInt64} :
    Spells (.number n) cs ↔ height? cs = some n := by
  rw [height?_iff]
  constructor
  · rintro (_ | h | ⟨hm, h⟩)
    · exact .inl h
    · exact .inr ⟨_, _, hm, h, rfl⟩
  · rintro (h | ⟨mark, rest, hm, h, rfl⟩)
    · exact .decimal h
    · exact .hexadecimal hm h

theorem read?_eq_some_iff {s : String} {b : BlockSpec} :
    read? s = some b ↔ Spells b s.toList := by
  constructor
  · intro h
    unfold read? at h
    split at h
    · rename_i t ht
      cases h
      exact spells_tag_iff.mpr (BlockTag.read?_eq_some.mp ht)
    · obtain ⟨n, hn, rfl⟩ := Option.map_eq_some_iff.mp h
      exact spells_number_iff.mpr hn
  · intro h
    cases b with
    | number n => exact read?_of_height (spells_number_iff.mp h)
    | tag t => exact read?_of_tag (spells_tag_iff.mp h)

theorem ofText_eq_ok_iff {s : String} {b : BlockSpec} : ofText s = .ok b ↔ Spells b s.toList := by
  rw [← read?_eq_some_iff, ofText]
  cases read? s <;> simp

/-- A text is refused just when it spells no bound, and the fault names it. -/
theorem ofText_eq_error_iff {s : String} {fault : Fault} :
    ofText s = .error fault ↔ (∀ b, ¬ Spells b s.toList) ∧ fault = .blockNumber s := by
  simp only [← read?_eq_some_iff, ofText]
  cases read? s <;> simp [eq_comm]

theorem spells_text (b : BlockSpec) : Spells b b.text.toList := ofText_eq_ok_iff.mp b.ofJson_toJson

/--
**The texts of a bound.** A text is read as a tag exactly if it is the name of the tag up to letter
case, and then the lower case of the text in any alphabet is that name; it is read as a height
exactly if it is `0x` or `0X`, at most one plus sign and one or more hexadecimal digits of the
height, or at most one plus sign and one or more decimal digits of it. Every other text is refused,
and the words of the refusal end in the text as it is. What is written for a bound reads as the
bound.
-/
theorem ofText_grammar :
    (∀ (s : String) (t : BlockTag),
      ofText s = .ok (.tag t) ↔ s.toList.map Char.toLower = t.name.toList) ∧
    (∀ (s : String) (t : BlockTag) (ws : List (List Char)), List.Forall₂ LowersTo s.toList ws →
      (ofText s = .ok (.tag t) ↔ ws.flatten = t.name.toList)) ∧
    (∀ (s : String) (n : UInt64), ofText s = .ok (.number n) ↔
      (∃ mark rest, (mark = 'x' ∨ mark = 'X') ∧ SignedRun 16 n.toNat rest ∧
        s.toList = '0' :: mark :: rest) ∨ SignedRun 10 n.toNat s.toList) ∧
    (∀ (s : String) (fault : Fault), ofText s = .error fault ↔
      (∀ b, ¬ Spells b s.toList) ∧ fault = .blockNumber s) ∧
    (∀ s : String, (Fault.blockNumber s).message? = some ("invalid block number: " ++ s)) ∧
    ∀ b : BlockSpec, ofText b.text = .ok b := by
  have htag (s : String) (t : BlockTag) :
      ofText s = .ok (.tag t) ↔ s.toList.map Char.toLower = t.name.toList := by
    rw [ofText_eq_ok_iff, spells_tag_iff]
  refine ⟨htag, ?folded, ?number, fun _ _ => ofText_eq_error_iff, fun _ => rfl,
    fun b => ofText_eq_ok_iff.mpr b.spells_text⟩
  case folded =>
    intro s t ws hws
    rw [htag, LowersTo.flatten_eq_iff hws t.name_ascii]
  case number =>
    intro s n
    rw [ofText_eq_ok_iff, spells_number_iff, height?_iff, or_comm]

/-- A capital mark, a sign and zeros before the digits; a tag in two cases; and a sign before the
mark, which no bound has. -/
theorem ofText_grammar_marked :
    ofText "0X+00fF" = .ok (.number 255) ∧
    List.Forall₂ LowersTo "LaTesT".toList ("LaTesT".toList.map fun c => [c.toLower]) ∧
    ofText "LaTesT" = .ok (.tag .latest) ∧
    (∀ b, ¬ Spells b "+0x1".toList) ∧
    (Fault.blockNumber "+0x1").message? = some "invalid block number: +0x1" ∧
    ofText (text (.number 255)) = .ok (.number 255) := by
  obtain ⟨-, hfolded, hnumber, hrefused, hwords, hwritten⟩ := ofText_grammar
  have hdigits : SignedRun 16 (255 : UInt64).toNat "+00fF".toList :=
    ⟨['+'], "00fF".toList, .inr rfl, ⟨[0, 0, 15, 15], by decide⟩, rfl⟩
  have hlower : List.Forall₂ LowersTo "LaTesT".toList
      ("LaTesT".toList.map fun c => [c.toLower]) := by
    have hascii : ∀ c ∈ "LaTesT".toList, c.toNat < 128 := by simp
    exact List.forall₂_map_right_iff.mpr (List.forall₂_same.mpr fun c hc => .ascii (hascii c hc))
  exact ⟨(hnumber _ _).mpr (.inl ⟨'X', _, .inr rfl, hdigits, rfl⟩), hlower,
    (hfolded _ .latest _ hlower).mpr (by decide), ((hrefused "+0x1" _).mp rfl).1, hwords "+0x1",
    hwritten (.number 255)⟩

end BlockSpec

end EventFanout
