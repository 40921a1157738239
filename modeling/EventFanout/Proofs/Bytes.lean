/-
EventFanout.Proofs.Bytes — which texts write a byte payload, and which payload each one writes.

A payload has many texts: each of its digits may be in either case, and the mark before them may be
left out. Main statement: those are all the texts there are (`text_exact`). A text is read exactly
when what follows its mark is an even number of digits; two digits make one byte, in order; and a
payload that was read is written with the digits it was read from, in lower case.

The mark is taken off once. So a doubled mark, an upper-case one, a blank or a sign is left among
the characters that have to be digits, and is refused there.

## How the proof goes

Reading does not see the case of a digit (`decode_map_toLower`), and what is written reads back
(`decode_encode`). So the characters that read as given bytes are those whose lower case is how the
bytes are written (`decode_eq_some`), and everything about two texts of one payload is about their
lower cases. Which characters can be read at all is an induction over pairs, as reading is.
-/
import EventFanout.Chain.Bytes
import EventFanout.Proofs.Criteria.Numeral
import Mathlib.Algebra.Group.Nat.Even

namespace EventFanout.Text.Hex

variable {c : Char} {cs : List Char} {bytes : List UInt8}

def IsDigit (c : Char) : Prop := c ∈ "0123456789abcdefABCDEF".toList

instance : DecidablePred IsDigit := fun _ => List.instDecidableMemOfLawfulBEq _ _

/-- The value of a digit: the place of its lower case among the sixteen digits. -/
def worth (c : Char) : Nat := "0123456789abcdef".toList.idxOf c.toLower

/-- The characters that have a value are the digits, and the value is the one of the digit. -/
theorem value?_eq_some {d : Nat} : value? c = some d ↔ IsDigit c ∧ worth c = d := by
  have hlow : ∀ k, k < 128 → value? (Char.ofNat k) =
      if IsDigit (Char.ofNat k) then some (worth (Char.ofNat k)) else none := by decide +kernel
  have hdigit : ("0123456789abcdefABCDEF".toList.all fun c => c.toNat < 128) = true := by decide
  by_cases hc : c.toNat < 128
  · have h := hlow c.toNat hc
    rw [Char.ofNat_toNat] at h
    rw [h, Option.ite_none_right_eq_some, Option.some_inj]
  · constructor
    · intro h
      exact absurd (toNat_lt_of_value? h) hc
    · rintro ⟨h, -⟩
      exact absurd (of_decide_eq_true (List.all_eq_true.mp hdigit c h)) hc

theorem decode_map_toLower (cs : List Char) : decode (cs.map Char.toLower) = decode cs := by
  induction cs using decode.induct with
  | case1 => rfl
  | case2 => rfl
  | case3 high low rest ih =>
    simp only [List.map_cons, decode, value?_toLower, ih]

theorem digit_eq_digitChar : ∀ d, d < 16 → digit d = Nat.digitChar d := by decide

/-- The digits of the byte that two digits make. -/
theorem ofByte_of_values {h l : Nat} (hh : h < 16) (hl : l < 16) :
    ofByte (UInt8.ofNat (16 * h + l)) = [Nat.digitChar h, Nat.digitChar l] := by
  have hbyte : (UInt8.ofNat (16 * h + l)).toNat = 16 * h + l := by
    rw [UInt8.toNat_ofNat']
    omega
  rw [ofByte, hbyte, show (16 * h + l) / 16 = h by omega, show (16 * h + l) % 16 = l by omega,
    digit_eq_digitChar h hh, digit_eq_digitChar l hl]

/-- Two digits and the rest are read exactly when each part is. -/
theorem decode_cons_cons {high low : Char} :
    decode (high :: low :: cs) = some bytes ↔ ∃ h l rest, value? high = some h ∧
      value? low = some l ∧ decode cs = some rest ∧ bytes = UInt8.ofNat (16 * h + l) :: rest := by
  simp only [decode, Option.bind_eq_bind, Option.bind_eq_some_iff, Option.pure_def,
    Option.some_inj]
  grind

/-- Characters read as the bytes whose digits are their lower case. -/
theorem decode_eq_some : decode cs = some bytes ↔ cs.map Char.toLower = encode bytes := by
  constructor
  · intro h
    induction cs using decode.induct generalizing bytes with
    | case1 => cases h; rfl
    | case2 => cases h
    | case3 high low cs ih =>
      obtain ⟨h, l, rest, hh, hl, hrest, rfl⟩ := decode_cons_cons.mp h
      have hpair := ofByte_of_values (value?_lt hh) (value?_lt hl)
      rw [encode, List.flatMap_cons, hpair, List.map_cons, List.map_cons, toLower_of_value? hh,
        toLower_of_value? hl, ih hrest]
      rfl
  · intro h
    rw [← decode_map_toLower, h, decode_encode]

/-- What can be read is an even number of digits. -/
theorem exists_decode : (∃ bytes, decode cs = some bytes) ↔
    Even cs.length ∧ ∀ c ∈ cs, IsDigit c := by
  induction cs using decode.induct with
  | case1 => simp [decode]
  | case2 => simp [decode]
  | case3 high low cs ih =>
    have heven : Even (high :: low :: cs).length ↔ Even cs.length := by
      simp [Nat.even_add_one]
    rw [heven, List.forall_mem_cons, List.forall_mem_cons]
    constructor
    · rintro ⟨bytes, h⟩
      obtain ⟨h, l, rest, hh, hl, hrest, -⟩ := decode_cons_cons.mp h
      obtain ⟨hlength, hdigits⟩ := ih.mp ⟨rest, hrest⟩
      exact ⟨hlength, (value?_eq_some.mp hh).1, (value?_eq_some.mp hl).1, hdigits⟩
    · rintro ⟨hlength, hh, hl, hdigits⟩
      obtain ⟨rest, hrest⟩ := ih.mpr ⟨hlength, hdigits⟩
      exact ⟨_, decode_cons_cons.mpr ⟨worth high, worth low, rest, value?_eq_some.mpr ⟨hh, rfl⟩,
        value?_eq_some.mpr ⟨hl, rfl⟩, hrest, rfl⟩⟩

/-- Each byte has the values of its two digits. -/
theorem decode_getElem? (h : decode cs = some bytes) {i : Nat} {byte : UInt8}
    (hi : bytes[i]? = some byte) : ∃ high low, cs[2 * i]? = some high ∧
      cs[2 * i + 1]? = some low ∧ byte.toNat = 16 * worth high + worth low := by
  induction cs using decode.induct generalizing bytes i with
  | case1 => cases h; cases hi
  | case2 => cases h
  | case3 high low cs ih =>
    obtain ⟨h, l, rest, hh, hl, hrest, rfl⟩ := decode_cons_cons.mp h
    cases i with
    | zero =>
      cases hi
      refine ⟨high, low, rfl, rfl, ?_⟩
      have hh16 := value?_lt hh
      have hl16 := value?_lt hl
      rw [(value?_eq_some.mp hh).2, (value?_eq_some.mp hl).2, UInt8.toNat_ofNat']
      omega
    | succ i => exact ih hrest hi

/-- One mark is taken off, where there is one. -/
theorem unmarked_cases (cs : List Char) :
    cs = '0' :: 'x' :: unmarked cs ∨ ¬ "0x".toList <+: cs ∧ cs = unmarked cs := by
  fun_cases unmarked cs with
  | case1 rest => exact .inl rfl
  | case2 cs hcs =>
    refine .inr ⟨?_, rfl⟩
    rintro ⟨rest, rfl⟩
    exact hcs rest rfl

end EventFanout.Text.Hex

namespace EventFanout.Bytes

open Text.Hex

/-- What is left of a text when at most one leading lower-case `0x` is taken off. -/
def digits (s : String) : List Char := unmarked s.toList

theorem ofJson_text_eq_ok {s : String} {b : Bytes} :
    ofJson (.text s) = .ok b ↔ decode (digits s) = some b.data := by
  obtain ⟨data⟩ := b
  cases hdecode : decode (digits s) with
  | none => simp [ofJson, read?, show decode (unmarked s.toList) = _ from hdecode]
  | some bytes => simp [ofJson, read?, show decode (unmarked s.toList) = _ from hdecode]

theorem ofJson_text_eq_error {s : String} :
    ofJson (.text s) = .error .hexBytes ↔ ¬ ∃ b, ofJson (.text s) = .ok b := by
  cases hread : read? s with
  | none => simp [ofJson, hread]
  | some b => simp [ofJson, hread]

/-- **The text of a byte payload is exact.** A text is read exactly when its digits are an even
number of hexadecimal digits of either case, and is refused as no bytes otherwise. A payload that is
read has half as many bytes as there are digits, each with the values of its two digits; it is
written as `0x` and its digits in lower case; and a second text is read as the same payload exactly
when it has the same digits in lower case. -/
theorem text_exact (s : String) :
    (s.toList = '0' :: 'x' :: digits s ∨ ¬ "0x".toList <+: s.toList ∧ s.toList = digits s) ∧
    ((∃ b, ofJson (.text s) = .ok b) ↔ Even (digits s).length ∧ ∀ c ∈ digits s, IsDigit c) ∧
    (ofJson (.text s) = .error .hexBytes ↔
      ¬ (Even (digits s).length ∧ ∀ c ∈ digits s, IsDigit c)) ∧
    ∀ b, ofJson (.text s) = .ok b →
      (digits s).length = 2 * b.size ∧
      (∀ i byte, b.data[i]? = some byte → ∃ high low, (digits s)[2 * i]? = some high ∧
        (digits s)[2 * i + 1]? = some low ∧ byte.toNat = 16 * worth high + worth low) ∧
      b.toJson = .text (String.ofList ('0' :: 'x' :: (digits s).map Char.toLower)) ∧
      ∀ s' b', ofJson (.text s') = .ok b' →
        (b' = b ↔ (digits s').map Char.toLower = (digits s).map Char.toLower) := by
  have hread : (∃ b, ofJson (.text s) = .ok b) ↔
      Even (digits s).length ∧ ∀ c ∈ digits s, IsDigit c := by
    rw [← exists_decode]
    constructor
    · rintro ⟨b, h⟩
      exact ⟨b.data, ofJson_text_eq_ok.mp h⟩
    · rintro ⟨bytes, h⟩
      exact ⟨⟨bytes⟩, ofJson_text_eq_ok.mpr h⟩
  refine ⟨unmarked_cases s.toList, hread, ofJson_text_eq_error.trans (not_congr hread), ?_⟩
  intro b hb
  have hdecode : decode (digits s) = some b.data := ofJson_text_eq_ok.mp hb
  have hlower : (digits s).map Char.toLower = encode b.data := decode_eq_some.mp hdecode
  refine ⟨?_, fun i byte hi => decode_getElem? hdecode hi, ?_, ?_⟩
  · rw [← List.length_map, hlower, length_encode, size]
  · rw [hlower, toJson, text, marked]
  · intro s' b' hb'
    have hdecode' : decode (digits s') = some b'.data := ofJson_text_eq_ok.mp hb'
    rw [hlower, ← decode_eq_some, hdecode', Option.some_inj]
    constructor
    · exact congrArg Bytes.data
    · intro h
      obtain ⟨data⟩ := b
      obtain ⟨data'⟩ := b'
      exact congrArg Bytes.mk h

/-- A doubled mark leaves an `x` among the digits. -/
example : ofJson (.text "0x0x12") = .error .hexBytes ∧ ofJson (.text "Ff") = ofJson (.text "0xfF") :=
  by decide +kernel

end EventFanout.Bytes
