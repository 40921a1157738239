/-
EventFanout.Proofs.Criteria.Numeral — the texts that write a number.

A number has many texts in a base: its digits in any letter case, after any number of zeros, and
perhaps a plus sign before them (`Numeral.Writes`). Those are the texts that are read as the number,
and no others are (`read?_eq_some`); the fewest digits, which is how it is written, are one of them
(`writes_toDigits`).

What carries the proof is that reading is a fold: a run of digits in two parts is read one part
after the other (`digits?_append`). So reading follows the digits of a number, which are those of
its quotient by the base and that of the remainder; and what is read follows the run from its end.
-/
import EventFanout.Criteria.BlockSpec
import Mathlib.Data.List.Induction

namespace EventFanout.Text

/-- The lower case of a capital letter of ASCII is 32 places on; every other character stays. -/
theorem toNat_toLower (c : Char) : c.toLower.toNat =
    if 'A'.toNat ≤ c.toNat ∧ c.toNat ≤ 'Z'.toNat then c.toNat + 32 else c.toNat := by
  have hcapital : (c.val ≥ 'A'.val ∧ c.val ≤ 'Z'.val) ↔
      'A'.toNat ≤ c.toNat ∧ c.toNat ≤ 'Z'.toNat := by
    simp only [ge_iff_le, UInt32.le_iff_toNat_le]
    rfl
  unfold Char.toLower
  split
  · rename_i h
    have hle : c.val.toNat ≤ 90 := (hcapital.mp h).2
    have hstep : ('a'.val - 'A'.val).toNat = 32 := rfl
    rw [if_pos (hcapital.mp h)]
    show (c.val + ('a'.val - 'A'.val)).toNat = c.val.toNat + 32
    rw [UInt32.toNat_add, hstep]
    omega
  · rename_i h
    rw [if_neg fun h' => h (hcapital.mpr h')]

/-- A digit has one value in either case. -/
theorem Hex.value?_toLower (c : Char) : Hex.value? c.toLower = Hex.value? c := by
  simp only [value?, toNat_toLower, show '0'.toNat = 48 from rfl, show '9'.toNat = 57 from rfl,
    show 'a'.toNat = 97 from rfl, show 'f'.toNat = 102 from rfl,
    show 'A'.toNat = 65 from rfl, show 'F'.toNat = 70 from rfl, show 'Z'.toNat = 90 from rfl]
  grind

/-- A digit is a character of ASCII. -/
theorem Hex.toNat_lt_of_value? {c : Char} {d : Nat} (h : value? c = some d) : c.toNat < 128 := by
  simp only [value?, show '0'.toNat = 48 from rfl, show '9'.toNat = 57 from rfl,
    show 'a'.toNat = 97 from rfl, show 'f'.toNat = 102 from rfl,
    show 'A'.toNat = 65 from rfl, show 'F'.toNat = 70 from rfl] at h
  grind

/-- The lower case of a digit is how its value is written. -/
theorem Hex.toLower_of_value? {c : Char} {d : Nat} (h : value? c = some d) :
    c.toLower = Nat.digitChar d := by
  have hlow : ∀ k, k < 128 → ∀ d ∈ value? (Char.ofNat k),
      (Char.ofNat k).toLower = Nat.digitChar d := by decide
  have hc := hlow c.toNat (toNat_lt_of_value? h)
  rw [Char.ofNat_toNat] at hc
  exact hc d h

namespace Numeral

variable {base : Nat} {cs : List Char}

def Writes (base n : Nat) (cs : List Char) : Prop :=
  ∃ zeros, (unsigned cs).map Char.toLower = List.replicate zeros '0' ++ Nat.toDigits base n

theorem digit?_toLower (c : Char) : digit? base c.toLower = digit? base c := by
  rw [digit?, digit?, Hex.value?_toLower]

theorem digits?_toLower (value : Nat) (cs : List Char) :
    digits? base value (cs.map Char.toLower) = digits? base value cs := by
  induction cs generalizing value with
  | nil => rfl
  | cons c rest ih => simp only [List.map_cons, digits?, digit?_toLower, ih]

/-- Of a run of digits in two parts the first is read first. -/
theorem digits?_append (value : Nat) (cs cs' : List Char) :
    digits? base value (cs ++ cs') = (digits? base value cs).bind fun v => digits? base v cs' := by
  induction cs generalizing value with
  | nil => rfl
  | cons c rest ih =>
    simp only [List.cons_append, digits?]
    cases digit? base c with
    | none => rfl
    | some d => exact ih _

theorem digit?_digitChar (hb : base ≤ 16) {d : Nat} (hd : d < base) :
    digit? base (Nat.digitChar d) = some d := by
  have hvalue : ∀ d, d < 16 → Hex.value? (Nat.digitChar d) = some d := by decide
  rw [digit?, hvalue d (Nat.lt_of_lt_of_le hd hb), Option.filter_some, if_pos (decide_eq_true hd)]

/-- The digits of a number read as the number. -/
theorem digits?_toDigits (hb : 1 < base) (hb' : base ≤ 16) (n : Nat) :
    digits? base 0 (Nat.toDigits base n) = some n := by
  induction n using Nat.strongRecOn with
  | ind n ih =>
    rw [Nat.toDigits_eq_if hb]
    split
    · rename_i hn
      simp only [digits?, digit?_digitChar hb' hn]
      simp
    · rename_i hn
      have hless : n / base < n := Nat.div_lt_self (by omega) hb
      rw [digits?_append, ih _ hless, Option.bind_some, digits?,
        digit?_digitChar hb' (Nat.mod_lt n (by omega))]
      simp only [digits?]
      exact congrArg some (Nat.div_add_mod n base)

/-- Zeros at the front add nothing. -/
theorem digits?_zeros (hb : 0 < base) (zeros : Nat) (cs : List Char) :
    digits? base 0 (List.replicate zeros '0' ++ cs) = digits? base 0 cs := by
  have hzero : digit? base '0' = some 0 := by
    rw [digit?, show Hex.value? '0' = some 0 from rfl, Option.filter_some,
      if_pos (decide_eq_true hb)]
  induction zeros with
  | zero => rfl
  | succ zeros ih =>
    rw [List.replicate_succ, List.cons_append, digits?, hzero]
    simpa using ih

/-- A run that reads as a number has its digits, after zeros. -/
theorem digits?_eq_some (hb : 1 < base) {n : Nat} (h : digits? base 0 cs = some n) (hcs : cs ≠ []) :
    ∃ zeros, cs.map Char.toLower = List.replicate zeros '0' ++ Nat.toDigits base n := by
  induction cs using List.reverseRecOn generalizing n with
  | nil => exact absurd rfl hcs
  | append_singleton cs c ih =>
    rw [digits?_append] at h
    obtain ⟨m, hm, h⟩ := Option.bind_eq_some_iff.mp h
    obtain ⟨d, hd, h⟩ := Option.bind_eq_some_iff.mp h
    cases h
    obtain ⟨hvalue, hlt⟩ := Option.filter_eq_some_iff.mp hd
    have hlt : d < base := of_decide_eq_true hlt
    have hlast : [c].map Char.toLower = Nat.toDigits base d := by
      rw [Nat.toDigits_of_lt_base hlt, List.map_singleton, Hex.toLower_of_value? hvalue]
    rw [List.map_append, hlast]
    cases cs with
    | nil =>
      cases hm
      exact ⟨0, by simp⟩
    | cons c' rest =>
      obtain ⟨zeros, hzeros⟩ := ih hm (List.cons_ne_nil _ _)
      rw [hzeros]
      -- The digits before the last one write zero only where they are zeros themselves.
      rcases Nat.eq_zero_or_pos m with rfl | hpos
      · refine ⟨zeros + 1, ?_⟩
        rw [Nat.mul_zero, Nat.zero_add, List.replicate_succ', Nat.toDigits_zero]
      · exact ⟨zeros, by rw [List.append_assoc, Nat.toDigits_append_toDigits hb hpos hlt]⟩

/-- The texts that are read as a number below 2^64 are those that write it. -/
theorem read?_eq_some (hb : 1 < base) (hb' : base ≤ 16) {n : UInt64} :
    read? base cs = some n ↔ Writes base n.toNat cs := by
  constructor
  · intro h
    unfold read? at h
    by_cases hempty : (unsigned cs).isEmpty
    · simp [hempty] at h
    · obtain ⟨value, hvalue, hn⟩ : ∃ value, digits? base 0 (unsigned cs) = some value ∧
          value < UInt64.size ∧ UInt64.ofNat value = n := by
        simpa [hempty, Option.bind_eq_some_iff] using h
      obtain ⟨hlt, rfl⟩ := hn
      obtain ⟨zeros, hzeros⟩ := digits?_eq_some hb hvalue (by simpa using hempty)
      exact ⟨zeros, by rwa [UInt64.toNat_ofNat_of_lt' hlt]⟩
  · rintro ⟨zeros, hzeros⟩
    have hdigits : digits? base 0 (unsigned cs) = some n.toNat := by
      rw [← digits?_toLower, hzeros, digits?_zeros (by omega), digits?_toDigits hb hb']
    have hsome : (unsigned cs).isEmpty = false := by
      cases hcs : unsigned cs with
      | nil =>
        rw [hcs, List.map_nil] at hzeros
        have hnil := (List.append_eq_nil_iff.mp hzeros.symm).2
        exact absurd hnil Nat.toDigits_ne_nil
      | cons c rest => rfl
    have hlt : n.toNat < UInt64.size := n.toNat_lt_size
    simp [read?, hsome, hdigits, hlt]

theorem digit_of_mem_toDigits (hb : 1 < base) {n : Nat} {c : Char} (h : c ∈ Nat.toDigits base n) :
    ∃ d, d < base ∧ c = Nat.digitChar d := by
  induction n using Nat.strongRecOn with
  | ind n ih =>
    rw [Nat.toDigits_eq_if hb] at h
    split at h
    · rename_i hn
      exact ⟨n, hn, List.mem_singleton.mp h⟩
    · rename_i hn
      rcases List.mem_append.mp h with h | h
      · exact ih _ (Nat.div_lt_self (by omega) hb) h
      · exact ⟨n % base, Nat.mod_lt n (by omega), List.mem_singleton.mp h⟩

/-- The digits of a number write it. -/
theorem writes_toDigits (hb : 1 < base) (hb' : base ≤ 16) (n : Nat) :
    Writes base n (Nat.toDigits base n) := by
  have hdigit : ∀ c ∈ Nat.toDigits base n, c.toLower = c ∧ c ≠ '+' := by
    intro c hc
    have hplain : ∀ d, d < 16 → (Nat.digitChar d).toLower = Nat.digitChar d ∧
        Nat.digitChar d ≠ '+' := by decide
    obtain ⟨d, hd, rfl⟩ := digit_of_mem_toDigits hb hc
    exact hplain d (Nat.lt_of_lt_of_le hd hb')
  have hunsigned : unsigned (Nat.toDigits base n) = Nat.toDigits base n := by
    unfold unsigned
    split
    · rename_i rest he
      have hplus : '+' ∈ Nat.toDigits base n := by
        rw [he]
        exact List.mem_cons_self
      exact absurd rfl (hdigit _ hplus).2
    · rfl
  refine ⟨0, ?_⟩
  rw [hunsigned, List.replicate_zero, List.nil_append]
  have hsame : ∀ c ∈ Nat.toDigits base n, c.toLower = id c := fun c hc => (hdigit c hc).1
  rw [List.map_congr_left hsame, List.map_id]

end Numeral

end EventFanout.Text
