/-
  SqlKit/Proofs/Row/Widening.lean
  ===============================
  **The numbers that floats stand for.**

  A finite float is a whole number of units, the unit being the smallest subnormal of
  its format: `2⁻¹⁴⁹` for a single and `2⁻¹⁰⁷⁴` for a double. Besides there are two
  infinities and the NaNs, which are not told apart here, and each zero has a sign.
  Two doubles that stand for one number are the same bits, unless both are NaNs
  (`Double.eq_of_number_eq`), and so are two singles (`Single.eq_of_number_eq`).

  Reading a single as a double keeps the number (`Single.number_widen`). The units become
  `2⁹²⁵` times smaller; for a normal number the exponent and the fraction take that up by
  a fixed amount, for a subnormal one by an amount that depends on its leading bit.
-/
import Mathlib.Algebra.Order.Field.Rat
import Mathlib.Tactic.FieldSimp
import Mathlib.Tactic.NormNum
import Mathlib.Tactic.Ring
import SqlKit.Ieee

namespace SqlKit

/-! ## 1. Numbers -/

/-- What a float stands for. The zeros are told apart by their signs, NaNs are not. -/
inductive Number where
  | nan
  | infinite (negative : Bool)
  | finite (negative : Bool) (magnitude : ℚ)

/-- How many of the smallest subnormals a finite float amounts to, where fractions have
    `bits` bits. A normal float has a leading bit that is not written. -/
def FloatFields.units (bits : Nat) (f : FloatFields) : Nat :=
  if f.exponent = 0 then f.fraction else (2 ^ bits + f.fraction) * 2 ^ (f.exponent - 1)

/-- The number of a float whose greatest exponent is `top`, where fractions have `bits`
    bits and the smallest subnormal is `2` to the power of `-scale`. -/
def FloatFields.number (top bits scale : Nat) (f : FloatFields) : Number :=
  if f.exponent = top then if f.fraction = 0 then .infinite f.negative else .nan
  else .finite f.negative (f.units bits / 2 ^ scale)

def Single.number (x : Single) : Number := x.fields.number 255 23 149

def Double.number (x : Double) : Number := x.fields.number 2047 52 1074

/-! ## 2. Fields and bits -/

theorem twoPow_eq (k : Nat) : twoPow k = 2 ^ k := rfl

theorem two_pow_mul {j k n : Nat} (h : j + k = n) : 2 ^ j * 2 ^ k = 2 ^ n := by
  rw [← Nat.pow_add, h]

/-- The bits of a float as a number: a sign, then `width` bits of exponent, then `bits`
    bits of fraction. -/
def FloatFields.pattern (width bits : Nat) (f : FloatFields) : Nat :=
  (if f.negative then 2 ^ (width + bits) else 0) + f.exponent * 2 ^ bits + f.fraction

/-- No bit is lost when a pattern is taken apart into its fields. -/
theorem FloatFields.pattern_split {width bits n : Nat} (h : n < 2 ^ (width + bits + 1)) :
    FloatFields.pattern width bits
      ⟨decide (2 ^ (width + bits) ≤ n), n / 2 ^ bits % 2 ^ width, n % 2 ^ bits⟩ = n := by
  have hhead : (if decide (2 ^ (width + bits) ≤ n) then 2 ^ (width + bits) else 0) +
      n / 2 ^ bits % 2 ^ width * 2 ^ bits = n / 2 ^ bits * 2 ^ bits := by
    have hpow : 2 ^ (width + bits) = 2 ^ width * 2 ^ bits := Nat.pow_add 2 width bits
    have hlt : n / 2 ^ bits < 2 * 2 ^ width := by
      rw [Nat.div_lt_iff_lt_mul (Nat.two_pow_pos bits), Nat.mul_assoc, ← hpow, ← Nat.pow_succ']
      exact h
    have hsign : 2 ^ (width + bits) ≤ n ↔ 2 ^ width ≤ n / 2 ^ bits := by
      rw [Nat.le_div_iff_mul_le (Nat.two_pow_pos bits), hpow]
    by_cases hle : 2 ^ width ≤ n / 2 ^ bits
    · rw [decide_eq_true (hsign.mpr hle), if_pos rfl, hpow, ← Nat.add_mul,
        Nat.mod_eq_sub_mod hle, Nat.mod_eq_of_lt (by omega), Nat.add_sub_cancel' hle]
    · rw [decide_eq_false (mt hsign.mp hle), if_neg Bool.false_ne_true, Nat.zero_add,
        Nat.mod_eq_of_lt (Nat.lt_of_not_le hle)]
  rw [pattern, hhead]
  exact Nat.div_add_mod' n (2 ^ bits)

theorem Single.pattern_fields (x : Single) : x.fields.pattern 8 23 = x.bits.toNat :=
  FloatFields.pattern_split x.bits.toNat_lt

theorem Double.pattern_fields (x : Double) : x.fields.pattern 11 52 = x.bits.toNat :=
  FloatFields.pattern_split x.bits.toNat_lt

/-- Fields that fit a double. -/
structure FloatFields.FitsDouble (f : FloatFields) : Prop where
  exponent_lt : f.exponent < 2 ^ 11
  fraction_lt : f.fraction < 2 ^ 52

namespace Double

theorem fitsDouble_fields (x : Double) : x.fields.FitsDouble where
  exponent_lt := Nat.mod_lt _ (Nat.two_pow_pos 11)
  fraction_lt := Nat.mod_lt _ (Nat.two_pow_pos 52)

/-- The fields of a double are those that it was put together from. -/
theorem fields_ofFields {f : FloatFields} (h : f.FitsDouble) : (ofFields f).fields = f := by
  obtain ⟨negative, exponent, fraction⟩ := f
  obtain ⟨hexponent, hfraction⟩ := h
  simp only at hexponent hfraction
  cases negative <;>
    simp only [ofFields, fields, twoPow_eq, UInt64.toNat_ofNat', FloatFields.mk.injEq,
      Bool.false_eq_true, if_true, if_false, decide_eq_true_eq, decide_eq_false_iff_not] <;>
    omega

theorem ofFields_fields (x : Double) : ofFields x.fields = x := by
  have hofNat : ofFields x.fields = ⟨UInt64.ofNat (x.fields.pattern 11 52)⟩ := rfl
  rw [hofNat, pattern_fields, UInt64.ofNat_toNat]

theorem isNaN_iff (x : Double) : x.isNaN = true ↔ x.number = .nan := by
  rw [isNaN, number, FloatFields.number]
  have htop : twoPow 11 - 1 = 2047 := rfl
  by_cases hexponent : x.fields.exponent = 2047 <;> by_cases hfraction : x.fields.fraction = 0 <;>
    simp [htop, hexponent, hfraction]

end Double

/-- Fields that a single can have. -/
structure FloatFields.FitsSingle (f : FloatFields) : Prop where
  exponent_lt : f.exponent < 2 ^ 8
  fraction_lt : f.fraction < 2 ^ 23

theorem Single.fitsSingle_fields (x : Single) : x.fields.FitsSingle where
  exponent_lt := Nat.mod_lt _ (Nat.two_pow_pos 8)
  fraction_lt := Nat.mod_lt _ (Nat.two_pow_pos 23)

/-! ## 3. Floats that stand for one number -/

namespace FloatFields

variable {f g : FloatFields} {bits : Nat}

/-- A greater exponent means more units, whatever the fractions are. -/
theorem units_lt_of_exponent_lt (hf : f.fraction < 2 ^ bits) (h : f.exponent < g.exponent) :
    f.units bits < g.units bits := by
  have hg : g.exponent ≠ 0 := by omega
  have hleast : 2 ^ bits * 2 ^ (g.exponent - 1) ≤ g.units bits := by
    rw [units, if_neg hg]
    exact Nat.mul_le_mul_right _ (Nat.le_add_right _ _)
  rw [units]
  split
  · calc f.fraction < 2 ^ bits := hf
      _ ≤ 2 ^ bits * 2 ^ (g.exponent - 1) := Nat.le_mul_of_pos_right _ (Nat.two_pow_pos _)
      _ ≤ g.units bits := hleast
  · rename_i hne
    have hstep : f.exponent - 1 + 1 ≤ g.exponent - 1 := by omega
    calc (2 ^ bits + f.fraction) * 2 ^ (f.exponent - 1)
        < (2 ^ bits * 2) * 2 ^ (f.exponent - 1) :=
          Nat.mul_lt_mul_of_pos_right (by omega) (Nat.two_pow_pos _)
      _ = 2 ^ bits * 2 ^ (f.exponent - 1 + 1) := by ring
      _ ≤ 2 ^ bits * 2 ^ (g.exponent - 1) :=
          Nat.mul_le_mul_left _ (Nat.pow_le_pow_right (by decide) hstep)
      _ ≤ g.units bits := hleast

/-- The units of a float determine its exponent and its fraction. -/
theorem eq_of_units_eq (hf : f.fraction < 2 ^ bits) (hg : g.fraction < 2 ^ bits)
    (h : f.units bits = g.units bits) : f.exponent = g.exponent ∧ f.fraction = g.fraction := by
  have hexponent : f.exponent = g.exponent := by
    rcases Nat.lt_trichotomy f.exponent g.exponent with hlt | heq | hgt
    · exact absurd h (units_lt_of_exponent_lt hf hlt).ne
    · exact heq
    · exact absurd h.symm (units_lt_of_exponent_lt hg hgt).ne
  refine ⟨hexponent, ?_⟩
  rw [units, units, hexponent] at h
  split at h
  · exact h
  · have hpos := Nat.two_pow_pos (g.exponent - 1)
    have hsum := Nat.eq_of_mul_eq_mul_right hpos h
    omega

/-- Fields that stand for one number are the same, NaNs apart. -/
theorem eq_of_number_eq {top scale : Nat} (hf : f.fraction < 2 ^ bits) (hg : g.fraction < 2 ^ bits)
    (hnan : f.number top bits scale ≠ .nan)
    (h : f.number top bits scale = g.number top bits scale) : f = g := by
  obtain ⟨hnegative, hexponent, hfraction⟩ : f.negative = g.negative ∧ f.exponent = g.exponent ∧
      f.fraction = g.fraction := by
    simp only [number] at hnan h
    -- Infinities and NaNs are those with the greatest exponent; among them only the
    -- infinities are left, whose fractions are zero.
    by_cases hftop : f.exponent = top <;> by_cases hgtop : g.exponent = top
    · by_cases hfzero : f.fraction = 0 <;> by_cases hgzero : g.fraction = 0
      · simp only [hftop, hgtop, hfzero, hgzero, if_true, Number.infinite.injEq] at h
        exact ⟨h, hftop.trans hgtop.symm, hfzero.trans hgzero.symm⟩
      all_goals simp [hftop, hgtop, hfzero, hgzero] at h hnan
    · simp only [hftop, hgtop, if_true, if_false] at h
      split at h <;> cases h
    · simp only [hftop, hgtop, if_true, if_false] at h
      split at h <;> cases h
    · simp only [hftop, hgtop, if_false, Number.finite.injEq] at h
      have hscale : (2 : ℚ) ^ scale ≠ 0 := pow_ne_zero scale two_ne_zero
      have hunits : (f.units bits : ℚ) = g.units bits := (div_left_inj' hscale).mp h.2
      exact ⟨h.1, eq_of_units_eq hf hg (Nat.cast_inj.mp hunits)⟩
  cases f
  cases g
  simp only at hnegative hexponent hfraction
  rw [hnegative, hexponent, hfraction]

end FloatFields

/-- Two doubles that stand for one number are the same, unless both are NaNs. -/
theorem Double.eq_of_number_eq {x y : Double} (h : x.number = y.number) :
    x = y ∨ x.isNaN = true ∧ y.isNaN = true := by
  by_cases hnan : x.number = .nan
  · exact .inr ⟨x.isNaN_iff.mpr hnan, y.isNaN_iff.mpr (h ▸ hnan)⟩
  · left
    have hfields := FloatFields.eq_of_number_eq x.fitsDouble_fields.fraction_lt
      y.fitsDouble_fields.fraction_lt hnan h
    rw [← x.ofFields_fields, hfields, y.ofFields_fields]

/-- Two singles that stand for one number are the same, NaNs apart. -/
theorem Single.eq_of_number_eq {x y : Single} (hnan : x.number ≠ .nan)
    (h : x.number = y.number) : x = y := by
  have hfields := FloatFields.eq_of_number_eq x.fitsSingle_fields.fraction_lt
    y.fitsSingle_fields.fraction_lt hnan h
  have hbits : x.bits = y.bits := by
    rw [← UInt32.toNat_inj, ← x.pattern_fields, hfields, y.pattern_fields]
  exact congrArg Single.mk hbits

/-! ## 4. Singles as doubles -/

namespace FloatFields

variable {f : FloatFields}

/-- The fraction of a subnormal single, shifted until its leading bit falls away. -/
theorem leading_bit {fraction : Nat} (hzero : fraction ≠ 0) (hlt : fraction < 2 ^ 23) :
    fraction.log2 < 23 ∧ 2 ^ 52 + (fraction - 2 ^ fraction.log2) * 2 ^ (52 - fraction.log2) =
      fraction * 2 ^ (52 - fraction.log2) := by
  have hlog : fraction.log2 < 23 := (Nat.log2_lt hzero).mpr hlt
  refine ⟨hlog, ?_⟩
  have hself : 2 ^ fraction.log2 ≤ fraction := Nat.log2_self_le hzero
  have hsplit : 2 ^ fraction.log2 * 2 ^ (52 - fraction.log2) = 2 ^ 52 := two_pow_mul (by omega)
  rw [← hsplit, ← Nat.add_mul]
  congr 1
  omega

theorem widen_of_top (h : f.exponent = 255) :
    f.widen = ⟨f.negative, 2047, f.fraction * 2 ^ 29⟩ := by
  have htop : f.exponent = twoPow 8 - 1 := h
  rw [widen, if_pos htop]
  rfl

theorem widen_of_normal (htop : f.exponent ≠ 255) (hzero : f.exponent ≠ 0) :
    f.widen = ⟨f.negative, f.exponent + 896, f.fraction * 2 ^ 29⟩ := by
  have hnot : f.exponent ≠ twoPow 8 - 1 := htop
  rw [widen, if_neg hnot, if_pos hzero, twoPow_eq]

theorem widen_of_zero (hexponent : f.exponent = 0) (hfraction : f.fraction = 0) :
    f.widen = ⟨f.negative, 0, 0⟩ := by
  have hnot : f.exponent ≠ twoPow 8 - 1 := by
    rw [hexponent]
    decide
  rw [widen, if_neg hnot, if_neg (not_not.mpr hexponent), if_pos hfraction]

theorem widen_of_subnormal (hexponent : f.exponent = 0) (hfraction : f.fraction ≠ 0) :
    f.widen = ⟨f.negative, f.fraction.log2 + 874,
      (f.fraction - 2 ^ f.fraction.log2) * 2 ^ (52 - f.fraction.log2)⟩ := by
  have hnot : f.exponent ≠ twoPow 8 - 1 := by
    rw [hexponent]
    decide
  rw [widen, if_neg hnot, if_neg (not_not.mpr hexponent), if_neg hfraction]
  rfl

theorem negative_widen : f.widen.negative = f.negative := by
  rw [widen]
  split_ifs <;> rfl

theorem fitsDouble_widen (h : f.FitsSingle) : f.widen.FitsDouble := by
  obtain ⟨hexponent, hfraction⟩ := h
  by_cases htop : f.exponent = 255
  · rw [widen_of_top htop]
    constructor
    · show 2047 < 2 ^ 11
      decide
    · show f.fraction * 2 ^ 29 < 2 ^ 52
      omega
  by_cases hzero : f.exponent = 0
  · by_cases hfractionZero : f.fraction = 0
    · rw [widen_of_zero hzero hfractionZero]
      exact ⟨Nat.two_pow_pos 11, Nat.two_pow_pos 52⟩
    · obtain ⟨hlog, hlead⟩ := leading_bit hfractionZero hfraction
      have hbound : f.fraction * 2 ^ (52 - f.fraction.log2) < 2 ^ 53 := by
        calc f.fraction * 2 ^ (52 - f.fraction.log2)
            < 2 ^ (f.fraction.log2 + 1) * 2 ^ (52 - f.fraction.log2) :=
              Nat.mul_lt_mul_of_pos_right Nat.lt_log2_self (Nat.two_pow_pos _)
          _ = 2 ^ 53 := two_pow_mul (by omega)
      rw [widen_of_subnormal hzero hfractionZero]
      constructor
      · show f.fraction.log2 + 874 < 2 ^ 11
        omega
      · show (f.fraction - 2 ^ f.fraction.log2) * 2 ^ (52 - f.fraction.log2) < 2 ^ 52
        omega
  · rw [widen_of_normal htop hzero]
    constructor
    · show f.exponent + 896 < 2 ^ 11
      omega
    · show f.fraction * 2 ^ 29 < 2 ^ 52
      omega

theorem units_of_normal {bits : Nat} (h : f.exponent ≠ 0) :
    f.units bits = (2 ^ bits + f.fraction) * 2 ^ (f.exponent - 1) :=
  if_neg h

theorem units_of_subnormal {bits : Nat} (h : f.exponent = 0) : f.units bits = f.fraction :=
  if_pos h

/-- A finite single has as many units as the double that it widens to, where these are
    `2⁹²⁵` times smaller. -/
theorem units_widen (h : f.FitsSingle) (htop : f.exponent ≠ 255) :
    f.widen.exponent ≠ 2047 ∧ f.widen.units 52 = f.units 23 * 2 ^ 925 := by
  obtain ⟨hexponent, hfraction⟩ := h
  by_cases hzero : f.exponent = 0
  · rw [units_of_subnormal hzero]
    by_cases hfractionZero : f.fraction = 0
    · rw [widen_of_zero hzero hfractionZero, hfractionZero, Nat.zero_mul]
      exact ⟨Nat.zero_ne_add_one 2046, rfl⟩
    · -- What the fraction is shifted by is missing in the exponent.
      obtain ⟨hlog, hlead⟩ := leading_bit hfractionZero hfraction
      have hpow : 2 ^ (52 - f.fraction.log2) * 2 ^ (f.fraction.log2 + 874 - 1) = 2 ^ 925 :=
        two_pow_mul (by omega)
      rw [widen_of_subnormal hzero hfractionZero, units_of_normal (Nat.succ_ne_zero _), hlead,
        Nat.mul_assoc, hpow]
      refine ⟨?_, rfl⟩
      show f.fraction.log2 + 874 ≠ 2047
      omega
  · have hfractions : 2 ^ 52 + f.fraction * 2 ^ 29 = (2 ^ 23 + f.fraction) * 2 ^ 29 := by omega
    have hpow : 2 ^ 29 * 2 ^ (f.exponent + 896 - 1) = 2 ^ (f.exponent - 1) * 2 ^ 925 := by
      calc 2 ^ 29 * 2 ^ (f.exponent + 896 - 1) = 2 ^ (f.exponent - 1 + 925) :=
            two_pow_mul (by omega)
        _ = 2 ^ (f.exponent - 1) * 2 ^ 925 := (two_pow_mul rfl).symm
    rw [widen_of_normal htop hzero, units_of_normal (Nat.succ_ne_zero _), units_of_normal hzero,
      hfractions, Nat.mul_assoc, Nat.mul_assoc, hpow]
    refine ⟨?_, rfl⟩
    show f.exponent + 896 ≠ 2047
    omega

end FloatFields

/-- **Widening keeps the number**: a single and the double that it is read as stand for
    the same one, be it a NaN, an infinity, a zero, a subnormal or any other. -/
theorem Single.number_widen (x : Single) : x.widen.number = x.number := by
  have hfits := x.fitsSingle_fields
  rw [Double.number, widen, Double.fields_ofFields (FloatFields.fitsDouble_widen hfits), number,
    FloatFields.number, FloatFields.number]
  by_cases htop : x.fields.exponent = 255
  · have hfraction : x.fields.fraction * 2 ^ 29 = 0 ↔ x.fields.fraction = 0 := by omega
    simp only [FloatFields.widen_of_top htop, htop, hfraction, if_true]
  · obtain ⟨hfinite, hunits⟩ := FloatFields.units_widen hfits htop
    have hscale : (2 : ℚ) ^ 1074 = 2 ^ 149 * 2 ^ 925 := pow_add 2 149 925
    have hunit : (2 : ℚ) ^ 925 ≠ 0 := pow_ne_zero 925 two_ne_zero
    rw [if_neg hfinite, if_neg htop, FloatFields.negative_widen, hunits, Nat.cast_mul, hscale,
      Nat.cast_pow, Nat.cast_two, mul_div_mul_right _ _ hunit]

end SqlKit
