import CallStudy.Proofs.Number.Double

/-!
Rounding to the nearest number. A mantissa is at most half a unit away from the value it is rounded
from, so no number of the format is nearer to an exact result than what the result is rounded to.
-/

set_option autoImplicit false

namespace CallStudy.Binary

open Float.Model (Format totalExponent UnpackedFloat)
open Float.Model.UnpackedFloat

theorem Approximates.abs_roundedMantissa_sub_le {em : ExtendedMantissa} {y : ℚ}
    (h : Approximates em y) : |(em.roundedMantissa : ℚ) - y| ≤ 1 / 2 := by
  obtain ⟨m, round, sticky⟩ := em
  rw [abs_le]
  cases round with
  | false =>
    cases sticky with
    | false =>
      have exact : y = m := h
      change -(1 / 2) ≤ (m : ℚ) - y ∧ (m : ℚ) - y ≤ 1 / 2
      constructor <;> linarith
    | true =>
      have between : (m : ℚ) < y ∧ y < m + 1 / 2 := h
      change -(1 / 2) ≤ (m : ℚ) - y ∧ (m : ℚ) - y ≤ 1 / 2
      constructor <;> linarith
  | true =>
    cases sticky with
    | false =>
      have half : y = m + 1 / 2 := h
      have bit : ((m % 2 : Nat) : ℚ) ≤ 1 := by exact_mod_cast Nat.lt_succ_iff.mp (Nat.mod_lt m two_pos)
      have even : (0 : ℚ) ≤ (m % 2 : Nat) := by positivity
      change -(1 / 2) ≤ ((m + m % 2 : Nat) : ℚ) - y ∧ ((m + m % 2 : Nat) : ℚ) - y ≤ 1 / 2
      rw [Nat.cast_add]
      constructor <;> linarith
    | true =>
      have between : (m : ℚ) + 1 / 2 < y ∧ y < m + 1 := h
      change -(1 / 2) ≤ ((m + 1 : Nat) : ℚ) - y ∧ ((m + 1 : Nat) : ℚ) - y ≤ 1 / 2
      rw [Nat.cast_add, Nat.cast_one]
      constructor <;> linarith

/-- No whole number is nearer than one at most half a unit away. -/
theorem abs_sub_le_of_half {r : Nat} {y : ℚ} (half : |(r : ℚ) - y| ≤ 1 / 2) (k : Nat) :
    |(r : ℚ) - y| ≤ |(k : ℚ) - y| := by
  rcases eq_or_ne r k with rfl | other
  · rfl
  have apart : (1 : ℚ) ≤ |(r : ℚ) - k| := by
    exact_mod_cast Int.one_le_abs (sub_ne_zero.mpr (Int.ofNat_inj.not.mpr other))
  have split : |(r : ℚ) - k| ≤ |(r : ℚ) - y| + |(k : ℚ) - y| := by
    rw [abs_sub_comm (k : ℚ) y]
    exact abs_sub_le _ _ _
  linarith

section Magnitude

variable {format : Format} {x b : ℚ} {t : Int} {r : Nat}

theorem abs_units_sub_le (half : |(r : ℚ) - x / 2 ^ t| ≤ 1 / 2) (k : Nat) :
    |(r : ℚ) * 2 ^ t - x| ≤ |(k : ℚ) * 2 ^ t - x| := by
  have unit : (0 : ℚ) < 2 ^ t := by positivity
  have scaled (j : Nat) : |(j : ℚ) * 2 ^ t - x| = |(j : ℚ) - x / 2 ^ t| * 2 ^ t := by
    rw [← abs_of_pos unit, ← abs_mul, abs_of_pos unit, sub_mul, div_mul_cancel₀ _ unit.ne']
  rw [scaled, scaled]
  exact mul_le_mul_of_nonneg_right (abs_sub_le_of_half half k) unit.le

/-- A magnitude is rounded to the nearest number of the format. -/
theorem RoundedAt.near (h : RoundedAt format x t r) (half : |(r : ℚ) - x / 2 ^ t| ≤ 1 / 2)
    (nonneg : 0 ≤ x) (held : Held format b) : |(r : ℚ) * 2 ^ t - x| ≤ |b - x| := by
  have units := abs_units_sub_le half
  have zero : |(r : ℚ) * 2 ^ t - x| ≤ x := by
    simpa [abs_of_nonneg nonneg] using units 0
  cases held with
  | zero => simpa using units 0
  | @finite sign m e canonical =>
    have pos : (0 : ℚ) < m := by exact_mod_cast canonical.pos
    have size : (0 : ℚ) < m * 2 ^ e := by positivity
    cases sign with
    | negative =>
      have below : signed .negative (m * 2 ^ e) - x ≤ 0 := by
        change -((m : ℚ) * 2 ^ e) - x ≤ 0
        linarith
      rw [abs_of_nonpos below]
      change _ ≤ -(-((m : ℚ) * 2 ^ e) - x)
      linarith
    | positive =>
      by_cases above : t ≤ e
      · obtain ⟨k, whole⟩ := exists_units m above
        rw [signed, whole]
        exact units k
      · -- the number lies below the least one with the exponent, which is a number of units
        have least := canonical.min_le
        have low := h.low.resolve_left (by omega)
        have short := canonical.lt_of_lt (t := t) (by omega)
        have first := units (2 ^ format.mantissaBitsWithoutImplicit)
        rw [two_zpow_add] at low short
        rw [abs_of_nonpos (sub_nonpos.mpr low)] at first
        have below : signed .positive (m * 2 ^ e) - x ≤ 0 := by
          change (m : ℚ) * 2 ^ e - x ≤ 0
          linarith
        rw [abs_of_nonpos below]
        change _ ≤ -((m : ℚ) * 2 ^ e - x)
        linarith

end Magnitude

variable {format : Format} {q : ℚ}

/-- No number of the format is nearer to `q` than what it is rounded to. -/
def Nearest (format : Format) (q : ℚ) (r : UnpackedFloat) : Prop :=
  ∀ b, Held format b → |toRat r - q| ≤ |b - q|

theorem nearest_self (v : UnpackedFloat) : Nearest format (toRat v) v := by
  intro b _
  rw [sub_self, abs_zero]
  exact abs_nonneg _

theorem abs_signed_sub (sign : Sign) (a x : ℚ) : |signed sign a - signed sign x| = |a - x| := by
  cases sign with
  | positive => rfl
  | negative =>
    change |-a - -x| = |a - x|
    rw [neg_sub_neg, abs_sub_comm]

theorem nearest_roundWithAccuracy {sign : Sign} {n : Nat} {start : Int} {accuracy : Accuracy}
    {x : ℚ} (nonneg : 0 ≤ x) (le : start ≤ format.targetExponent (totalExponent n start))
    (approx : Approximates (.ofMantissaAndAccuracy n accuracy) (x / 2 ^ start)) :
    Nearest format (signed sign x) (roundWithAccuracy format sign n start accuracy) := by
  have rounded := roundedAt_of_approximates le approx
  obtain ⟨shifted, exponent⟩ := shiftToTargetExponent_approximates le rfl approx
  have half := shifted.abs_roundedMantissa_sub_le
  rw [← exponent] at half
  have value : toRat (roundWithAccuracy format sign n start accuracy) =
      signed sign ((shiftToTargetExponent format n start accuracy).1.roundedMantissa *
        2 ^ (shiftToTargetExponent format n start accuracy).2) := by
    by_cases none : (shiftToTargetExponent format n start accuracy).1.roundedMantissa = 0
    · rw [roundWithAccuracy_eq_zero rounded.least none, none]
      cases sign <;> simp [toRat, signed]
    · obtain ⟨m, e, canonical, value, mantissa, exponent⟩ := rounded.exists_canonical none
      rw [roundWithAccuracy_eq canonical rfl rfl ⟨mantissa, exponent⟩, ← value]
      rfl
  intro b held
  rw [value, abs_signed_sub]
  have opposite : |b - signed sign x| = |signed sign b - x| := by
    rw [← abs_signed_sub sign]
    cases sign with
    | positive => rfl
    | negative => simp [signed]
  rw [opposite]
  apply rounded.near half nonneg
  cases sign with
  | positive => exact held
  | negative => exact held.neg

theorem nearest_div {a b : UnpackedFloat} (ha : IsRounded format a) (hb : IsRounded format b)
    (some : toRat b ≠ 0) :
    Nearest format (toRat a / toRat b) (UnpackedFloat.div format a b) := by
  rcases hb.zero_or_finite with ⟨t, rfl⟩ | ⟨t, n, f, g, rfl⟩
  · exact absurd (toRat_zero t) some
  · rcases ha.zero_or_finite with ⟨s, rfl⟩ | ⟨s, m, e, h, rfl⟩
    · rw [toRat_zero, zero_div]
      exact nearest_self (.zero (s / t))
    · rw [toRat_finite, toRat_finite, signed_div]
      exact nearest_roundWithAccuracy (by positivity)
        (divCore_le_targetExponent format h.pos g.pos e f) (approximates_divCore format m g.pos e f)

/-- A quotient that does not overflow is the double nearest to the exact one. -/
theorem nearest_quotient {x y : Float} (hx : x.isFinite) (hy : y.isFinite) (some : value y ≠ 0)
    (finite : (x / y).isFinite) :
    Nearest .binary64 (value x / value y) (x / y).toModel.unpack := by
  have rx := isRounded_of_isFinite hx
  have ry := isRounded_of_isFinite hy
  have stored := unpack_pack_of_isFinite (rounds_div rx ry some).isRounded finite
  change Nearest _ _ (UnpackedFloat.unpack _ (UnpackedFloat.pack _
    (UnpackedFloat.div .binary64 x.toModel.unpack y.toModel.unpack)))
  rw [stored]
  exact nearest_div rx ry some

end CallStudy.Binary
