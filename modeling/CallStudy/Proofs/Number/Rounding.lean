import CallStudy.Number.Binary
import CallStudy.Number.Decimal
import Mathlib

/-!
Rounding to nearest, ties to even. A mantissa with its two residual bits tells where the exact
value lies between two whole numbers, and shifting keeps that. So every value in the interval
around a number in canonical form is rounded to that number.
-/

set_option autoImplicit false

namespace CallStudy

open Float.Model (Format totalExponent UnpackedFloat)
open Float.Model.UnpackedFloat

/-- Whether a number lies in an interval. -/
def Decimal.Interval.Has (i : Interval) (x : ℚ) : Prop :=
  if i.closed then i.low * 2 ^ i.exponent ≤ x ∧ x ≤ i.high * 2 ^ i.exponent
  else i.low * 2 ^ i.exponent < x ∧ x < i.high * 2 ^ i.exponent

namespace Binary

/-- Cutting the binary digits of `y` behind the point leaves the mantissa and its residual bits. -/
def Approximates (em : ExtendedMantissa) (y : ℚ) : Prop :=
  match em.roundBit, em.stickyBit with
  | false, false => y = em.mantissa
  | false, true => em.mantissa < y ∧ y < em.mantissa + 1 / 2
  | true, false => y = em.mantissa + 1 / 2
  | true, true => em.mantissa + 1 / 2 < y ∧ y < em.mantissa + 1

theorem approximates_exact (m : Nat) : Approximates (.ofMantissaAndAccuracy m .exact) m := rfl

namespace Approximates

variable {em : ExtendedMantissa} {y : ℚ}

theorem mantissa_le (h : Approximates em y) : (em.mantissa : ℚ) ≤ y := by
  obtain ⟨m, round, sticky⟩ := em
  cases round <;> cases sticky <;> simp only [Approximates] at h ⊢ <;> linarith

theorem lt_mantissa_add_one (h : Approximates em y) : y < em.mantissa + 1 := by
  obtain ⟨m, round, sticky⟩ := em
  cases round <;> cases sticky <;> simp only [Approximates] at h ⊢ <;> linarith

theorem shiftRightOne (h : Approximates em y) : Approximates em.shiftRightOne (y / 2) := by
  obtain ⟨m, round, sticky⟩ := em
  have halves : (2 : ℚ) * (m / 2 : Nat) + (m % 2 : Nat) = m := by
    exact_mod_cast Nat.div_add_mod m 2
  rcases Nat.mod_two_eq_zero_or_one m with bit | bit <;> rw [bit] at halves <;>
    push_cast at halves <;> cases round <;> cases sticky <;>
    simp only [Approximates, ExtendedMantissa.shiftRightOne, bit, bne_self_eq_false, Bool.or_self,
      Bool.or_true, Bool.or_false, show (1 != 0) = true from rfl] at h ⊢ <;>
    first | linarith | constructor <;> linarith

theorem shiftRight (h : Approximates em y) (n : Nat) : Approximates (em >>> n) (y / 2 ^ n) := by
  change Approximates (n.repeat ExtendedMantissa.shiftRightOne em) _
  induction n with
  | zero => simpa [Nat.repeat] using h
  | succ n ih =>
    rw [Nat.repeat, pow_succ, ← div_div]
    exact ih.shiftRightOne

/-- A value at most half a unit away from `m`, and less where `m` is odd, is rounded to `m`. -/
theorem roundedMantissa_eq {m : Nat} (h : Approximates em y) (low : m - 1 / 2 ≤ y)
    (high : y ≤ m + 1 / 2) (inside : m % 2 = 0 ∨ (m - 1 / 2 < y ∧ y < m + 1 / 2)) :
    em.roundedMantissa = m := by
  have below := h.mantissa_le
  have above := h.lt_mantissa_add_one
  have atMost : em.mantissa ≤ m := by
    have : (em.mantissa : ℚ) < m + 1 := by linarith
    exact_mod_cast Nat.lt_add_one_iff.mp (by exact_mod_cast this)
  have atLeast : m ≤ em.mantissa + 1 := by
    have : (m : ℚ) < em.mantissa + 1 + 1 := by linarith
    exact_mod_cast Nat.lt_add_one_iff.mp (by exact_mod_cast this)
  have same : m = em.mantissa ∨ m = em.mantissa + 1 := by omega
  obtain ⟨n, round, sticky⟩ := em
  simp only [Approximates] at h below above same
  rcases same with rfl | rfl
  · cases round with
    | false => cases sticky <;> rfl
    | true =>
      cases sticky with
      | false =>
        have even : m % 2 = 0 := inside.resolve_right fun strict => by linarith [strict.2]
        change m + m % 2 = m
        omega
      | true => linarith [h.1]
  · push_cast at low inside
    cases round with
    | false =>
      cases sticky with
      | false => linarith
      | true => linarith [h.2]
    | true =>
      cases sticky with
      | false =>
        have even : (n + 1) % 2 = 0 := inside.resolve_right fun strict => by linarith [strict.1]
        change n + n % 2 = n + 1
        omega
      | true => rfl

end Approximates

/-- A mantissa and an exponent as a format holds them: as many digits as it has places for, fewer
only at the least exponent. -/
structure Canonical (format : Format) (mantissa : Nat) (exponent : Int) : Prop where
  pos : 0 < mantissa
  lt : mantissa < 2 ^ format.mantissaBits
  min_le : format.minExponent ≤ exponent
  full : 2 ^ format.mantissaBitsWithoutImplicit ≤ mantissa ∨ exponent = format.minExponent

section Target

variable {format : Format}

/-- Mantissas with as many digits as the format has places for keep their exponent. -/
theorem targetExponent_eq_of_log2 {n : Nat} {e t : Int} (min : format.minExponent ≤ t)
    (h : (n.log2 : Int) + 1 + e - format.mantissaBits = t ∨
      (t = format.minExponent ∧ (n.log2 : Int) + 1 + e - format.mantissaBits ≤ t)) :
    format.targetExponent (totalExponent n e) = t := by
  unfold Format.targetExponent totalExponent
  omega

theorem Canonical.targetExponent_eq {m : Nat} {e : Int} (h : Canonical format m e) :
    format.targetExponent (totalExponent m e) = e := by
  have high : m.log2 < format.mantissaBits := (Nat.log2_lt h.pos.ne').mpr h.lt
  apply targetExponent_eq_of_log2 h.min_le
  rcases h.full with full | least
  · have low := (Nat.le_log2 h.pos.ne').mpr full
    unfold Format.mantissaBits at *
    omega
  · omega

/-- A mantissa that is already at its target exponent is not shifted. -/
theorem shiftToTargetExponent_exact {n : Nat} {e : Int}
    (h : format.targetExponent (totalExponent n e) ≤ e) :
    shiftToTargetExponent format n e .exact = (⟨n, false, false⟩, e) := by
  have still : (format.targetExponent (totalExponent n e) - e).toNat = 0 := by omega
  simp only [shiftToTargetExponent, shiftToExponent, still]
  rw [Int.natCast_zero, Int.add_zero]
  rfl

theorem two_zpow_add (a : Nat) (e : Int) : (2 : ℚ) ^ (a + e) = (2 ^ a : Nat) * 2 ^ e := by
  rw [zpow_add₀ two_ne_zero, zpow_natCast, Nat.cast_pow, Nat.cast_ofNat]

/-- The target exponent only depends on where the value lies between powers of two. -/
theorem targetExponent_eq_of_approximates {n : Nat} {e t : Int} {x : ℚ} (le : e ≤ t)
    (floor : (n : ℚ) ≤ x / 2 ^ e ∧ x / 2 ^ e < n + 1) (min : format.minExponent ≤ t)
    (low : (2 : ℚ) ^ (format.mantissaBitsWithoutImplicit + t) ≤ x ∨ t = format.minExponent)
    (high : x < 2 ^ (format.mantissaBits + t)) :
    format.targetExponent (totalExponent n e) = t := by
  obtain ⟨k, rfl⟩ : ∃ k : Nat, t = e + k := ⟨(t - e).toNat, by omega⟩
  have unit : (0 : ℚ) < 2 ^ e := by positivity
  have split (a : Nat) : (2 : ℚ) ^ (a + (e + k)) = (2 ^ (a + k) : Nat) * 2 ^ e := by
    rw [← two_zpow_add]
    congr 1
    omega
  have below : n < 2 ^ (format.mantissaBits + k) := by
    rw [split, ← div_lt_iff₀ unit] at high
    exact_mod_cast floor.1.trans_lt high
  have shorter : n.log2 + 1 ≤ format.mantissaBits + k := by
    by_cases zero : n = 0
    · rw [zero, Nat.log2_zero]
      unfold Format.mantissaBits
      omega
    · have := (Nat.log2_lt zero).mpr below
      omega
  apply targetExponent_eq_of_log2 min
  rcases low with low | least
  · rw [split, ← le_div_iff₀ unit] at low
    have above : 2 ^ (format.mantissaBitsWithoutImplicit + k) ≤ n := by
      have := low.trans_lt floor.2
      exact Nat.lt_add_one_iff.mp (by exact_mod_cast this)
    have some : n ≠ 0 := (Nat.lt_of_lt_of_le (Nat.two_pow_pos _) above).ne'
    have longer := (Nat.le_log2 some).mpr above
    unfold Format.mantissaBits at shorter ⊢
    omega
  · omega

end Target

section Rounding

variable {format : Format} {m : Nat} {e : Int} {x : ℚ}

/-- A quarter of a unit at exponent `e`. -/
theorem quarter_eq (e : Int) : (2 : ℚ) ^ (e - 2) = 2 ^ e / 4 := by
  rw [zpow_sub₀ two_ne_zero]
  norm_num

/-- The interval around a number reaches half a unit up and down, and only a quarter down to
shorter numbers. -/
theorem units_of_has (pos : 0 < m) (h : (Decimal.Interval.around format m e).Has x) :
    m - 1 / 2 ≤ x / 2 ^ e ∧ x / 2 ^ e ≤ m + 1 / 2 ∧
      (m % 2 = 0 ∨ (m - 1 / 2 < x / 2 ^ e ∧ x / 2 ^ e < m + 1 / 2)) ∧
      (m = 2 ^ format.mantissaBitsWithoutImplicit → format.minExponent < e →
        m - 1 / 4 ≤ x / 2 ^ e) := by
  have unit : (0 : ℚ) < 2 ^ e := by positivity
  have one : (1 : ℚ) ≤ m := by exact_mod_cast pos
  rw [le_div_iff₀ unit, div_le_iff₀ unit, lt_div_iff₀ unit, div_lt_iff₀ unit, le_div_iff₀ unit]
  simp only [Decimal.Interval.Has, Decimal.Interval.around, Nat.pow_eq, quarter_eq,
    decide_eq_true_eq] at h
  have low : ((4 * m - 1 : Nat) : ℚ) = 4 * m - 1 ∧ ((4 * m - 2 : Nat) : ℚ) = 4 * m - 2 := by
    rw [Nat.cast_sub (by omega), Nat.cast_sub (by omega)]
    norm_num
  generalize (2 : ℚ) ^ e = u at *
  by_cases edge : m = 2 ^ format.mantissaBitsWithoutImplicit ∧ format.minExponent < e
  · rw [if_pos edge, low.1] at h
    push_cast at h
    by_cases even : m % 2 = 0
    · rw [if_pos even] at h
      exact ⟨by linarith, by linarith, .inl even, fun _ _ => by linarith⟩
    · rw [if_neg even] at h
      exact ⟨by linarith, by linarith, .inr ⟨by linarith, by linarith⟩, fun _ _ => by linarith⟩
  · rw [if_neg edge, low.2] at h
    push_cast at h
    by_cases even : m % 2 = 0
    · rw [if_pos even] at h
      exact ⟨by linarith, by linarith, .inl even, fun shortest more => absurd ⟨shortest, more⟩ edge⟩
    · rw [if_neg even] at h
      exact ⟨by linarith, by linarith, .inr ⟨by linarith, by linarith⟩,
        fun shortest more => absurd ⟨shortest, more⟩ edge⟩

/-- The value is rounded at exponent `t`, where it is `y` units. -/
theorem shiftToTargetExponent_approximates {n : Nat} {start t : Int} {accuracy : Accuracy}
    (le : start ≤ t) (target : format.targetExponent (totalExponent n start) = t)
    (approx : Approximates (.ofMantissaAndAccuracy n accuracy) (x / 2 ^ start)) :
    Approximates (shiftToTargetExponent format n start accuracy).1 (x / 2 ^ t) ∧
      (shiftToTargetExponent format n start accuracy).2 = t := by
  have units : x / 2 ^ start / 2 ^ (t - start).toNat = x / 2 ^ t := by
    rw [div_div, ← zpow_natCast, ← zpow_add₀ two_ne_zero]
    congr 2
    omega
  constructor
  · rw [shiftToTargetExponent, target, ← units]
    exact approx.shiftRight _
  · rw [shiftToTargetExponent, target]
    change start + ((t - start).toNat : Int) = t
    omega

theorem floor_of_approximates {n : Nat} {accuracy : Accuracy} {y : ℚ}
    (h : Approximates (.ofMantissaAndAccuracy n accuracy) y) : (n : ℚ) ≤ y ∧ y < n + 1 := by
  have mantissa : (ExtendedMantissa.ofMantissaAndAccuracy n accuracy).mantissa = n := by
    cases accuracy with
    | exact => rfl
    | inexact o => cases o <;> rfl
  have low := h.mantissa_le
  have high := h.lt_mantissa_add_one
  rw [mantissa] at low high
  exact ⟨low, high⟩

/-- Once the rounded mantissa is known, it only loses a digit that rounding up has added. -/
theorem roundWithAccuracy_eq {sign : Sign} {n : Nat} {start t : Int} {accuracy : Accuracy}
    (h : Canonical format m e) {r : Nat}
    (mantissa : (shiftToTargetExponent format n start accuracy).1.roundedMantissa = r)
    (exponent : (shiftToTargetExponent format n start accuracy).2 = t)
    (final : (shiftToTargetExponent format r t .exact).1.mantissa = m ∧
      (shiftToTargetExponent format r t .exact).2 = e) :
    roundWithAccuracy format sign n start accuracy = .finite sign m e h.pos := by
  simp only [roundWithAccuracy, mantissa, exponent, final]
  rw [dif_neg h.pos.ne']

/-- A value that has the exponent of the number is rounded to it at once. -/
theorem roundWithAccuracy_eq_inside {sign : Sign} {n : Nat} {start : Int} {accuracy : Accuracy}
    (h : Canonical format m e) (has : (Decimal.Interval.around format m e).Has x)
    (approx : Approximates (.ofMantissaAndAccuracy n accuracy) (x / 2 ^ start)) (le : start ≤ e)
    (normal : 2 ^ (format.mantissaBitsWithoutImplicit + e) ≤ x ∨ e = format.minExponent) :
    roundWithAccuracy format sign n start accuracy = .finite sign m e h.pos := by
  obtain ⟨low, high, inside, -⟩ := units_of_has h.pos has
  have unit : (0 : ℚ) < 2 ^ e := by positivity
  have above : x < 2 ^ (format.mantissaBits + e) := by
    have short : (m : ℚ) + 1 ≤ (2 ^ format.mantissaBits : Nat) := by exact_mod_cast h.lt
    rw [two_zpow_add, ← div_lt_iff₀ unit]
    linarith
  have target := targetExponent_eq_of_approximates le (floor_of_approximates approx) h.min_le
    normal above
  obtain ⟨shifted, exponent⟩ := shiftToTargetExponent_approximates le target approx
  apply roundWithAccuracy_eq h (shifted.roundedMantissa_eq low high inside) exponent
  rw [shiftToTargetExponent_exact h.targetExponent_eq.le]
  exact ⟨rfl, rfl⟩

/-- A mantissa that rounding up has made too long moves up by one exponent. -/
theorem targetExponent_carried (least : format.minExponent ≤ e) :
    format.targetExponent
      (totalExponent (2 * 2 ^ format.mantissaBitsWithoutImplicit) (e - 1)) = e := by
  apply targetExponent_eq_of_log2 least
  left
  rw [← pow_succ', Nat.log2_two_pow, Format.mantissaBits]
  omega

/-- A value with a smaller exponent is near to no number but the first with the exponent, and
rounding up leads there. -/
theorem roundWithAccuracy_eq_carried {sign : Sign} {n : Nat} {start : Int} {accuracy : Accuracy}
    (h : Canonical format m e) (has : (Decimal.Interval.around format m e).Has x)
    (approx : Approximates (.ofMantissaAndAccuracy n accuracy) (x / 2 ^ start))
    (before : start < e) (short : x < 2 ^ (format.mantissaBitsWithoutImplicit + e))
    (more : e ≠ format.minExponent) :
    roundWithAccuracy format sign n start accuracy = .finite sign m e h.pos := by
  obtain ⟨low, -, -, edge⟩ := units_of_has h.pos has
  have unit : (0 : ℚ) < 2 ^ e := by positivity
  have least := h.min_le
  rw [two_zpow_add, ← div_lt_iff₀ unit] at short
  obtain rfl : m = 2 ^ format.mantissaBitsWithoutImplicit := by
    have : (m : ℚ) < (2 ^ format.mantissaBitsWithoutImplicit : Nat) + 1 := by linarith
    have atMost := Nat.lt_add_one_iff.mp (by exact_mod_cast this)
    exact Nat.le_antisymm atMost (h.full.resolve_right more)
  have near := edge rfl (lt_of_le_of_ne h.min_le (Ne.symm more))
  have one : (1 : ℚ) ≤ (2 ^ format.mantissaBitsWithoutImplicit : Nat) := by
    exact_mod_cast Nat.one_le_two_pow
  have half : (2 : ℚ) ^ (e - 1) = 2 ^ e / 2 := by
    rw [zpow_sub₀ two_ne_zero, zpow_one]
  have double : x / 2 ^ (e - 1) = 2 * (x / 2 ^ e) := by
    rw [half]
    field_simp
  have target : format.targetExponent (totalExponent n start) = e - 1 := by
    refine targetExponent_eq_of_approximates (by omega) (floor_of_approximates approx) (by omega)
      (.inl ?_) ?_
    · rw [two_zpow_add, half]
      rw [le_div_iff₀ unit] at near
      nlinarith
    · rw [two_zpow_add, half, Format.mantissaBits, pow_add]
      rw [div_lt_iff₀ unit] at short
      push_cast at short ⊢
      linarith
  obtain ⟨shifted, exponent⟩ := shiftToTargetExponent_approximates (by omega) target approx
  have rounded := shifted.roundedMantissa_eq (m := 2 * 2 ^ format.mantissaBitsWithoutImplicit)
    (by rw [double]; push_cast at near ⊢; linarith)
    (by rw [double]; push_cast at short ⊢; linarith) (.inl (by omega))
  apply roundWithAccuracy_eq h rounded exponent
  have once : (e - (e - 1)).toNat = 1 := by omega
  simp only [shiftToTargetExponent, shiftToExponent, targetExponent_carried least, once]
  refine ⟨?_, by omega⟩
  exact Nat.mul_div_cancel_left _ two_pos

/-- Every value in the interval around a number is rounded to it. -/
theorem roundWithAccuracy_eq_of_has {sign : Sign} {n : Nat} {start : Int} {accuracy : Accuracy}
    (h : Canonical format m e) (has : (Decimal.Interval.around format m e).Has x)
    (approx : Approximates (.ofMantissaAndAccuracy n accuracy) (x / 2 ^ start)) (le : start ≤ e)
    (lower : x < 2 ^ (format.mantissaBitsWithoutImplicit + e) → e ≠ format.minExponent →
      start < e) :
    roundWithAccuracy format sign n start accuracy = .finite sign m e h.pos := by
  by_cases normal : 2 ^ (format.mantissaBitsWithoutImplicit + e) ≤ x ∨ e = format.minExponent
  · exact roundWithAccuracy_eq_inside h has approx le normal
  · rw [not_or, not_le] at normal
    obtain ⟨short, more⟩ := normal
    exact roundWithAccuracy_eq_carried h has approx (lower short more) short more

theorem has_value (pos : 0 < m) : (Decimal.Interval.around format m e).Has (m * 2 ^ e) := by
  have unit : (0 : ℚ) < 2 ^ e := by positivity
  have low : 4 * m - (if m = 2 ^ format.mantissaBitsWithoutImplicit ∧ format.minExponent < e
      then 1 else 2) < 4 * m := by
    split <;> omega
  have low' : ((4 * m - (if m = 2 ^ format.mantissaBitsWithoutImplicit ∧ format.minExponent < e
      then 1 else 2) : Nat) : ℚ) < 4 * m := by exact_mod_cast low
  simp only [Decimal.Interval.Has, Decimal.Interval.around, Nat.pow_eq, quarter_eq]
  generalize (2 : ℚ) ^ e = u at *
  push_cast
  split <;> constructor <;> nlinarith

theorem log2_add_unique {v : ℚ} {a b : Int} (ha : (2 : ℚ) ^ a ≤ v ∧ v < 2 ^ (a + 1))
    (hb : (2 : ℚ) ^ b ≤ v ∧ v < 2 ^ (b + 1)) : a = b := by
  have first : a < b + 1 := (zpow_lt_zpow_iff_right₀ one_lt_two).mp (ha.1.trans_lt hb.2)
  have second : b < a + 1 := (zpow_lt_zpow_iff_right₀ one_lt_two).mp (hb.1.trans_lt ha.2)
  omega

theorem log2_value {n : Nat} (some : n ≠ 0) (e : Int) :
    (2 : ℚ) ^ (n.log2 + e) ≤ n * 2 ^ e ∧ (n : ℚ) * 2 ^ e < 2 ^ (n.log2 + e + 1) := by
  have unit : (0 : ℚ) < 2 ^ e := by positivity
  have low : ((2 ^ n.log2 : Nat) : ℚ) ≤ n := by exact_mod_cast Nat.log2_self_le some
  have high : (n : ℚ) < (2 ^ (n.log2 + 1) : Nat) := by exact_mod_cast Nat.lt_log2_self
  rw [show (n.log2 : Int) + e + 1 = (n.log2 + 1 : Nat) + e by push_cast; ring, two_zpow_add,
    two_zpow_add]
  exact ⟨mul_le_mul_of_nonneg_right low unit.le, mul_lt_mul_of_pos_right high unit⟩

/-- Rounding a value that the format has gives it back. -/
theorem round_eq_of_value {sign : Sign} {n : Nat} {start : Int} (h : Canonical format m e)
    (value : (n : ℚ) * 2 ^ start = m * 2 ^ e) :
    UnpackedFloat.round format sign n start = .finite sign m e h.pos := by
  have pos : (0 : ℚ) < m := by exact_mod_cast h.pos
  have some : n ≠ 0 := by
    rintro rfl
    have := mul_pos pos (show (0 : ℚ) < 2 ^ e by positivity)
    simp only [Nat.cast_zero, zero_mul] at value
    linarith
  have place : (n.log2 : Int) + start = m.log2 + e := by
    have low := log2_value some start
    rw [value] at low
    exact log2_add_unique low (log2_value h.pos.ne' e)
  have target : format.targetExponent (totalExponent n start) = e := by
    rw [← h.targetExponent_eq, totalExponent, totalExponent]
    congr 1
    omega
  simp only [UnpackedFloat.round, decreaseExponent, target]
  have down : start - ((start - e).toNat : Int) ≤ e := by omega
  refine roundWithAccuracy_eq_of_has h (has_value h.pos) ?_ down ?_
  · rw [← value, Nat.shiftLeft_eq]
    have units : (n : ℚ) * 2 ^ start / 2 ^ (start - ((start - e).toNat : Int)) =
        (n * 2 ^ (start - e).toNat : Nat) := by
      rw [mul_div_assoc, ← zpow_sub₀ two_ne_zero, sub_sub_cancel, zpow_natCast]
      push_cast
      rfl
    rw [units]
    exact approximates_exact _
  · intro short more
    rw [two_zpow_add] at short
    have less : (m : ℚ) < (2 ^ format.mantissaBitsWithoutImplicit : Nat) :=
      lt_of_mul_lt_mul_right short (by positivity)
    have full := h.full.resolve_right more
    have : m < 2 ^ format.mantissaBitsWithoutImplicit := by exact_mod_cast less
    omega

end Rounding

end Binary
end CallStudy
