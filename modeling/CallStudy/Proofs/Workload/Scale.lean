import CallStudy.Proofs.Number.Double
import CallStudy.Workload.Scale

/-!
Which scaled values are finite. Doubling a double is exact until it overflows, and dividing by three
halves makes smaller; a single is scaled in double precision and overflows only when it is narrowed.
-/

set_option autoImplicit false

namespace CallStudy

open Binary Float.Model

section Scaled

variable {v : Float}

theorem abs_mul_two_lt_iff (x : ℚ) : |x * 2| < 2 ^ 1024 ↔ |x| < 2 ^ 1023 := by
  rw [abs_mul, abs_two, pow_succ (2 : ℚ) 1023, mul_lt_mul_iff_left₀ two_pos]

theorem held_doubled (finite : v.isFinite) : Held .binary64 (value v * 2) := by
  rw [mul_comm]
  exact (isRounded_of_isFinite finite).held.two_mul

theorem isResult_doubled (finite : v.isFinite) :
    IsResult .binary64 (value v * 2) (v * 2.0).toModel.unpack := by
  have product := isResult_mul finite (y := 2.0) rfl
  rwa [value_two] at product

theorem isFinite_doubled_iff (finite : v.isFinite) :
    (v * 2.0).isFinite ↔ |value v| < 2 ^ 1023 := by
  have product := isResult_doubled finite
  rw [← abs_mul_two_lt_iff]
  constructor
  · intro doubled
    by_contra large
    exact product.not_isFinite (by decide) (not_lt.mp large) doubled
  · intro small
    exact product.isFinite_of_le (by decide) (held_doubled finite).abs small le_rfl

theorem value_doubled (finite : v.isFinite) (small : |value v| < 2 ^ 1023) :
    value (v * 2.0) = value v * 2 :=
  (isResult_doubled finite).toRat_eq ((isFinite_doubled_iff finite).mpr small) (held_doubled finite)

theorem isResult_scaled (finite : v.isFinite) (small : |value v| < 2 ^ 1023) :
    IsResult .binary64 (value v * 2 / (3 / 2)) (v * 2.0 / 1.5).toModel.unpack := by
  have doubled := (isFinite_doubled_iff finite).mpr small
  have quotient := isResult_div doubled (y := 1.5) rfl (by norm_num [value_three_halves])
  rwa [value_three_halves, value_doubled finite small] at quotient

/-- A double is scaled within range up to half of the first power of two above all doubles. -/
theorem isFinite_scaled_iff (finite : v.isFinite) :
    (scaleValue v).processed.isFinite ↔ |value v| < 2 ^ 1023 := by
  change (v * 2.0 / 1.5).isFinite ↔ _
  rw [← isFinite_doubled_iff finite]
  constructor
  · intro scaled
    by_contra large
    exact not_isFinite_div large rfl scaled
  · intro doubled
    have small := (isFinite_doubled_iff finite).mp doubled
    have size := (abs_mul_two_lt_iff (value v)).mpr small
    apply (isResult_scaled finite small).isFinite_of_le (by decide) (held_doubled finite).abs size
    rw [abs_div]
    exact div_le_self (abs_nonneg _) (by norm_num)

end Scaled

section ScaledSingle

variable {v : Float32}

theorem abs_scaled (x : ℚ) : |x * 2 / (3 / 2)| = |x| * 4 / 3 := by
  rw [abs_div, abs_mul, abs_two, abs_of_pos (by norm_num : (0 : ℚ) < 3 / 2)]
  ring

/-- In double precision no single overflows. -/
theorem widened_spec (finite : v.isFinite) :
    (widen v * 2.0 / 1.5).isFinite ∧
      IsResult .binary64 (valueSingle v * 2 / (3 / 2)) (widen v * 2.0 / 1.5).toModel.unpack := by
  obtain ⟨wide, same⟩ := widen_spec finite
  have size : |value (widen v)| < 2 ^ 1023 := by
    rw [same]
    apply (abs_valueSingle_lt finite).trans_le
    exact pow_le_pow_right₀ one_le_two (by decide : 128 ≤ 1023)
  have quotient := isResult_scaled wide size
  rw [same] at quotient
  exact ⟨(isFinite_scaled_iff wide).mpr size, quotient⟩

theorem not_isFinite_scaled_single (finite : v.isFinite) (large : 3 * 2 ^ 126 ≤ |valueSingle v|) :
    ¬ (scaleValue v).processed.isFinite := by
  obtain ⟨scaled, quotient⟩ := widened_spec finite
  have reached : (2 : ℚ) ^ 128 ≤ |valueSingle v * 2 / (3 / 2)| := by
    rw [abs_scaled]
    norm_num at large ⊢
    linarith
  have held : Held .binary64 ((2 : ℚ) ^ 128) := (held_limit .binary32).double
  have stored : (2 : ℚ) ^ 128 ≤ |value (widen v * 2.0 / 1.5)| :=
    (quotient.rounds scaled).le_abs_toRat held reached
  exact (isResult_narrow scaled).not_isFinite (by decide) stored

/-- The greatest single, 2^24 - 1 of its units. -/
def greatestSingle : ℚ := (2 ^ 24 - 1 : Nat) * 2 ^ (104 : Int)

theorem held_greatestSingle : Held .binary32 greatestSingle := by
  have short : 2 ^ 24 - 1 ≤ 2 ^ Format.mantissaBits .binary32 := by decide
  exact held_mul_pow .binary32 short (by decide)

theorem greatestSingle_lt : greatestSingle < limit .binary32 := by
  change ((2 ^ 24 - 1 : Nat) * 2 ^ (104 : Int) : ℚ) < 2 ^ (128 : Int)
  norm_num

/-- Below three quarters of the limit a single is at most one unit less, so scaling it leads at most
to the greatest single. -/
theorem abs_scaled_single_le (finite : v.isFinite) (small : |valueSingle v| < 3 * 2 ^ 126) :
    |valueSingle v * 2 / (3 / 2)| ≤ greatestSingle := by
  have last : |valueSingle v| ≤ (3 * 2 ^ 22 - 1 : Nat) * 2 ^ (104 : Int) := by
    have single := isRounded_of_isFinite_single finite
    apply single.abs_toRat_le_pred (by decide)
    norm_num at small ⊢
    exact small
  rw [abs_scaled, greatestSingle]
  norm_num at last ⊢
  linarith

theorem isFinite_scaled_single_iff (finite : v.isFinite) :
    (scaleValue v).processed.isFinite ↔ |valueSingle v| < 3 * 2 ^ 126 := by
  constructor
  · intro result
    by_contra large
    exact not_isFinite_scaled_single finite (not_lt.mp large) result
  · intro small
    obtain ⟨scaled, quotient⟩ := widened_spec finite
    have stored : |value (widen v * 2.0 / 1.5)| ≤ greatestSingle :=
      quotient.abs_toRat_le scaled held_greatestSingle.double (abs_scaled_single_le finite small)
    exact (isResult_narrow scaled).isFinite_of_le (by decide) held_greatestSingle greatestSingle_lt
      stored

end ScaledSingle

end CallStudy
