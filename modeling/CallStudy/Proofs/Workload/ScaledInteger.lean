import CallStudy.Proofs.Number.Nearest
import CallStudy.Proofs.Number.Whole
import CallStudy.Proofs.Workload.Scale

/-!
Scaling integers. Four thirds of an integer lie at least a third below the next integer when they
are none themselves, and a double with room for one more binary digit is nearer to them than that:
their integer part survives the rounding.
-/

set_option autoImplicit false

namespace CallStudy

open Binary Float.Model

namespace Binary

theorem Nearest.neg {format : Format} {q : ℚ} {v : UnpackedFloat} (h : Nearest format q v) :
    Nearest format (-q) v.neg := by
  intro b held
  have opposite := h (-b) held.neg
  rw [toRat_neg, ← abs_neg, ← abs_neg (b - -q)]
  convert opposite using 2 <;> ring

theorem held_half {k : Nat} (short : k < 2 ^ 52) : Held .binary64 ((k : ℚ) + 1 / 2) := by
  have digits : 2 * k + 1 ≤ 2 ^ Format.mantissaBits .binary64 := by
    change 2 * k + 1 ≤ 2 ^ 53
    omega
  have held := held_mul_pow .binary64 digits (by decide : Format.minExponent .binary64 ≤ -1)
  have half : ((2 * k + 1 : Nat) : ℚ) * 2 ^ (-1 : Int) = (k : ℚ) + 1 / 2 := by
    rw [zpow_neg_one]
    push_cast
    ring
  rwa [half] at held

section Third

variable {v : UnpackedFloat}

theorem third_lt_succ {n : Nat} (short : n ≤ 3 * 2 ^ 52)
    (rounds : Rounds .binary64 ((n : ℚ) / 3) v) (near : Nearest .binary64 ((n : ℚ) / 3) v) :
    toRat v < (n / 3 : Nat) + 1 := by
  by_cases whole : 3 * (n / 3) = n
  · have exact : (n : ℚ) / 3 = (n / 3 : Nat) := by
      rw [div_eq_iff (by norm_num), mul_comm]
      exact_mod_cast whole.symm
    have held : Held .binary64 (n / 3 : Nat) := held_natCast (by omega)
    have bound := rounds.le held exact.le
    linarith
  · -- the half way to the next integer is a double at most a sixth away
    have low : ((3 * (n / 3) + 1 : Nat) : ℚ) ≤ n := by exact_mod_cast (by omega : 3 * (n / 3) + 1 ≤ n)
    have high : (n : ℚ) ≤ (3 * (n / 3) + 2 : Nat) := by exact_mod_cast (by omega : n ≤ 3 * (n / 3) + 2)
    have closest := near _ (held_half (by omega : n / 3 < 2 ^ 52))
    have sixth : |((n / 3 : Nat) : ℚ) + 1 / 2 - (n : ℚ) / 3| ≤ 1 / 6 := by
      rw [abs_le]
      push_cast at low high ⊢
      constructor <;> linarith
    have above := (abs_le.mp (closest.trans sixth)).2
    push_cast at high ⊢
    linarith

theorem wholePart_third_natCast {n : Nat} (short : n ≤ 3 * 2 ^ 52)
    (rounds : Rounds .binary64 ((n : ℚ) / 3) v) (near : Nearest .binary64 ((n : ℚ) / 3) v) :
    wholePart (toRat v) = (n / 3 : Nat) := by
  have held : Held .binary64 (n / 3 : Nat) := held_natCast (by omega)
  have low : ((n / 3 : Nat) : ℚ) ≤ toRat v := rounds.ge held Nat.cast_div_le
  have high := third_lt_succ short rounds near
  have nonneg : (0 : ℚ) ≤ toRat v := le_trans (Nat.cast_nonneg _) low
  rw [wholePart, if_pos nonneg, Int.floor_eq_iff]
  exact ⟨by exact_mod_cast low, by exact_mod_cast high⟩

/-- The double nearest to a third of an integer has the same integer part. -/
theorem wholePart_third {n : Int} (short : n.natAbs ≤ 3 * 2 ^ 52)
    (rounds : Rounds .binary64 ((n : ℚ) / 3) v) (near : Nearest .binary64 ((n : ℚ) / 3) v) :
    wholePart (toRat v) = n.tdiv 3 := by
  obtain ⟨m, rfl | rfl⟩ := n.eq_nat_or_neg
  · exact wholePart_third_natCast (by omega) rounds near
  · have opposite : -(((-(m : Int) : Int) : ℚ) / 3) = (m : ℚ) / 3 := by
      push_cast
      ring
    have whole := wholePart_third_natCast (v := v.neg) (n := m) (by omega)
      (opposite ▸ rounds.neg) (opposite ▸ near.neg)
    rw [toRat_neg, wholePart_neg] at whole
    have quotient : (m : Int).tdiv 3 = (m / 3 : Nat) := rfl
    rw [Int.neg_tdiv, quotient, ← whole, neg_neg]

end Third

end Binary

/-- Four thirds of `n` toward zero, clamped to `low` and `high`. -/
def fourThirds (low high n : Int) : Int := max low (min high ((4 * n).tdiv 3))

theorem truncate_scaled {n : Int} (short : n.natAbs ≤ 3 * 2 ^ 50) {low high : Int}
    (below : low ≤ 0) (above : 0 ≤ high) :
    truncate low high (Float.ofInt n * 2.0 / 1.5) = fourThirds low high n := by
  have finite : (Float.ofInt n).isFinite := isFinite_ofInt (by omega)
  have same : value (Float.ofInt n) = n := value_ofInt (by omega)
  have size : |value (Float.ofInt n)| < 2 ^ 1023 := abs_value_ofInt_lt (by omega)
  have doubled := (isFinite_doubled_iff finite).mpr size
  have scaled : (Float.ofInt n * 2.0 / 1.5).isFinite := (isFinite_scaled_iff finite).mpr size
  have third : (n : ℚ) * 2 / (3 / 2) = ((4 * n : Int) : ℚ) / 3 := by
    push_cast
    ring
  have rounds := (isResult_scaled finite size).rounds scaled
  have near := nearest_quotient doubled (y := 1.5) rfl (by norm_num [value_three_halves]) scaled
  rw [value_three_halves, value_doubled finite size] at near
  rw [same, third] at rounds near
  rw [truncate_eq scaled below above, fourThirds]
  exact congrArg (fun w => max low (min high w)) (wholePart_third (by omega) rounds near)

/-- A type whose values are the integers from `low` to `high` and are scaled as such. -/
structure Integral {α : Type} [Scalable α] (toInt : α → Int) (low high : Int) : Prop where
  lt_iff (a b : α) : a < b ↔ toInt a < toInt b
  mem (v : α) : low ≤ toInt v ∧ toInt v ≤ high
  toReal (v : α) : Scalable.toReal v = .ofInt (toInt v)
  toInt_ofReal (x : Float) : toInt (Scalable.ofReal x : α) = truncate low high x

theorem integral_int8 : Integral Int8.toInt Int8.minValue.toInt Int8.maxValue.toInt where
  lt_iff a b := Int8.lt_iff_toInt_lt
  mem v := ⟨v.le_toInt, Int.lt_add_one_iff.mp v.toInt_lt⟩
  toReal v := rfl
  toInt_ofReal x := by
    obtain ⟨low, high⟩ := truncate_mem (by decide : Int8.minValue.toInt ≤ 0)
      (by decide : 0 ≤ Int8.maxValue.toInt) x
    exact Int8.toInt_ofInt_of_le low (Int.lt_add_one_of_le high)

theorem integral_int16 : Integral Int16.toInt Int16.minValue.toInt Int16.maxValue.toInt where
  lt_iff a b := Int16.lt_iff_toInt_lt
  mem v := ⟨v.le_toInt, Int.lt_add_one_iff.mp v.toInt_lt⟩
  toReal v := rfl
  toInt_ofReal x := by
    obtain ⟨low, high⟩ := truncate_mem (by decide : Int16.minValue.toInt ≤ 0)
      (by decide : 0 ≤ Int16.maxValue.toInt) x
    exact Int16.toInt_ofInt_of_le low (Int.lt_add_one_of_le high)

theorem integral_int32 : Integral Int32.toInt Int32.minValue.toInt Int32.maxValue.toInt where
  lt_iff a b := Int32.lt_iff_toInt_lt
  mem v := ⟨v.le_toInt, Int.lt_add_one_iff.mp v.toInt_lt⟩
  toReal v := rfl
  toInt_ofReal x := by
    obtain ⟨low, high⟩ := truncate_mem (by decide : Int32.minValue.toInt ≤ 0)
      (by decide : 0 ≤ Int32.maxValue.toInt) x
    exact Int32.toInt_ofInt_of_le low (Int.lt_add_one_of_le high)

theorem integral_int64 : Integral Int64.toInt Int64.minValue.toInt Int64.maxValue.toInt where
  lt_iff a b := Int64.lt_iff_toInt_lt
  mem v := ⟨v.le_toInt, Int.lt_add_one_iff.mp v.toInt_lt⟩
  toReal v := rfl
  toInt_ofReal x := by
    obtain ⟨low, high⟩ := truncate_mem (by decide : Int64.minValue.toInt ≤ 0)
      (by decide : 0 ≤ Int64.maxValue.toInt) x
    exact Int64.toInt_ofInt_of_le low (Int.lt_add_one_of_le high)

theorem Integral.toInt_processed {α : Type} [Scalable α] {toInt : α → Int} {low high : Int}
    (h : Integral toInt low high) (v : α) :
    toInt (scaleValue v).processed = truncate low high (Float.ofInt (toInt v) * 2.0 / 1.5) := by
  rw [scaleValue, h.toInt_ofReal, h.toReal]

/-- Integers are scaled exactly: four thirds toward zero, clamped to the type. Of 64 bits only those
up to 3 · 2^50 are. -/
theorem scaleValue_integer :
    (∀ v : Int8, (scaleValue v).unscaled = v ∧ (scaleValue v).processed.toInt =
      fourThirds Int8.minValue.toInt Int8.maxValue.toInt v.toInt) ∧
    (∀ v : Int16, (scaleValue v).unscaled = v ∧ (scaleValue v).processed.toInt =
      fourThirds Int16.minValue.toInt Int16.maxValue.toInt v.toInt) ∧
    (∀ v : Int32, (scaleValue v).unscaled = v ∧ (scaleValue v).processed.toInt =
      fourThirds Int32.minValue.toInt Int32.maxValue.toInt v.toInt) ∧
    (∀ v : Int64, v.toInt.natAbs ≤ 3 * 2 ^ 50 →
      (scaleValue v).unscaled = v ∧ (scaleValue v).processed.toInt =
        fourThirds Int64.minValue.toInt Int64.maxValue.toInt v.toInt) := by
  refine ⟨?_, ?_, ?_, ?_⟩
  · intro v
    have low := v.le_toInt
    have high := v.toInt_lt
    refine ⟨rfl, ?_⟩
    rw [integral_int8.toInt_processed]
    exact truncate_scaled (by omega) (by decide) (by decide)
  · intro v
    have low := v.le_toInt
    have high := v.toInt_lt
    refine ⟨rfl, ?_⟩
    rw [integral_int16.toInt_processed]
    exact truncate_scaled (by omega) (by decide) (by decide)
  · intro v
    have low := v.le_toInt
    have high := v.toInt_lt
    refine ⟨rfl, ?_⟩
    rw [integral_int32.toInt_processed]
    exact truncate_scaled (by omega) (by decide) (by decide)
  · intro v short
    refine ⟨rfl, ?_⟩
    rw [integral_int64.toInt_processed]
    exact truncate_scaled short (by decide) (by decide)

theorem scaleValue_integer_largest :
    (3 * 2 ^ 50 : Int64).toInt.natAbs ≤ 3 * 2 ^ 50 ∧
      (scaleValue (3 * 2 ^ 50 : Int64)).processed.toInt = 2 ^ 52 := by
  have short : (3 * 2 ^ 50 : Int64).toInt.natAbs ≤ 3 * 2 ^ 50 := by decide
  refine ⟨short, ?_⟩
  rw [(scaleValue_integer.2.2.2 _ short).2]
  decide

/-- Two more, and the double nearest to four thirds is the next integer. -/
example : (scaleValue (3 * 2 ^ 50 + 2 : Int64)).processed.toInt = 2 ^ 52 + 3 := by decide +kernel

end CallStudy
