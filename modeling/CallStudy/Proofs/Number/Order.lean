import CallStudy.Proofs.Number.Packing

/-!
Rounding keeps order. What a number is rounded to lies on the same side of every number of the
format as the number itself, so the results of operations stay within the bounds of the exact ones,
and only those that reach the first power of two above all finite numbers become infinite.
-/

set_option autoImplicit false

namespace CallStudy.Binary

open Float.Model (Format totalExponent UnpackedFloat)
open Float.Model.UnpackedFloat

namespace Approximates

variable {em : ExtendedMantissa} {y : ℚ}

theorem le_roundedMantissa (h : Approximates em y) {k : Nat} (low : (k : ℚ) ≤ y) :
    k ≤ em.roundedMantissa := by
  have below : k < em.mantissa + 1 := by
    have above := h.lt_mantissa_add_one
    exact_mod_cast low.trans_lt above
  have rounded : em.mantissa ≤ em.roundedMantissa := by
    obtain ⟨m, round, sticky⟩ := em
    cases round <;> cases sticky <;> simp [ExtendedMantissa.roundedMantissa,
      ExtendedMantissa.accuracy, Accuracy.roundToNearestEven]
  omega

theorem roundedMantissa_le (h : Approximates em y) {k : Nat} (high : y ≤ k) :
    em.roundedMantissa ≤ k := by
  have below : em.mantissa ≤ k := by
    have floor := h.mantissa_le
    exact_mod_cast floor.trans high
  obtain ⟨m, round, sticky⟩ := em
  -- without residual bits the mantissa is exact, with them it is below `k`
  have inexact (more : (m : ℚ) < y) : m + 1 ≤ k := by
    exact_mod_cast more.trans_le high
  cases round with
  | false => cases sticky <;> exact below
  | true =>
    cases sticky with
    | false =>
      have half : y = m + 1 / 2 := h
      have next := inexact (by linarith)
      have even : m % 2 ≤ 1 := by omega
      change m + m % 2 ≤ k
      omega
    | true =>
      have more : (m : ℚ) + 1 / 2 < y := h.1
      exact inexact (by linarith)

end Approximates

section Magnitude

variable {format : Format} {x : ℚ}

/-- A number rounded at an exponent: its units there are `r`, on the same side of every whole
number of units, and the exponent is the one that the format has for the number. -/
structure RoundedAt (format : Format) (x : ℚ) (t : Int) (r : Nat) : Prop where
  least : format.minExponent ≤ t
  high : x < 2 ^ (format.mantissaBits + t)
  low : t = format.minExponent ∨ 2 ^ (format.mantissaBitsWithoutImplicit + t) ≤ x
  le {k : Nat} : x ≤ k * 2 ^ t → r ≤ k
  ge {k : Nat} : k * 2 ^ t ≤ x → k ≤ r

/-- A number whose whole units are `n` has the digits of `n`. -/
theorem lt_two_zpow_of_floor {n : Nat} {start : Int} (floor : x / 2 ^ start < n + 1) :
    x < 2 ^ ((n.log2 + 1 : Nat) + start) := by
  have digits : ((n + 1 : Nat) : ℚ) ≤ (2 ^ (n.log2 + 1) : Nat) := by
    exact_mod_cast Nat.lt_log2_self
  rw [two_zpow_add, ← div_lt_iff₀ (by positivity)]
  push_cast at digits ⊢
  exact floor.trans_le digits

theorem two_zpow_le_of_floor {n : Nat} (some : n ≠ 0) {start : Int} (floor : n ≤ x / 2 ^ start) :
    2 ^ (n.log2 + start) ≤ x := by
  have digits : ((2 ^ n.log2 : Nat) : ℚ) ≤ n := by exact_mod_cast Nat.log2_self_le some
  rw [two_zpow_add, ← le_div_iff₀ (by positivity)]
  exact digits.trans floor

theorem roundedAt_of_approximates {n : Nat} {start : Int} {accuracy : Accuracy}
    (le : start ≤ format.targetExponent (totalExponent n start))
    (approx : Approximates (.ofMantissaAndAccuracy n accuracy) (x / 2 ^ start)) :
    RoundedAt format x (shiftToTargetExponent format n start accuracy).2
      (shiftToTargetExponent format n start accuracy).1.roundedMantissa := by
  obtain ⟨shifted, exponent⟩ := shiftToTargetExponent_approximates le rfl approx
  rw [exponent]
  have floor := floor_of_approximates approx
  have target : (0 : ℚ) < 2 ^ format.targetExponent (totalExponent n start) := by positivity
  unfold Format.targetExponent totalExponent at le target shifted ⊢
  generalize chosen : max ((n.log2 : Int) + 1 + start - format.mantissaBits) format.minExponent = t
    at le target shifted ⊢
  refine ⟨by omega, ?_, ?_, ?_, ?_⟩
  · apply (lt_two_zpow_of_floor floor.2).trans_le
    exact zpow_le_zpow_right₀ one_le_two (by push_cast; omega)
  · by_cases smallest : t = format.minExponent
    · exact .inl smallest
    · right
      have bits : 1 < format.mantissaBits := by
        have some := format.hm
        unfold Format.mantissaBits
        omega
      have some : n ≠ 0 := by
        rintro rfl
        rw [Nat.log2_zero] at chosen
        omega
      have place : (format.mantissaBitsWithoutImplicit : Int) + t = n.log2 + start := by
        unfold Format.mantissaBits at chosen
        omega
      rw [place]
      exact two_zpow_le_of_floor some floor.1
  · intro k bound
    rw [← div_le_iff₀ target] at bound
    exact shifted.roundedMantissa_le bound
  · intro k bound
    rw [← le_div_iff₀ target] at bound
    exact shifted.le_roundedMantissa bound

namespace RoundedAt

variable {t : Int} {r : Nat}

/-- Rounding up adds at most one digit. -/
theorem le_full (h : RoundedAt format x t r) : r ≤ 2 ^ format.mantissaBits := by
  apply h.le
  have high := h.high
  rw [two_zpow_add] at high
  exact high.le

theorem full_le (h : RoundedAt format x t r) (more : t ≠ format.minExponent) :
    2 ^ format.mantissaBitsWithoutImplicit ≤ r := by
  apply h.ge
  have low := h.low.resolve_left more
  rwa [two_zpow_add] at low

end RoundedAt

/-- A number with a greater exponent is a whole number of units. -/
theorem exists_units (m : Nat) {t e : Int} (le : t ≤ e) : ∃ k : Nat, (m : ℚ) * 2 ^ e = k * 2 ^ t := by
  obtain ⟨j, rfl⟩ : ∃ j : Nat, e = j + t := ⟨(e - t).toNat, by omega⟩
  refine ⟨m * 2 ^ j, ?_⟩
  rw [two_zpow_add]
  push_cast
  ring

/-- A number with a smaller exponent is below the first one with the exponent. -/
theorem Canonical.lt_of_lt {m : Nat} {t e : Int} (h : Canonical format m e) (lt : e < t) :
    (m : ℚ) * 2 ^ e < 2 ^ (format.mantissaBitsWithoutImplicit + t) := by
  have short : (m : ℚ) < (2 ^ format.mantissaBits : Nat) := by exact_mod_cast h.lt
  have below : (m : ℚ) * 2 ^ e < 2 ^ (format.mantissaBits + e) := by
    rw [two_zpow_add]
    exact mul_lt_mul_of_pos_right short (by positivity)
  apply below.trans_le
  apply zpow_le_zpow_right₀ one_le_two
  unfold Format.mantissaBits
  push_cast
  omega

/-- Below `k` units, of which there are more than the least full mantissa, a number is at most
`k - 1` units. -/
theorem Canonical.le_pred {m k : Nat} {t e : Int} (h : Canonical format m e)
    (full : 2 ^ format.mantissaBitsWithoutImplicit < k) (below : (m : ℚ) * 2 ^ e < k * 2 ^ t) :
    (m : ℚ) * 2 ^ e ≤ (k - 1 : Nat) * 2 ^ t := by
  have unit : (0 : ℚ) < 2 ^ t := by positivity
  by_cases le : t ≤ e
  · obtain ⟨n, units⟩ := exists_units m le
    rw [units] at below ⊢
    have fewer : n < k := by exact_mod_cast lt_of_mul_lt_mul_right below unit.le
    have whole : (n : ℚ) ≤ (k - 1 : Nat) := by exact_mod_cast Nat.le_sub_one_of_lt fewer
    exact mul_le_mul_of_nonneg_right whole unit.le
  · have short := h.lt_of_lt (t := t) (by omega)
    rw [two_zpow_add] at short
    have whole : ((2 ^ format.mantissaBitsWithoutImplicit : Nat) : ℚ) ≤ (k - 1 : Nat) := by
      exact_mod_cast Nat.le_sub_one_of_lt full
    exact short.le.trans (mul_le_mul_of_nonneg_right whole unit.le)

/-- Above `k` units, which are at least the least full mantissa, a number is at least `k + 1`
units. -/
theorem Canonical.succ_le {m k : Nat} {t e : Int} (h : Canonical format m e)
    (full : 2 ^ format.mantissaBitsWithoutImplicit ≤ k) (above : (k : ℚ) * 2 ^ t < m * 2 ^ e) :
    ((k + 1 : Nat) : ℚ) * 2 ^ t ≤ m * 2 ^ e := by
  have unit : (0 : ℚ) < 2 ^ t := by positivity
  by_cases le : t ≤ e
  · obtain ⟨n, units⟩ := exists_units m le
    rw [units] at above ⊢
    have more : k < n := by exact_mod_cast lt_of_mul_lt_mul_right above unit.le
    have whole : ((k + 1 : Nat) : ℚ) ≤ n := by exact_mod_cast more
    exact mul_le_mul_of_nonneg_right whole unit.le
  · have short := h.lt_of_lt (t := t) (by omega)
    rw [two_zpow_add] at short
    have whole : ((2 ^ format.mantissaBitsWithoutImplicit : Nat) : ℚ) ≤ k := by exact_mod_cast full
    have below := short.trans_le (mul_le_mul_of_nonneg_right whole unit.le)
    exact absurd below above.asymm

namespace RoundedAt

variable {t : Int} {r : Nat}

theorem le_of_canonical (h : RoundedAt format x t r) {m : Nat} {e : Int}
    (canonical : Canonical format m e) (bound : x ≤ m * 2 ^ e) : (r : ℚ) * 2 ^ t ≤ m * 2 ^ e := by
  have unit : (0 : ℚ) < 2 ^ t := by positivity
  by_cases above : t ≤ e
  · obtain ⟨k, units⟩ := exists_units m above
    rw [units] at bound ⊢
    have whole : (r : ℚ) ≤ k := by exact_mod_cast h.le bound
    exact mul_le_mul_of_nonneg_right whole unit.le
  · have least := canonical.min_le
    have low := h.low.resolve_left (by omega)
    have below := canonical.lt_of_lt (t := t) (by omega)
    linarith

theorem ge_of_canonical (h : RoundedAt format x t r) {m : Nat} {e : Int}
    (canonical : Canonical format m e) (bound : m * 2 ^ e ≤ x) : (m : ℚ) * 2 ^ e ≤ r * 2 ^ t := by
  have unit : (0 : ℚ) < 2 ^ t := by positivity
  by_cases above : t ≤ e
  · obtain ⟨k, units⟩ := exists_units m above
    rw [units] at bound ⊢
    have whole : (k : ℚ) ≤ r := by exact_mod_cast h.ge bound
    exact mul_le_mul_of_nonneg_right whole unit.le
  · have least := canonical.min_le
    have below := canonical.lt_of_lt (t := t) (by omega)
    have full : ((2 ^ format.mantissaBitsWithoutImplicit : Nat) : ℚ) ≤ r := by
      exact_mod_cast h.full_le (by omega)
    rw [two_zpow_add] at below
    have units := mul_le_mul_of_nonneg_right full unit.le
    linarith

/-- What is rounded at an exponent has a canonical form, unless it is zero. -/
theorem exists_canonical (h : RoundedAt format x t r) (some : r ≠ 0) :
    ∃ m e, Canonical format m e ∧ (m : ℚ) * 2 ^ e = r * 2 ^ t ∧
      (shiftToTargetExponent format r t .exact).1.mantissa = m ∧
      (shiftToTargetExponent format r t .exact).2 = e := by
  have full := h.full_le
  have least := h.least
  by_cases short : r < 2 ^ format.mantissaBits
  · have canonical : Canonical format r t := by
      refine ⟨by omega, short, least, ?_⟩
      by_cases smallest : t = format.minExponent
      · exact .inr smallest
      · exact .inl (full smallest)
    refine ⟨r, t, canonical, rfl, ?_⟩
    rw [shiftToTargetExponent_exact canonical.targetExponent_eq.le]
    exact ⟨rfl, rfl⟩
  · -- rounding up has added a digit
    have carried : r = 2 * 2 ^ format.mantissaBitsWithoutImplicit := by
      have most := h.le_full
      rw [Format.mantissaBits, pow_add] at short most
      omega
    have target : format.targetExponent
        (totalExponent (2 * 2 ^ format.mantissaBitsWithoutImplicit) (t + 1 - 1)) = t + 1 :=
      targetExponent_carried (by omega)
    rw [Int.add_sub_cancel] at target
    have once : (t + 1 - t).toNat = 1 := by omega
    refine ⟨2 ^ format.mantissaBitsWithoutImplicit, t + 1, ?_, ?_, ?_⟩
    · refine ⟨Nat.two_pow_pos _, ?_, by omega, .inl le_rfl⟩
      apply Nat.pow_lt_pow_right (by decide)
      unfold Format.mantissaBits
      omega
    · rw [carried, zpow_add₀ two_ne_zero, zpow_one]
      push_cast
      ring
    · rw [carried]
      simp only [shiftToTargetExponent, shiftToExponent, target, once]
      exact ⟨Nat.mul_div_cancel_left _ two_pos, rfl⟩

end RoundedAt

end Magnitude

/-- A number with a sign. -/
def signed (sign : Sign) (x : ℚ) : ℚ :=
  match sign with
  | .positive => x
  | .negative => -x

/-- The number that a value stands for, zero for the special ones. -/
def toRat : UnpackedFloat → ℚ
  | .finite sign m e _ => signed sign (m * 2 ^ e)
  | .zero _ => 0
  | .infinity _ => 0
  | .notANumber => 0

@[simp] theorem toRat_zero (sign : Sign) : toRat (.zero sign) = 0 := rfl

@[simp] theorem toRat_finite (sign : Sign) {m : Nat} (e : Int) (pos : 0 < m) :
    toRat (.finite sign m e pos) = signed sign (m * 2 ^ e) := rfl

/-- The numbers that a format would have without a greatest exponent. -/
inductive Held (format : Format) : ℚ → Prop
  | zero : Held format 0
  | finite (sign : Sign) {m : Nat} {e : Int} (h : Canonical format m e) :
    Held format (signed sign (m * 2 ^ e))

/-- Values that stand for numbers. -/
def IsRounded (format : Format) : UnpackedFloat → Prop
  | .finite _ m e _ => Canonical format m e
  | .zero _ => True
  | _ => False

theorem IsRounded.zero_or_finite {format : Format} {v : UnpackedFloat} (h : IsRounded format v) :
    (∃ sign, v = .zero sign) ∨ ∃ sign m e, ∃ c : Canonical format m e, v = .finite sign m e c.pos := by
  cases v with
  | notANumber => cases h
  | infinity sign => cases h
  | zero sign => exact .inl ⟨sign, rfl⟩
  | finite sign m e pos => exact .inr ⟨sign, m, e, h, rfl⟩

/-- What `q` is rounded to lies on the same side of every number of the format. -/
structure Rounds (format : Format) (q : ℚ) (r : UnpackedFloat) : Prop where
  isRounded : IsRounded format r
  le {b : ℚ} (held : Held format b) : q ≤ b → toRat r ≤ b
  ge {b : ℚ} (held : Held format b) : b ≤ q → b ≤ toRat r

variable {format : Format}

theorem Held.neg {b : ℚ} (held : Held format b) : Held format (-b) := by
  cases held with
  | zero => simpa using Held.zero
  | finite sign h =>
    cases sign with
    | positive => exact .finite .negative h
    | negative => simpa [signed] using Held.finite .positive h

namespace RoundedAt

variable {x b : ℚ} {t : Int} {r : Nat}

theorem le_of_held (h : RoundedAt format x t r) (nonneg : 0 ≤ x) (held : Held format b)
    (bound : x ≤ b) : (r : ℚ) * 2 ^ t ≤ b := by
  cases held with
  | zero =>
    have none : r ≤ 0 := h.le (by simpa using bound)
    simp [Nat.le_zero.mp none]
  | @finite sign m e canonical =>
    cases sign with
    | positive => exact h.le_of_canonical canonical bound
    | negative =>
      have pos : (0 : ℚ) < m := by exact_mod_cast canonical.pos
      have size : (0 : ℚ) < m * 2 ^ e := by positivity
      have other : x ≤ -(m * 2 ^ e) := bound
      linarith

theorem ge_of_held (h : RoundedAt format x t r) (held : Held format b) (bound : b ≤ x) :
    b ≤ (r : ℚ) * 2 ^ t := by
  cases held with
  | zero => positivity
  | @finite sign m e canonical =>
    cases sign with
    | positive => exact h.ge_of_canonical canonical bound
    | negative =>
      have other : -((m : ℚ) * 2 ^ e) ≤ r * 2 ^ t := by
        have size : (0 : ℚ) ≤ m * 2 ^ e := by positivity
        have result : (0 : ℚ) ≤ r * 2 ^ t := by positivity
        linarith
      exact other

/-- A magnitude and its sign. -/
theorem rounds (h : RoundedAt format x t r) (nonneg : 0 ≤ x) {sign : Sign} {v : UnpackedFloat}
    (isRounded : IsRounded format v) (value : toRat v = signed sign (r * 2 ^ t)) :
    Rounds format (signed sign x) v := by
  refine ⟨isRounded, fun {b} held bound => ?_, fun {b} held bound => ?_⟩
  · rw [value]
    cases sign with
    | positive => exact h.le_of_held nonneg held bound
    | negative =>
      have low : -b ≤ x := neg_le.mp bound
      exact neg_le.mp (h.ge_of_held held.neg low)
  · rw [value]
    cases sign with
    | positive => exact h.ge_of_held held bound
    | negative =>
      have high : x ≤ -b := le_neg.mp bound
      exact le_neg.mp (h.le_of_held nonneg held.neg high)

end RoundedAt

/-! Rounding of exact results. -/

theorem roundWithAccuracy_eq_zero {sign : Sign} {n : Nat} {start : Int} {accuracy : Accuracy}
    (least : format.minExponent ≤ (shiftToTargetExponent format n start accuracy).2)
    (none : (shiftToTargetExponent format n start accuracy).1.roundedMantissa = 0) :
    roundWithAccuracy format sign n start accuracy = .zero sign := by
  have still : format.targetExponent
      (totalExponent 0 (shiftToTargetExponent format n start accuracy).2) ≤
        (shiftToTargetExponent format n start accuracy).2 := by
    have digits : Nat.log2 0 = 0 := Nat.log2_zero
    unfold Format.targetExponent totalExponent Format.mantissaBits
    omega
  simp only [roundWithAccuracy, none]
  rw [dif_pos]
  rw [shiftToTargetExponent_exact still]

theorem rounds_roundWithAccuracy {sign : Sign} {n : Nat} {start : Int} {accuracy : Accuracy}
    {x : ℚ} (nonneg : 0 ≤ x) (le : start ≤ format.targetExponent (totalExponent n start))
    (approx : Approximates (.ofMantissaAndAccuracy n accuracy) (x / 2 ^ start)) :
    Rounds format (signed sign x) (roundWithAccuracy format sign n start accuracy) := by
  have rounded := roundedAt_of_approximates le approx
  by_cases none : (shiftToTargetExponent format n start accuracy).1.roundedMantissa = 0
  · rw [roundWithAccuracy_eq_zero rounded.least none]
    refine rounded.rounds nonneg trivial ?_
    rw [none]
    cases sign <;> simp [toRat, signed]
  · obtain ⟨m, e, canonical, value, mantissa, exponent⟩ := rounded.exists_canonical none
    rw [roundWithAccuracy_eq canonical rfl rfl ⟨mantissa, exponent⟩]
    refine rounded.rounds nonneg canonical ?_
    rw [← value]
    rfl

theorem log2_shiftLeft {n : Nat} (pos : 0 < n) (j : Nat) : (n <<< j).log2 = n.log2 + j := by
  have shifted : n * 2 ^ j ≠ 0 := (Nat.mul_pos pos (Nat.two_pow_pos j)).ne'
  rw [Nat.shiftLeft_eq, Nat.log2_eq_iff shifted]
  constructor
  · rw [pow_add]
    exact Nat.mul_le_mul_right _ (Nat.log2_self_le pos.ne')
  · rw [Nat.add_right_comm, pow_add]
    exact Nat.mul_lt_mul_of_pos_right Nat.lt_log2_self (Nat.two_pow_pos j)

theorem rounds_round (format : Format) (sign : Sign) {n : Nat} (pos : 0 < n) (start : Int) :
    Rounds format (signed sign (n * 2 ^ start)) (UnpackedFloat.round format sign n start) := by
  generalize down : (start - format.targetExponent (totalExponent n start)).toNat = j
  have total : totalExponent (n <<< j) (start - j) = totalExponent n start := by
    have digits := log2_shiftLeft pos j
    unfold totalExponent
    omega
  have units : (n : ℚ) * 2 ^ start / 2 ^ (start - j) = (n <<< j : Nat) := by
    rw [mul_div_assoc, ← zpow_sub₀ two_ne_zero, sub_sub_cancel, zpow_natCast, Nat.shiftLeft_eq]
    push_cast
    rfl
  simp only [UnpackedFloat.round, decreaseExponent, down]
  apply rounds_roundWithAccuracy (by positivity)
  · rw [total]
    omega
  · rw [units]
    exact approximates_exact _

theorem rounds_normalize (format : Format) (n start : Int) (zeroSign : Sign) :
    Rounds format (n * 2 ^ start) (UnpackedFloat.normalize format n start zeroSign) := by
  unfold UnpackedFloat.normalize
  rcases lt_trichotomy n 0 with negative | rfl | positive
  · have size : ((-n).toNat : ℚ) = -n := by
      have : ((-n).toNat : Int) = -n := by omega
      exact_mod_cast this
    have rounds := rounds_round format .negative (n := (-n).toNat) (by omega) start
    rw [size, signed, neg_mul, neg_neg] at rounds
    rw [Int.compare_eq_lt.mpr negative]
    exact rounds
  · rw [Int.compare_eq_eq.mpr rfl]
    refine ⟨trivial, ?_, ?_⟩ <;> intro b held bound <;> simpa [toRat] using bound
  · have size : (n.toNat : ℚ) = n := by
      have : (n.toNat : Int) = n := by omega
      exact_mod_cast this
    have rounds := rounds_round format .positive (n := n.toNat) (by omega) start
    rw [size, signed] at rounds
    rw [Int.compare_eq_gt.mpr positive]
    exact rounds

/-- Numbers of the format are rounded to themselves. -/
theorem rounds_self {v : UnpackedFloat} (isRounded : IsRounded format v) :
    Rounds format (toRat v) v := ⟨isRounded, fun _ => id, fun _ => id⟩

/-! Operations. -/

theorem signed_mul (a b : Sign) (x y : ℚ) :
    signed a x * signed b y = signed (a * b) (x * y) := by
  cases a <;> cases b
  · exact neg_mul_neg x y
  · exact neg_mul x y
  · exact mul_neg x y
  · rfl

theorem signed_div (a b : Sign) (x y : ℚ) :
    signed a x / signed b y = signed (a / b) (x / y) := by
  cases a <;> cases b
  · exact neg_div_neg_eq x y
  · exact neg_div y x
  · exact div_neg x
  · rfl

/-- A number in units of a smaller exponent. -/
theorem signed_eq_apply (sign : Sign) (m : Nat) {low e : Int} (le : low ≤ e) :
    signed sign (m * 2 ^ e) = (sign.apply (m <<< (e - low).toNat : Nat) : Int) * 2 ^ low := by
  have units : (m : ℚ) * 2 ^ e = (m <<< (e - low).toNat : Nat) * 2 ^ low := by
    have split : (2 : ℚ) ^ e = 2 ^ ((e - low).toNat + low) := by
      congr 1
      omega
    rw [split, two_zpow_add, Nat.shiftLeft_eq]
    push_cast
    ring
  rw [units]
  cases sign with
  | positive => rfl
  | negative =>
    rw [Sign.apply, Int.cast_neg, neg_mul, Int.cast_natCast]
    rfl

theorem rounds_zero (sign : Sign) : Rounds format 0 (.zero sign) :=
  rounds_self (v := .zero sign) trivial

theorem rounds_add {a b : UnpackedFloat} (ha : IsRounded format a) (hb : IsRounded format b) :
    Rounds format (toRat a + toRat b) (UnpackedFloat.add format a b) := by
  rcases ha.zero_or_finite with ⟨s, rfl⟩ | ⟨s, m, e, h, rfl⟩
  · rcases hb.zero_or_finite with ⟨t, rfl⟩ | ⟨t, n, f, g, rfl⟩
    · rw [toRat_zero, toRat_zero, add_zero]
      cases s <;> cases t <;> exact rounds_zero _
    · rw [toRat_zero, zero_add]
      exact rounds_self hb
  · rcases hb.zero_or_finite with ⟨t, rfl⟩ | ⟨t, n, f, g, rfl⟩
    · rw [toRat_zero, add_zero]
      exact rounds_self ha
    · have sum := rounds_normalize format
        (s.apply (m <<< (e - min e f).toNat : Nat) + t.apply (n <<< (f - min e f).toNat : Nat))
        (min e f) .positive
      rw [Int.cast_add, add_mul, ← signed_eq_apply s m (min_le_left e f),
        ← signed_eq_apply t n (min_le_right e f)] at sum
      exact sum

theorem rounds_sub {a b : UnpackedFloat} (ha : IsRounded format a) (hb : IsRounded format b) :
    Rounds format (toRat a - toRat b) (UnpackedFloat.sub format a b) := by
  rcases ha.zero_or_finite with ⟨s, rfl⟩ | ⟨s, m, e, h, rfl⟩
  · rcases hb.zero_or_finite with ⟨t, rfl⟩ | ⟨t, n, f, g, rfl⟩
    · rw [toRat_zero, toRat_zero, sub_zero]
      cases s <;> cases t <;> exact rounds_zero _
    · have opposite : toRat (.zero s) - toRat (.finite t n f g.pos) =
          toRat (.finite (-t) n f g.pos) := by
        rw [toRat_zero, zero_sub]
        cases t
        · exact neg_neg _
        · rfl
      rw [opposite]
      exact rounds_self hb
  · rcases hb.zero_or_finite with ⟨t, rfl⟩ | ⟨t, n, f, g, rfl⟩
    · rw [toRat_zero, sub_zero]
      exact rounds_self ha
    · have difference := rounds_normalize format
        (s.apply (m <<< (e - min e f).toNat : Nat) - t.apply (n <<< (f - min e f).toNat : Nat))
        (min e f) .positive
      rw [Int.cast_sub, sub_mul, ← signed_eq_apply s m (min_le_left e f),
        ← signed_eq_apply t n (min_le_right e f)] at difference
      exact difference

theorem minExponent_nonpos (format : Format) : format.minExponent ≤ 0 := by
  have power : (1 : Int) ≤ 2 ^ (format.exponentBits - 1) := by exact_mod_cast Nat.one_le_two_pow
  have some := format.hm
  unfold Format.minExponent Format.mantissaBits
  omega

/-- A product of canonical numbers has places enough for rounding. -/
theorem Canonical.add_le_targetExponent {m n : Nat} {e f : Int} (h : Canonical format m e)
    (g : Canonical format n f) :
    e + f ≤ format.targetExponent (totalExponent (m * n) (e + f)) := by
  have some : m * n ≠ 0 := (Nat.mul_pos h.pos g.pos).ne'
  have small := minExponent_nonpos format
  have long (places : 2 ^ format.mantissaBitsWithoutImplicit ≤ m * n) :
      format.mantissaBitsWithoutImplicit ≤ (m * n).log2 := (Nat.le_log2 some).mpr places
  unfold Format.targetExponent totalExponent Format.mantissaBits
  rcases h.full with full | least
  · have places := long (full.trans (Nat.le_mul_of_pos_right m g.pos))
    omega
  · rcases g.full with full | least'
    · have places := long (full.trans (Nat.le_mul_of_pos_left n h.pos))
      omega
    · omega

theorem rounds_mul {a b : UnpackedFloat} (ha : IsRounded format a) (hb : IsRounded format b) :
    Rounds format (toRat a * toRat b) (UnpackedFloat.mul format a b) := by
  rcases ha.zero_or_finite with ⟨s, rfl⟩ | ⟨s, m, e, h, rfl⟩
  · rw [toRat_zero, zero_mul]
    rcases hb.zero_or_finite with ⟨t, rfl⟩ | ⟨t, n, f, g, rfl⟩ <;> exact rounds_zero (s * t)
  · rcases hb.zero_or_finite with ⟨t, rfl⟩ | ⟨t, n, f, g, rfl⟩
    · rw [toRat_zero, mul_zero]
      exact rounds_zero (s * t)
    · have product : (m : ℚ) * 2 ^ e * (n * 2 ^ f) = (m * n : Nat) * 2 ^ (e + f) := by
        rw [zpow_add₀ two_ne_zero]
        push_cast
        ring
      have unit : (2 : ℚ) ^ (e + f) ≠ 0 := by positivity
      rw [toRat_finite, toRat_finite, signed_mul, product]
      refine rounds_roundWithAccuracy (by positivity) (h.add_le_targetExponent g) ?_
      rw [mul_div_cancel_right₀ _ unit]
      exact approximates_exact _

/-- A quotient is formed with places enough for rounding. -/
theorem divCore_le_targetExponent (format : Format) {m n : Nat} (hm : 0 < m) (hn : 0 < n) (e f : Int) :
    (divCore format m e n f).2.1 ≤ format.targetExponent
      (totalExponent (divCore format m e n f).1 (divCore format m e n f).2.1) := by
  simp only [divCore]
  generalize start : min (e - f) (format.targetExponent (totalExponent m e - totalExponent n f)) = t
  generalize shift : (e - f - t).toNat = j
  by_cases least : t ≤ format.minExponent
  · unfold Format.targetExponent
    omega
  · have quotient : 2 ^ format.mantissaBitsWithoutImplicit ≤ (m <<< j) / n := by
      have digits := log2_shiftLeft hm j
      have places : n.log2 + format.mantissaBits ≤ (m <<< j).log2 := by
        unfold Format.targetExponent totalExponent at start
        omega
      have some : m <<< j ≠ 0 := by
        rw [Nat.shiftLeft_eq]
        positivity
      rw [Nat.le_div_iff_mul_le hn]
      calc 2 ^ format.mantissaBitsWithoutImplicit * n
          ≤ 2 ^ format.mantissaBitsWithoutImplicit * 2 ^ (n.log2 + 1) :=
            Nat.mul_le_mul_left _ Nat.lt_log2_self.le
        _ = 2 ^ (n.log2 + format.mantissaBits) := by
            rw [← pow_add, Format.mantissaBits]
            congr 1
            omega
        _ ≤ m <<< j := (Nat.le_log2 some).mp places
    have some : (m <<< j) / n ≠ 0 := (Nat.lt_of_lt_of_le (Nat.two_pow_pos _) quotient).ne'
    have places := (Nat.le_log2 some).mpr quotient
    unfold Format.targetExponent totalExponent Format.mantissaBits
    omega

/-- What division cuts off leaves the quotient in units of the exponent it has chosen. -/
theorem approximates_divCore (format : Format) (m : Nat) {n : Nat} (pos : 0 < n) (e f : Int) :
    Approximates
      (.ofMantissaAndAccuracy (divCore format m e n f).1 (divCore format m e n f).2.2)
      (m * 2 ^ e / (n * 2 ^ f) / 2 ^ (divCore format m e n f).2.1) := by
  simp only [divCore]
  generalize start :
    min (e - f) (format.targetExponent (totalExponent m e - totalExponent n f)) = k
  have units : (m : ℚ) * 2 ^ e / (n * 2 ^ f) / 2 ^ k = (m <<< (e - f - k).toNat : Nat) / n := by
    have split : (2 : ℚ) ^ e = (2 ^ (e - f - k).toNat : Nat) * (2 ^ k * 2 ^ f) := by
      rw [← zpow_add₀ two_ne_zero, ← two_zpow_add]
      congr 1
      omega
    rw [split, Nat.shiftLeft_eq]
    push_cast
    field_simp
  rw [units]
  exact approximates_div pos

theorem rounds_div {a b : UnpackedFloat} (ha : IsRounded format a) (hb : IsRounded format b)
    (some : toRat b ≠ 0) : Rounds format (toRat a / toRat b) (UnpackedFloat.div format a b) := by
  rcases hb.zero_or_finite with ⟨t, rfl⟩ | ⟨t, n, f, g, rfl⟩
  · exact absurd (toRat_zero t) some
  · rcases ha.zero_or_finite with ⟨s, rfl⟩ | ⟨s, m, e, h, rfl⟩
    · rw [toRat_zero, zero_div]
      exact rounds_zero (s / t)
    · rw [toRat_finite, toRat_finite, signed_div]
      exact rounds_roundWithAccuracy (by positivity) (divCore_le_targetExponent format h.pos g.pos e f)
        (approximates_divCore format m g.pos e f)

end CallStudy.Binary
