import CallStudy.Proofs.Number.Double

/-!
Comparing floating-point numbers. Canonical forms compare by their exponents and then by their
mantissas, and that is the order of the numbers they stand for; of the special values only the
infinite ones are above or below a number.
-/

set_option autoImplicit false

namespace CallStudy.Binary

open Float.Model (Format UnpackedFloat)
open Float.Model.UnpackedFloat

variable {format : Format}

namespace Canonical

variable {m n : Nat} {e f : Int}

theorem lt_of_exponent_lt (h : Canonical format m e) (g : Canonical format n f) (lt : e < f) :
    (m : ℚ) * 2 ^ e < n * 2 ^ f := by
  have least := h.min_le
  have short := h.lt_of_lt lt
  have full : ((2 ^ format.mantissaBitsWithoutImplicit : Nat) : ℚ) ≤ n := by
    exact_mod_cast g.full.resolve_right (by omega)
  rw [two_zpow_add] at short
  exact short.trans_le (mul_le_mul_of_nonneg_right full (by positivity))

theorem lt_iff (h : Canonical format m e) (g : Canonical format n f) :
    (m : ℚ) * 2 ^ e < n * 2 ^ f ↔ e < f ∨ e = f ∧ m < n := by
  constructor
  · intro less
    by_cases before : e < f
    · exact .inl before
    by_cases behind : f < e
    · exact absurd (g.lt_of_exponent_lt h behind) less.asymm
    · have same : e = f := by omega
      subst same
      refine .inr ⟨rfl, ?_⟩
      exact_mod_cast lt_of_mul_lt_mul_right less (by positivity)
  · intro order
    rcases order with before | ⟨same, less⟩
    · exact h.lt_of_exponent_lt g before
    · subst same
      have fewer : (m : ℚ) < n := by exact_mod_cast less
      exact mul_lt_mul_of_pos_right fewer (by positivity)

theorem compare_eq_lt_iff (h : Canonical format m e) (g : Canonical format n f) :
    (compare e f).then (compare m n) = .lt ↔ (m : ℚ) * 2 ^ e < n * 2 ^ f := by
  rw [h.lt_iff g, Ordering.then_eq_lt, Int.compare_eq_lt, Int.compare_eq_eq, Nat.compare_eq_lt]

theorem compare_eq_gt_iff (h : Canonical format m e) (g : Canonical format n f) :
    (compare e f).then (compare m n) = .gt ↔ (n : ℚ) * 2 ^ f < m * 2 ^ e := by
  rw [g.lt_iff h, Ordering.then_eq_gt, Int.compare_eq_gt, Int.compare_eq_eq, Nat.compare_eq_gt,
    eq_comm]

end Canonical

theorem lt_eq_true_iff (a b : UnpackedFloat) : a.lt b = true ↔ a.compare b = some .lt := by
  rw [UnpackedFloat.lt]
  exact beq_iff_eq

theorem IsRounded.isFinite {v : UnpackedFloat} (h : IsRounded format v) : v.isFinite := by
  rcases h.zero_or_finite with ⟨s, rfl⟩ | ⟨s, m, e, canonical, rfl⟩
  · rfl
  · rfl

/-- Comparing numbers of a format compares what they stand for. -/
theorem lt_iff_toRat_lt {a b : UnpackedFloat} (ha : IsRounded format a) (hb : IsRounded format b) :
    a.lt b = true ↔ toRat a < toRat b := by
  rw [lt_eq_true_iff]
  rcases ha.zero_or_finite with ⟨s, rfl⟩ | ⟨s, m, e, h, rfl⟩
  · rcases hb.zero_or_finite with ⟨t, rfl⟩ | ⟨t, n, f, g, rfl⟩
    · exact iff_of_false (by simp [UnpackedFloat.compare]) (by simp)
    · have pos : (0 : ℚ) < n := by exact_mod_cast g.pos
      have size : (0 : ℚ) < n * 2 ^ f := by positivity
      cases t with
      | positive => exact iff_of_true rfl (by simpa [signed] using size)
      | negative => exact iff_of_false (by simp [UnpackedFloat.compare]) (by simpa [signed] using size.le)
  · have pos : (0 : ℚ) < m := by exact_mod_cast h.pos
    have size : (0 : ℚ) < m * 2 ^ e := by positivity
    rcases hb.zero_or_finite with ⟨t, rfl⟩ | ⟨t, n, f, g, rfl⟩
    · cases s with
      | positive => exact iff_of_false (by simp [UnpackedFloat.compare]) (by simpa [signed] using size.le)
      | negative => exact iff_of_true rfl (by simpa [signed] using size)
    · have pos' : (0 : ℚ) < n := by exact_mod_cast g.pos
      have size' : (0 : ℚ) < n * 2 ^ f := by positivity
      rw [toRat_finite, toRat_finite]
      cases s with
      | positive =>
        cases t with
        | positive =>
          change some ((compare e f).then (compare m n)) = some .lt ↔ (m : ℚ) * 2 ^ e < n * 2 ^ f
          rw [Option.some_inj, h.compare_eq_lt_iff g]
        | negative =>
          refine iff_of_false (by simp [UnpackedFloat.compare]) ?_
          change ¬ (m : ℚ) * 2 ^ e < -(n * 2 ^ f)
          linarith
      | negative =>
        cases t with
        | positive =>
          refine iff_of_true rfl ?_
          change -((m : ℚ) * 2 ^ e) < n * 2 ^ f
          linarith
        | negative =>
          change some ((compare e f).then (compare m n)).swap = some .lt ↔
            -((m : ℚ) * 2 ^ e) < -(n * 2 ^ f)
          rw [Option.some_inj, Ordering.swap_eq_lt, h.compare_eq_gt_iff g, neg_lt_neg_iff]

/-- Above a number there is nothing special but the positive infinity. -/
theorem lt_special_iff {a b : UnpackedFloat} (ha : a.isFinite) (hb : ¬ b.isFinite) :
    a.lt b = true ↔ b = .infinity .positive := by
  rw [lt_eq_true_iff]
  cases b with
  | zero s => exact absurd rfl hb
  | finite s m e pos => exact absurd rfl hb
  | notANumber => cases a <;> simp [UnpackedFloat.compare]
  | infinity s =>
    cases a with
    | notANumber => cases ha
    | infinity t => cases ha
    | zero t => cases s <;> simp [UnpackedFloat.compare]
    | finite t m e pos => cases s <;> cases t <;> simp [UnpackedFloat.compare]

/-- Below a number there is nothing special but the negative infinity. -/
theorem special_lt_iff {a b : UnpackedFloat} (ha : ¬ a.isFinite) (hb : b.isFinite) :
    a.lt b = true ↔ a = .infinity .negative := by
  rw [lt_eq_true_iff]
  cases a with
  | zero s => exact absurd rfl ha
  | finite s m e pos => exact absurd rfl ha
  | notANumber => cases b <;> simp [UnpackedFloat.compare]
  | infinity s =>
    cases b with
    | notANumber => cases hb
    | infinity t => cases hb
    | zero t => cases s <;> simp [UnpackedFloat.compare]
    | finite t m e pos => cases s <;> cases t <;> simp [UnpackedFloat.compare]

section Floats

variable {x y : Float} {v w : Float32}

theorem lt_iff_unpack_lt : x < y ↔ x.toModel.unpack.lt y.toModel.unpack = true := by
  change decide (x.toModel.unpack.lt y.toModel.unpack = true) = true ↔ _
  exact decide_eq_true_iff

theorem lt_iff_unpack_lt_single : v < w ↔ v.toModel.unpack.lt w.toModel.unpack = true := by
  change decide (v.toModel.unpack.lt w.toModel.unpack = true) = true ↔ _
  exact decide_eq_true_iff

theorem lt_iff_value_lt (hx : x.isFinite) (hy : y.isFinite) : x < y ↔ value x < value y := by
  rw [lt_iff_unpack_lt]
  exact lt_iff_toRat_lt (isRounded_of_isFinite hx) (isRounded_of_isFinite hy)

theorem lt_iff_valueSingle_lt (hv : v.isFinite) (hw : w.isFinite) :
    v < w ↔ valueSingle v < valueSingle w := by
  rw [lt_iff_unpack_lt_single]
  exact lt_iff_toRat_lt (isRounded_of_isFinite_single hv) (isRounded_of_isFinite_single hw)

end Floats

/-- What overflows becomes the infinity that has the sign of the exact result. -/
theorem IsResult.eq_infinity {q : ℚ} {stored : UnpackedFloat} (h : IsResult format q stored)
    (special : ¬ stored.isFinite) : ∃ s, stored = .infinity s ∧ 0 < signed s q := by
  obtain ⟨v, rounds, rfl⟩ := h
  rcases rounds.isRounded.zero_or_finite with ⟨s, rfl⟩ | ⟨s, m, e, canonical, rfl⟩
  · rw [unpack_pack_of (x := .zero s) trivial] at special
    exact absurd rfl special
  by_cases range : InRange format e
  · rw [unpack_pack_of (x := .finite s m e canonical.pos) ⟨canonical, range⟩] at special
    exact absurd rfl special
  refine ⟨s, unpack_pack_of_not_inRange range, ?_⟩
  have pos : (0 : ℚ) < m := by exact_mod_cast canonical.pos
  have size : (0 : ℚ) < m * 2 ^ e := by positivity
  by_contra other
  cases s with
  | positive =>
    have below : (m : ℚ) * 2 ^ e ≤ 0 := rounds.le .zero (not_lt.mp other)
    linarith
  | negative =>
    have sign : -q ≤ 0 := not_lt.mp other
    have above : (0 : ℚ) ≤ -(m * 2 ^ e) := rounds.ge .zero (by linarith)
    linarith

namespace IsResult

variable {q b : ℚ} {a stored : UnpackedFloat} (wide : 2 ≤ format.exponentBits)
  (h : IsResult format q stored) (ha : IsRounded format a) (small : |toRat a| < limit format)

include wide h ha small

/-- What is rounded from above a number of the format, by one more such number at least, is greater,
also when it overflows. -/
theorem lt_of_held (held : Held format b) (above : toRat a < b) (le : b ≤ q) :
    a.lt stored = true := by
  by_cases finite : stored.isFinite
  · have rounds := h.rounds finite
    rw [lt_iff_toRat_lt ha rounds.isRounded]
    exact above.trans_le (rounds.ge held le)
  · rw [lt_special_iff ha.isFinite finite]
    obtain ⟨s, rfl, sign⟩ := h.eq_infinity finite
    cases s with
    | positive => rfl
    | negative =>
      -- a negative result between a number of the format and zero does not overflow
      have negative : 0 < -q := sign
      have low : toRat a ≤ q := above.le.trans le
      exact absurd (h.isFinite_of_between wide ha.held .zero (abs_lt.mp small).1
        (limit_pos format) low (by linarith)) finite

theorem not_lt_of_le (le : q ≤ toRat a) : ¬ a.lt stored = true := by
  by_cases finite : stored.isFinite
  · have rounds := h.rounds finite
    rw [lt_iff_toRat_lt ha rounds.isRounded, not_lt]
    exact rounds.le ha.held le
  · rw [lt_special_iff ha.isFinite finite]
    intro infinite
    obtain ⟨s, rfl, sign⟩ := h.eq_infinity finite
    cases infinite
    have positive : 0 < q := sign
    exact finite (h.isFinite_of_between wide .zero ha.held (neg_lt_zero.mpr (limit_pos format))
      (abs_lt.mp small).2 positive.le le)

end IsResult

/-! Apart from the two zeros no two values stand for one number. -/

theorem eq_of_unpack_eq {x y : Float} (same : x.toModel.unpack = y.toModel.unpack) : x = y := by
  rw [← ofModel_pack_unpack x, same, ofModel_pack_unpack]

theorem Canonical.eq_of_value_eq {format : Format} {m n : Nat} {e f : Int}
    (h : Canonical format m e) (g : Canonical format n f)
    (same : (m : ℚ) * 2 ^ e = n * 2 ^ f) : m = n ∧ e = f := by
  have notLess := (h.lt_iff g).not.mp same.not_lt
  have notMore := (g.lt_iff h).not.mp same.not_gt
  omega

theorem IsRounded.eq_of_toRat_eq {format : Format} {a b : UnpackedFloat} (ha : IsRounded format a)
    (hb : IsRounded format b) (some : toRat a ≠ 0) (same : toRat a = toRat b) : a = b := by
  rcases ha.zero_or_finite with ⟨s, rfl⟩ | ⟨s, m, e, h, rfl⟩
  · exact absurd rfl some
  rcases hb.zero_or_finite with ⟨t, rfl⟩ | ⟨t, n, f, g, rfl⟩
  · exact absurd same some
  have pos : (0 : ℚ) < m := by exact_mod_cast h.pos
  have pos' : (0 : ℚ) < n := by exact_mod_cast g.pos
  have size : (0 : ℚ) < m * 2 ^ e := by positivity
  have size' : (0 : ℚ) < n * 2 ^ f := by positivity
  have magnitudes := congrArg (fun q : ℚ => |q|) same
  rw [toRat_finite, toRat_finite, abs_signed s size.le, abs_signed t size'.le] at magnitudes
  obtain ⟨rfl, rfl⟩ := h.eq_of_value_eq g magnitudes
  cases s with
  | positive =>
    cases t with
    | positive => rfl
    | negative =>
      have opposite : (m : ℚ) * 2 ^ e = -(m * 2 ^ e) := same
      linarith
  | negative =>
    cases t with
    | positive =>
      have opposite : -((m : ℚ) * 2 ^ e) = m * 2 ^ e := same
      linarith
    | negative => rfl

theorem eq_of_value_eq {x y : Float} (hx : x.isFinite) (hy : y.isFinite) (some : value x ≠ 0)
    (same : value x = value y) : x = y :=
  eq_of_unpack_eq ((isRounded_of_isFinite hx).eq_of_toRat_eq (isRounded_of_isFinite hy) some same)

theorem unpack_of_value_eq_zero {x : Float} (finite : x.isFinite) (zero : value x = 0) :
    ∃ s, x.toModel.unpack = .zero s := by
  have rounded := isRounded_of_isFinite finite
  rcases rounded.zero_or_finite with ⟨s, parts⟩ | ⟨s, m, e, h, parts⟩
  · exact ⟨s, parts⟩
  · have pos : (0 : ℚ) < m := by exact_mod_cast h.pos
    have size : (0 : ℚ) < m * 2 ^ e := by positivity
    have none : |value x| = 0 := by rw [zero, abs_zero]
    rw [value, parts, toRat_finite, abs_signed s size.le] at none
    exact absurd none size.ne'

end CallStudy.Binary
