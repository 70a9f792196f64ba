import CallStudy.Number.Numeral
import CallStudy.Proofs.Number.Rounding

/-!
Decimals and the binary numbers they are rounded to. A decimal in the interval around a number
reads back as that number, and the shortest decimal is in it.
-/

set_option autoImplicit false

namespace CallStudy

open Float.Model (Format totalExponent UnpackedFloat)
open Float.Model.UnpackedFloat

namespace Decimal

/-- The number a decimal stands for. -/
def value (d : Decimal) : ℚ := d.digits * 10 ^ d.exponent

namespace Interval

variable (i : Interval) (k : Int)

/-- Units of the interval and steps of the grid become whole numbers by the same factor. -/
theorem exists_scale : ∃ c : ℚ, 0 < c ∧
    (∀ a : Nat, a * 2 ^ i.exponent * c = (a * i.unitScale k : Nat)) ∧
    ∀ n : Nat, n * 10 ^ k * c = (n * i.gridScale k : Nat) := by
  have split (b : ℚ) (nonzero : b ≠ 0) (e : Int) : b ^ e * b ^ (-e).toNat = b ^ e.toNat := by
    rw [← zpow_natCast, ← zpow_natCast, ← zpow_add₀ nonzero]
    congr 1
    omega
  refine ⟨2 ^ (-i.exponent).toNat * 10 ^ (-k).toNat, by positivity, fun a => ?_, fun n => ?_⟩
  · rw [unitScale, Nat.pow_eq, Nat.pow_eq]
    push_cast
    rw [← split 2 two_ne_zero i.exponent]
    ring
  · rw [gridScale, Nat.pow_eq, Nat.pow_eq]
    push_cast
    rw [← split 10 (by norm_num) k]
    ring

theorem contains_iff {n : Nat} : i.contains k n ↔ i.Has (n * 10 ^ k) := by
  obtain ⟨c, pos, unit, grid⟩ := i.exists_scale k
  have le (a : Nat) :
      (a * i.unitScale k ≤ n * i.gridScale k ↔ (a : ℚ) * 2 ^ i.exponent ≤ n * 10 ^ k) ∧
      (n * i.gridScale k ≤ a * i.unitScale k ↔ (n : ℚ) * 10 ^ k ≤ a * 2 ^ i.exponent) := by
    rw [← mul_le_mul_iff_of_pos_right pos,
      ← mul_le_mul_iff_of_pos_right pos (b := (n : ℚ) * 10 ^ k), unit, grid]
    exact ⟨Nat.cast_le.symm, Nat.cast_le.symm⟩
  unfold contains Has
  split
  · rw [decide_eq_true_iff, (le i.low).1, (le i.high).2]
  · rw [decide_eq_true_iff, ← not_le, ← not_le, (le i.low).2, (le i.high).1, not_le, not_le]

theorem has_of_onGrid? {tie : Tie} {d : Decimal} (h : i.onGrid? tie k = some d) :
    i.Has d.value := by
  unfold onGrid? at h
  simp only at h
  split at h
  · next low high =>
    cases h
    apply (i.contains_iff k).mp
    unfold nearer
    simp only
    split
    · exact low
    · split
      · exact high
      · cases tie with
        | up => exact high
        | even =>
          simp only
          split
          · exact low
          · exact high
  · next low _ =>
    cases h
    exact (i.contains_iff k).mp low
  · next _ high =>
    cases h
    exact (i.contains_iff k).mp high
  · cases h

end Interval

theorem value_exact (m : Nat) (e : Int) : (exact m e).value = m * 2 ^ e := by
  unfold exact
  split
  · next nonneg =>
    obtain ⟨j, rfl⟩ := Int.eq_ofNat_of_zero_le nonneg
    simp [value]
  · next negative =>
    obtain ⟨j, rfl⟩ : ∃ j : Nat, e = -(j : Int) := ⟨(-e).toNat, by omega⟩
    have tens : (10 : ℚ) ^ j = 5 ^ j * 2 ^ j := by
      rw [← mul_pow]
      norm_num
    simp only [value, neg_neg, Int.toNat_natCast, Nat.pow_eq, zpow_neg, zpow_natCast, tens]
    push_cast
    field_simp

/-- The shortest decimal that is found for a number rounds to it; where none is found, all digits
are taken. -/
theorem has_shortest (format : Format) (tie : Tie) {m : Nat} (e : Int) (pos : 0 < m) :
    (Interval.around format m e).Has (shortest format tie m e).value := by
  unfold shortest
  simp only
  cases found : List.findSome? _ _ with
  | none =>
    rw [Option.getD_none, value_exact]
    exact Binary.has_value pos
  | some d =>
    obtain ⟨k, -, onGrid⟩ := List.exists_of_findSome?_eq_some found
    exact (Interval.around format m e).has_of_onGrid? k onGrid

end Decimal

namespace Binary

section Division

theorem approximates_div {n d : Nat} (pos : 0 < d) :
    Approximates (.ofMantissaAndAccuracy (n / d) (accuracyOfFraction (n % d) d)) ((n : ℚ) / d) := by
  have unit : (0 : ℚ) < d := by exact_mod_cast pos
  have parts : (d : ℚ) * (n / d : Nat) + (n % d : Nat) = n := by exact_mod_cast Nat.div_add_mod n d
  have rest : ((n % d : Nat) : ℚ) < d := by exact_mod_cast Nat.mod_lt n pos
  have quotient : (n : ℚ) / d = (n / d : Nat) + (n % d : Nat) / d := by
    field_simp
    linarith
  rw [quotient]
  generalize n / d = q at *
  generalize n % d = r at *
  unfold accuracyOfFraction
  split
  · next zero =>
    subst zero
    simp [Approximates, ExtendedMantissa.ofMantissaAndAccuracy]
  · next some =>
    have positive : (0 : ℚ) < r := by exact_mod_cast Nat.pos_of_ne_zero some
    cases order : compare (2 * r) d with
    | lt =>
      have half : (2 * r : ℚ) < d := by exact_mod_cast Nat.compare_eq_lt.mp order
      have fraction : (r : ℚ) / d < 1 / 2 := by
        rw [div_lt_iff₀ unit]
        linarith
      exact ⟨by simp [ExtendedMantissa.ofMantissaAndAccuracy, positive, unit],
        by simpa [ExtendedMantissa.ofMantissaAndAccuracy] using fraction⟩
    | eq =>
      have half : (2 * r : ℚ) = d := by exact_mod_cast Nat.compare_eq_eq.mp order
      have fraction : (r : ℚ) / d = 1 / 2 := by
        rw [div_eq_iff unit.ne']
        linarith
      simp [Approximates, ExtendedMantissa.ofMantissaAndAccuracy, fraction]
    | gt =>
      have half : (d : ℚ) < 2 * r := by exact_mod_cast Nat.compare_eq_gt.mp order
      have fraction : 1 / 2 < (r : ℚ) / d := by
        rw [lt_div_iff₀ unit]
        linarith
      have proper : (r : ℚ) / d < 1 := by rwa [div_lt_one unit]
      exact ⟨by simpa [ExtendedMantissa.ofMantissaAndAccuracy] using fraction,
        by simpa [ExtendedMantissa.ofMantissaAndAccuracy] using proper⟩

end Division

section Scientific

variable {format : Format} {m : Nat} {e : Int}

/-- Whether the exponent of a number leaves the number finite. -/
def InRange (format : Format) (exponent : Int) : Prop :=
  exponent + format.exponentBias + format.mantissaBitsWithoutImplicit + 1 < 2 ^ format.exponentBits

theorem bias_add (format : Format) :
    (format.exponentBias : Int) + 1 = 2 ^ (format.exponentBits - 1) ∧
      (2 : Int) ^ format.exponentBits = 2 * 2 ^ (format.exponentBits - 1) := by
  constructor
  · rw [Format.exponentBias, Nat.cast_sub Nat.one_le_two_pow]
    push_cast
    ring
  · rw [← pow_succ', Nat.sub_add_cancel format.he]

/-- A number in range and its interval lie below a power of two that the format has. -/
theorem lt_of_has (h : Canonical format m e) (range : InRange format e) {x : ℚ}
    (has : (Decimal.Interval.around format m e).Has x) :
    x < 2 ^ (format.mantissaBits + e) ∧
      format.mantissaBits + e ≤ (2 : Int) ^ (format.exponentBits - 1) ∧
      (2 : ℚ) ^ (format.minExponent - 1) ≤ x := by
  obtain ⟨low, high, -, -⟩ := units_of_has h.pos has
  have unit : (0 : ℚ) < 2 ^ e := by positivity
  have short : (m : ℚ) + 1 ≤ (2 ^ format.mantissaBits : Nat) := by exact_mod_cast h.lt
  have one : (1 : ℚ) ≤ m := by exact_mod_cast h.pos
  refine ⟨?_, ?_, ?_⟩
  · rw [two_zpow_add, ← div_lt_iff₀ unit]
    linarith
  · obtain ⟨bias, double⟩ := bias_add format
    unfold InRange at range
    unfold Format.mantissaBits
    push_cast
    omega
  · have least : (2 : ℚ) ^ format.minExponent ≤ 2 ^ e := zpow_le_zpow_right₀ one_le_two h.min_le
    rw [le_div_iff₀ unit] at low
    rw [zpow_sub₀ two_ne_zero, zpow_one]
    nlinarith

theorem digits_ne_zero_of_has (h : Canonical format m e) (range : InRange format e) {d : Decimal}
    (has : (Decimal.Interval.around format m e).Has d.value) : d.digits ≠ 0 := by
  intro zero
  obtain ⟨-, -, low⟩ := lt_of_has h range has
  have least : (0 : ℚ) < 2 ^ (format.minExponent - 1) := by positivity
  rw [Decimal.value, zero, Nat.cast_zero, zero_mul] at low
  linarith

/-- The bound by which division decides how far to shift is never above a power that bounds the
quotient. -/
theorem log2_sub_log2_le {n d : Nat} (some : n ≠ 0) {a : Int} (high : (n : ℚ) / d < 2 ^ a)
    (pos : 0 < d) : (n.log2 : Int) - d.log2 ≤ a := by
  have unit : (0 : ℚ) < d := by exact_mod_cast pos
  have low : (2 : ℚ) ^ (n.log2 : Int) ≤ n := by
    rw [zpow_natCast]
    exact_mod_cast Nat.log2_self_le some
  have up : (d : ℚ) < 2 ^ ((d.log2 : Int) + 1) := by
    have := Nat.lt_log2_self (n := d)
    have cast : (2 : ℚ) ^ ((d.log2 : Int) + 1) = (2 ^ (d.log2 + 1) : Nat) := by
      rw [← Nat.cast_succ, zpow_natCast]
      push_cast
      rfl
    rw [cast]
    exact_mod_cast this
  rw [div_lt_iff₀ unit] at high
  have power : (0 : ℚ) < 2 ^ a := by positivity
  have between : (2 : ℚ) ^ (n.log2 : Int) < 2 ^ (a + (d.log2 + 1)) := by
    rw [zpow_add₀ two_ne_zero]
    exact (low.trans_lt high).trans (mul_lt_mul_of_pos_left up power)
  have := (zpow_lt_zpow_iff_right₀ one_lt_two).mp between
  omega

theorem lt_of_value_lt {n : Nat} (some : n ≠ 0) {k a : Int} (nonneg : 0 ≤ k)
    (high : (n : ℚ) * 10 ^ k < 2 ^ a) : k < a := by
  have one : (1 : ℚ) ≤ n := by exact_mod_cast Nat.pos_of_ne_zero some
  have power : (2 : ℚ) ^ k ≤ 10 ^ k := zpow_le_zpow_left₀ nonneg (by norm_num) (by norm_num)
  have tens : (10 : ℚ) ^ k ≤ n * 10 ^ k := le_mul_of_one_le_left (by positivity) one
  exact (zpow_lt_zpow_iff_right₀ one_lt_two).mp ((power.trans tens).trans_lt high)

theorem lt_of_le_value {n : Nat} (some : n ≠ 0) {k a : Int} (negative : k ≤ 0)
    (low : (2 : ℚ) ^ a ≤ n * 10 ^ k) : a < n.log2 + k + 1 := by
  have inverse : (2 : ℚ) ^ (-k) ≤ 10 ^ (-k) :=
    zpow_le_zpow_left₀ (by omega) (by norm_num) (by norm_num)
  have power : (10 : ℚ) ^ k ≤ 2 ^ k := by
    have swapped := inv_anti₀ (by positivity) inverse
    rwa [zpow_neg, zpow_neg, inv_inv, inv_inv] at swapped
  have above : (n : ℚ) * 10 ^ k < 2 ^ (n.log2 + k + 1) :=
    (mul_le_mul_of_nonneg_left power (by positivity)).trans_lt (log2_value some k).2
  exact (zpow_lt_zpow_iff_right₀ one_lt_two).mp (low.trans_lt above)

/-- A product in the interval around a number is rounded to it. -/
theorem mul_eq_of_has (h : Canonical format m e) {n t : Nat} (some : n ≠ 0) (pos : 0 < t)
    (shifted : 0 < n <<< format.mantissaBits)
    (high : (n * t : ℚ) < 2 ^ (format.mantissaBits + e))
    (has : (Decimal.Interval.around format m e).Has (n * t : ℚ)) :
    mul format (.finite .positive (n <<< format.mantissaBits) (-format.mantissaBits) shifted)
      (.finite .positive t 0 pos) = .finite .positive m e h.pos := by
  have one : (1 : ℚ) ≤ n := by exact_mod_cast Nat.pos_of_ne_zero some
  have unit : (1 : ℚ) ≤ t := by exact_mod_cast pos
  have digits : (2 : ℚ) ^ (0 : Int) < 2 ^ (format.mantissaBits + e) := by
    rw [zpow_zero]
    nlinarith
  have before := (zpow_lt_zpow_iff_right₀ one_lt_two).mp digits
  refine roundWithAccuracy_eq_of_has h has ?_ (by omega) fun _ _ => by omega
  have units : (n : ℚ) * t / 2 ^ (-(format.mantissaBits : Int) + 0) =
      ((n <<< format.mantissaBits) * t : Nat) := by
    rw [Int.add_zero, zpow_neg, div_inv_eq_mul, Nat.shiftLeft_eq]
    push_cast
    simp only [zpow_natCast]
    ring
  rw [units]
  exact approximates_exact _

/-- A quotient in the interval around a number is rounded to it. -/
theorem div_eq_of_has (h : Canonical format m e) {n d : Nat} (some : 0 < n) (pos : 0 < d)
    (high : (n / d : ℚ) < 2 ^ (format.mantissaBits + e))
    (has : (Decimal.Interval.around format m e).Has (n / d : ℚ)) :
    div format (.finite .positive n 0 some) (.finite .positive d 0 pos) =
      .finite .positive m e h.pos := by
  simp only [div, divCore]
  generalize hs : min ((0 : Int) - 0) _ = start
  have bound := log2_sub_log2_le some.ne' high pos
  have least := h.min_le
  have total : totalExponent n 0 - totalExponent d 0 = (n.log2 : Int) - d.log2 := by
    unfold totalExponent
    ring
  rw [total, Format.targetExponent] at hs
  refine roundWithAccuracy_eq_of_has h has ?_ (by omega) fun shorter more => ?_
  · have shift : (2 : ℚ) ^ start = ((2 ^ (-start).toNat : Nat) : ℚ)⁻¹ := by
      rw [Nat.cast_pow, ← zpow_natCast, Int.toNat_of_nonneg (by omega), Nat.cast_ofNat,
        zpow_neg, inv_inv]
    have units : (n : ℚ) / d / 2 ^ start = (n <<< ((0 : Int) - 0 - start).toNat : Nat) / d := by
      rw [shift, Nat.shiftLeft_eq, Int.sub_self, Int.zero_sub]
      push_cast
      field_simp
    rw [units]
    exact approximates_div pos
  · have closer := log2_sub_log2_le some.ne' shorter pos
    unfold Format.mantissaBits at hs
    omega

/-- What is read of a decimal in the interval around a number is that number. -/
theorem ofScientific_eq_of_has (h : Canonical format m e) (range : InRange format e)
    (wide : format.mantissaBits ≤ 2 ^ (format.exponentBits - 1)) {d : Decimal}
    (has : (Decimal.Interval.around format m e).Has d.value) :
    ofScientific format d.digits d.exponent = .finite .positive m e h.pos := by
  have some := digits_ne_zero_of_has h range has
  obtain ⟨n, k⟩ := d
  simp only [Decimal.value] at has some ⊢
  obtain ⟨high, cap, low⟩ := lt_of_has h range has
  have bits := (bias_add format).2
  have half : (0 : Int) < 2 ^ (format.exponentBits - 1) := by positivity
  -- neither guard against huge powers of ten applies
  have notHuge : ¬ k > 2 ^ format.exponentBits := by
    intro huge
    have := lt_of_value_lt some (by omega) high
    omega
  have notTiny : ¬ k < -((2 ^ format.exponentBits : Int) + n.log2) := by
    intro tiny
    have := lt_of_le_value some (by omega) low
    unfold Format.minExponent at this
    have places : (format.mantissaBits : Int) ≤ 2 ^ (format.exponentBits - 1) := by
      exact_mod_cast wide
    omega
  rw [ofScientific, dif_neg some, if_neg notHuge, if_neg notTiny]
  split
  · next nonneg =>
    obtain ⟨j, rfl⟩ := Int.eq_ofNat_of_zero_le nonneg
    have product : (n : ℚ) * 10 ^ (j : Int) = n * (10 ^ (j : Int).toNat : Nat) := by
      rw [zpow_natCast, Int.toNat_natCast, Nat.cast_pow]
      rfl
    rw [product] at has high
    exact mul_eq_of_has h some _ _ high has
  · next negative =>
    obtain ⟨j, rfl⟩ : ∃ j : Nat, k = -(j : Int) := ⟨(-k).toNat, by omega⟩
    have quotient : (n : ℚ) * 10 ^ (-(j : Int)) = n / (10 ^ (-(-(j : Int))).toNat : Nat) := by
      rw [zpow_neg, zpow_natCast, neg_neg, Int.toNat_natCast, Nat.cast_pow]
      rfl
    rw [quotient] at has high
    exact div_eq_of_has h _ _ high has

end Scientific

end Binary
end CallStudy
