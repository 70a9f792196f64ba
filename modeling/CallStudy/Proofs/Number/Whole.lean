import CallStudy.Proofs.Number.Double

/-!
Integers as doubles and back. Every integer is converted to a rounded double, and one of at most 53
digits exactly; the integer part of a double is taken toward zero and clamped.
-/

set_option autoImplicit false

namespace CallStudy.Binary

open Float.Model (Format totalExponent UnpackedFloat)
open Float.Model.UnpackedFloat

/-! From integers to doubles. -/

theorem isResult_of_value {x : Float} {q : ℚ} (finite : x.isFinite) (same : value x = q) :
    IsResult .binary64 q x.toModel.unpack := by
  refine ⟨x.toModel.unpack, ?_, (unpack_pack_of (isOf_toModel x)).symm⟩
  rw [← same]
  exact rounds_self (isRounded_of_isFinite finite)

theorem isResult_ofNat (n : Nat) : IsResult .binary64 n (Float.ofNat n).toModel.unpack := by
  by_cases short : n < 2 ^ 53
  · obtain ⟨finite, same⟩ := ofNat_spec short
    exact isResult_of_value finite same
  · -- a long one is read as a mantissa with a power of ten, which is one here
    have some : n ≠ 0 := by omega
    have digits := log2_shiftLeft (Nat.pos_of_ne_zero some) 53
    have units : (n : ℚ) / (2 : ℚ) ^ (-(53 : Int) + 0) = ((n <<< 53) * 1 : Nat) := by
      rw [Nat.shiftLeft_eq, add_zero, zpow_neg, div_inv_eq_mul]
      push_cast
      norm_num
    have rounds : Rounds .binary64 n
        (roundWithAccuracy .binary64 .positive ((n <<< 53) * 1) (-(53 : Int) + 0) .exact) := by
      change Rounds .binary64 (signed .positive n) _
      refine rounds_roundWithAccuracy (by positivity) ?_ ?_
      · rw [Nat.mul_one]
        unfold Format.targetExponent totalExponent
        change _ ≤ max (_ - (53 : Int)) _
        omega
      · rw [units]
        exact approximates_exact _
    refine ⟨_, rounds, ?_⟩
    change (Float.ofScientific n false 0).toModel.unpack = _
    rw [Float.ofScientific, dif_neg (by omega)]
    change UnpackedFloat.unpack _ (UnpackedFloat.pack _ (ofScientific .binary64 n 0)) = _
    have notHuge : ¬ (0 : Int) > 2 ^ Format.exponentBits .binary64 := by decide
    have notTiny : ¬ (0 : Int) < -(2 ^ Format.exponentBits .binary64 + (n.log2 : Int)) := by
      have power : (0 : Int) < 2 ^ Format.exponentBits .binary64 := by decide
      omega
    rw [ofScientific, dif_neg some, if_neg notHuge, if_neg notTiny, if_pos le_rfl]
    rfl

theorem toRat_neg (v : UnpackedFloat) : toRat v.neg = -toRat v := by
  cases v with
  | finite s m e pos =>
    cases s with
    | positive => rfl
    | negative => exact (neg_neg _).symm
  | _ => exact neg_zero.symm

theorem Rounds.neg {format : Format} {q : ℚ} {v : UnpackedFloat} (h : Rounds format q v) :
    Rounds format (-q) v.neg := by
  refine ⟨?_, ?_, ?_⟩
  · have isRounded := h.isRounded
    cases v with
    | finite s m e pos => exact isRounded
    | zero s => exact isRounded
    | infinity s => exact isRounded
    | notANumber => exact isRounded
  · intro b held bound
    rw [toRat_neg]
    exact neg_le.mp (h.ge held.neg (neg_le.mp bound))
  · intro b held bound
    rw [toRat_neg]
    exact le_neg.mp (h.le held.neg (le_neg.mp bound))

theorem ofNat_rounds {n : Nat} (word : n ≤ 2 ^ 64) :
    (Float.ofNat n).isFinite ∧ Rounds .binary64 n (Float.ofNat n).toModel.unpack := by
  have result := isResult_ofNat n
  have held : Held .binary64 ((1 : Nat) * 2 ^ (64 : Int)) :=
    held_mul_pow .binary64 (by decide) (by decide)
  have finite : (Float.ofNat n).isFinite := by
    apply result.isFinite_of_le (by decide) held
    · rw [Nat.cast_one, one_mul]
      exact zpow_lt_zpow_right₀ one_lt_two (by decide)
    · rw [abs_of_nonneg (by positivity)]
      exact_mod_cast word
  exact ⟨finite, result.rounds finite⟩

/-- An integer of at most 64 digits is rounded to a double. -/
theorem ofInt_rounds {n : Int} (word : n.natAbs ≤ 2 ^ 64) :
    (Float.ofInt n).isFinite ∧ Rounds .binary64 n (Float.ofInt n).toModel.unpack := by
  cases n with
  | ofNat n => exact ofNat_rounds word
  | negSucc n =>
    obtain ⟨finite, rounds⟩ := ofNat_rounds (n := n.succ) word
    refine ⟨isFinite_neg finite, ?_⟩
    have opposite := rounds.neg
    rw [← unpack_neg] at opposite
    exact_mod_cast opposite

theorem value_ofNat {n : Nat} (short : n ≤ 2 ^ 53) :
    (Float.ofNat n).isFinite ∧ value (Float.ofNat n) = n := by
  obtain ⟨finite, -⟩ := ofNat_rounds (n := n) (by omega)
  exact ⟨finite, (isResult_ofNat n).toRat_eq finite (held_natCast short)⟩

theorem abs_value_ofInt_lt {n : Int} (word : n.natAbs ≤ 2 ^ 64) :
    |value (Float.ofInt n)| < 2 ^ 1023 := by
  have held : Held .binary64 ((1 : Nat) * 2 ^ (64 : Int)) :=
    held_mul_pow .binary64 (by decide) (by decide)
  have size : |(n : ℚ)| ≤ (1 : Nat) * 2 ^ (64 : Int) := by
    rw [← Int.cast_abs, ← Nat.cast_natAbs]
    exact_mod_cast word
  apply ((ofInt_rounds word).2.abs_toRat_le held size).trans_lt
  rw [Nat.cast_one, one_mul]
  exact zpow_lt_zpow_right₀ one_lt_two (by decide : (64 : Int) < 1023)

theorem held_intCast {n : Int} (short : n.natAbs ≤ 2 ^ 53) : Held .binary64 n := by
  have held := held_natCast short
  cases n with
  | ofNat n => exact held
  | negSucc n =>
    have opposite := held.neg
    exact_mod_cast opposite

/-- An integer of at most 53 digits is converted exactly. -/
theorem value_ofInt {n : Int} (short : n.natAbs ≤ 2 ^ 53) : value (Float.ofInt n) = n := by
  have rounds := (ofInt_rounds (n := n) (by omega)).2
  have held := held_intCast short
  exact le_antisymm (rounds.le held le_rfl) (rounds.ge held le_rfl)

/-! From doubles to integers. -/

/-- The integer part of a number, toward zero. -/
def wholePart (q : ℚ) : Int := if 0 ≤ q then ⌊q⌋ else ⌈q⌉

theorem wholePart_neg (q : ℚ) : wholePart (-q) = -wholePart q := by
  unfold wholePart
  rcases lt_trichotomy q 0 with negative | rfl | positive
  · rw [if_pos (by linarith), if_neg (by linarith), Int.floor_neg]
  · simp
  · rw [if_neg (by linarith), if_pos (by linarith), Int.ceil_neg]

theorem floor_eq (m : Nat) (e : Int) : (floor m e : Int) = ⌊(m : ℚ) * 2 ^ e⌋ := by
  unfold floor
  split
  · next nonneg =>
    obtain ⟨j, rfl⟩ := Int.eq_ofNat_of_zero_le nonneg
    have whole : (m : ℚ) * 2 ^ (j : Int) = ((m * 2 ^ j : Nat) : Int) := by
      push_cast
      rw [zpow_natCast]
    rw [whole, Int.floor_intCast, Int.toNat_natCast, Nat.shiftLeft_eq]
  · next negative =>
    obtain ⟨j, rfl⟩ : ∃ j : Nat, e = -(j : Int) := ⟨(-e).toNat, by omega⟩
    have quotient : (m : ℚ) * 2 ^ (-(j : Int)) = (m : ℚ) / (2 ^ j : Nat) := by
      rw [zpow_neg, zpow_natCast, ← div_eq_mul_inv]
      push_cast
      rfl
    rw [quotient, neg_neg, Int.toNat_natCast, Nat.shiftRight_eq_div_pow, Rat.floor_natCast_div_natCast]
    rfl

/-- What is truncated is the integer part of the number, within the range of the result. -/
theorem truncated_eq {format : Format} {v : UnpackedFloat} (h : IsRounded format v) {low high : Int}
    (below : low ≤ 0) (above : 0 ≤ high) :
    truncated low high v = max low (min high (wholePart (toRat v))) := by
  rcases h.zero_or_finite with ⟨s, rfl⟩ | ⟨s, m, e, canonical, rfl⟩
  · rw [toRat_zero, wholePart, if_pos le_rfl, Int.floor_zero]
    change (0 : Int) = _
    omega
  · have size : (0 : ℚ) ≤ m * 2 ^ e := by positivity
    have whole : wholePart (m * 2 ^ e) = floor m e := by
      rw [wholePart, if_pos size, floor_eq]
    rw [truncated, toRat_finite]
    cases s with
    | positive =>
      rw [signed, whole]
      rfl
    | negative =>
      rw [signed, wholePart_neg, whole]
      rfl

theorem truncate_mem {low high : Int} (below : low ≤ 0) (above : 0 ≤ high) (x : Float) :
    low ≤ truncate low high x ∧ truncate low high x ≤ high := by
  unfold truncate truncated
  split
  · exact ⟨below, above⟩
  · exact ⟨below, above⟩
  · exact ⟨le_rfl, below.trans above⟩
  · exact ⟨below.trans above, le_rfl⟩
  · omega

theorem le_wholePart {q : ℚ} {k : Int} (nonneg : 0 ≤ k) (le : k ≤ q) : k ≤ wholePart q := by
  have positive : (0 : ℚ) ≤ k := by exact_mod_cast nonneg
  rw [wholePart, if_pos (positive.trans le)]
  exact Int.le_floor.mpr le

theorem wholePart_le {q : ℚ} {k : Int} (le : q ≤ k) : wholePart q ≤ k := by
  unfold wholePart
  split
  · exact Int.cast_le.mp ((Int.floor_le q).trans le)
  · exact Int.ceil_le.mpr le

theorem truncate_eq {x : Float} (finite : x.isFinite) {low high : Int} (below : low ≤ 0)
    (above : 0 ≤ high) : truncate low high x = max low (min high (wholePart (value x))) :=
  truncated_eq (isRounded_of_isFinite finite) below above

end CallStudy.Binary
