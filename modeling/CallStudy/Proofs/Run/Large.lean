import CallStudy.Proofs.Number.Compare
import CallStudy.Proofs.Run.Narrated
import CallStudy.Proofs.Workload.ScaledInteger

/-!
Which scaled values are large. A number above 75 exceeds it by one unit at least, and four thirds of
that unit keep the scaled number above 100 however it is rounded.
-/

set_option autoImplicit false

namespace CallStudy

open Binary Narration Float.Model

/-- With units of `2^-p` near 75, the number after 100 lies below whatever is scaled from above
75. -/
theorem exists_held_above {format : Format} {v : UnpackedFloat} (h : IsRounded format v) {p : Nat}
    (full : 2 ^ format.mantissaBitsWithoutImplicit ≤ 75 * 2 ^ p)
    (short : 100 * 2 ^ p + 1 ≤ 2 ^ format.mantissaBits) (least : format.minExponent ≤ -(p : Int))
    (above : 75 < toRat v) :
    ∃ b, Held format b ∧ 100 < b ∧ b ≤ toRat v * 2 / (3 / 2) := by
  have unit : (0 : ℚ) < 2 ^ (-(p : Int)) := by positivity
  have one : (2 : ℚ) ^ p * 2 ^ (-(p : Int)) = 1 := by
    rw [zpow_neg, zpow_natCast]
    exact mul_inv_cancel₀ (by positivity)
  have units (k : Nat) : ((k * 2 ^ p : Nat) : ℚ) * 2 ^ (-(p : Int)) = k := by
    push_cast
    rw [mul_assoc, one, mul_one]
  have next (k : Nat) : ((k * 2 ^ p + 1 : Nat) : ℚ) * 2 ^ (-(p : Int)) = k + 2 ^ (-(p : Int)) := by
    rw [Nat.cast_add, Nat.cast_one, add_mul, units, one_mul]
  have gap : ((75 * 2 ^ p + 1 : Nat) : ℚ) * 2 ^ (-(p : Int)) ≤ toRat v := by
    apply h.succ_le_toRat full
    rw [units]
    exact_mod_cast above
  rw [next] at gap
  refine ⟨_, held_mul_pow format short least, ?_, ?_⟩
  · rw [next]
    push_cast
    linarith
  · rw [next]
    push_cast at gap ⊢
    linarith

theorem scaled_le {x : ℚ} (le : x ≤ 75) : x * 2 / (3 / 2) ≤ 100 := by linarith

/-! Infinities and what is no number are scaled to themselves. -/

theorem eq_self_of_special {f : UnpackedFloat → UnpackedFloat} {v : UnpackedFloat}
    (special : ¬ v.isFinite) (nan : f .notANumber = .notANumber)
    (infinite : ∀ s, f (.infinity s) = .infinity s) : f v = v := by
  cases v with
  | notANumber => exact nan
  | infinity s => exact infinite s
  | zero s => exact absurd rfl special
  | finite s m e pos => exact absurd rfl special

theorem isOf_of_special {format : Format} {v : UnpackedFloat} (special : ¬ v.isFinite) :
    IsOf format v := by
  cases v with
  | finite s m e pos => exact absurd rfl special
  | _ => trivial

theorem unpack_doubled_of_special {v : Float} (special : ¬ v.isFinite) :
    (v * 2.0).toModel.unpack = v.toModel.unpack := by
  have kept : UnpackedFloat.mul .binary64 v.toModel.unpack (2.0 : Float).toModel.unpack =
      v.toModel.unpack := by
    apply eq_self_of_special (f := fun w => UnpackedFloat.mul .binary64 w _) special rfl
    intro s
    cases s <;> rfl
  change UnpackedFloat.unpack _ (UnpackedFloat.pack _ (UnpackedFloat.mul .binary64 _ _)) = _
  rw [kept]
  exact unpack_pack_of (isOf_of_special special)

theorem unpack_div_of_special {x : Float} (special : ¬ x.isFinite) :
    (x / 1.5).toModel.unpack = x.toModel.unpack := by
  have kept : UnpackedFloat.div .binary64 x.toModel.unpack (1.5 : Float).toModel.unpack =
      x.toModel.unpack := by
    apply eq_self_of_special (f := fun w => UnpackedFloat.div .binary64 w _) special rfl
    intro s
    cases s <;> rfl
  change UnpackedFloat.unpack _ (UnpackedFloat.pack _ (UnpackedFloat.div .binary64 _ _)) = _
  rw [kept]
  exact unpack_pack_of (isOf_of_special special)

theorem rounded_of_special (format : Format) {v : UnpackedFloat} (special : ¬ v.isFinite) :
    rounded format v = v :=
  eq_self_of_special special rfl fun _ => rfl

theorem unpack_widen_of_special {v : Float32} (special : ¬ v.isFinite) :
    (widen v).toModel.unpack = v.toModel.unpack := by
  rw [unpack_widen]
  exact rounded_of_special .binary64 special

theorem unpack_narrow_of_special {x : Float} (special : ¬ x.isFinite) :
    (narrow x).toModel.unpack = x.toModel.unpack := by
  change UnpackedFloat.unpack _ (UnpackedFloat.pack _ (rounded .binary32 _)) = _
  rw [rounded_of_special .binary32 special]
  exact unpack_pack_of (isOf_of_special special)

/-- Every constant compares to such a value like every other. -/
theorem lt_special_congr {a b x y : UnpackedFloat} (ha : a.isFinite) (hb : b.isFinite) (same : x = y)
    (special : ¬ y.isFinite) : a.lt x = true ↔ b.lt y = true := by
  subst same
  rw [lt_special_iff ha special, lt_special_iff hb special]

section Double

variable {v : Float}

theorem value_seventyFive : value 75 = 75 := by
  exact_mod_cast (ofNat_spec (n := 75) (by decide)).2

theorem value_hundred : value 100 = 100 := by
  exact_mod_cast (ofNat_spec (n := 100) (by decide)).2

theorem value_hundred_decimal : value 100.0 = 100 := by
  have parts : (100.0 : Float).toModel.unpack =
      .finite .positive (100 * 2 ^ 46) (-46) (by decide) := rfl
  rw [value, parts, toRat_finite, signed]
  norm_num

theorem value_hundredFifty : value 150 = 150 := by
  exact_mod_cast (ofNat_spec (n := 150) (by decide)).2

theorem lt_doubled_iff (finite : v.isFinite) : 150 < v * 2.0 ↔ 75 < v := by
  have constant : (150 : Float).isFinite := rfl
  have doubled := isResult_doubled finite
  rw [lt_iff_unpack_lt, lt_iff_value_lt rfl finite, value_seventyFive]
  by_cases above : 75 < value v
  · apply iff_of_true _ above
    apply doubled.lt_of_held (by decide) (isRounded_of_isFinite constant) (abs_value_lt constant)
      (held_doubled finite) _ le_rfl
    change value 150 < _
    rw [value_hundredFifty]
    linarith
  · apply iff_of_false _ above
    apply doubled.not_lt_of_le (by decide) (isRounded_of_isFinite constant) (abs_value_lt constant)
    change _ ≤ value 150
    rw [value_hundredFifty]
    linarith

theorem large_double_of_doubled (finite : v.isFinite) (doubled : (v * 2.0).isFinite) :
    100 < v * 2.0 / 1.5 ↔ 75 < v := by
  have constant : (100 : Float).isFinite := rfl
  have small := (isFinite_doubled_iff finite).mp doubled
  have scaled := isResult_scaled finite small
  rw [lt_iff_unpack_lt, lt_iff_value_lt rfl finite, value_seventyFive]
  by_cases above : 75 < value v
  · apply iff_of_true _ above
    obtain ⟨b, held, more, le⟩ := exists_held_above (isRounded_of_isFinite finite) (p := 46)
      (by decide) (by decide) (by decide) above
    apply scaled.lt_of_held (by decide) (isRounded_of_isFinite constant) (abs_value_lt constant)
      held _ le
    change value 100 < _
    rw [value_hundred]
    exact more
  · apply iff_of_false _ above
    apply scaled.not_lt_of_le (by decide) (isRounded_of_isFinite constant) (abs_value_lt constant)
    change _ ≤ value 100
    rw [value_hundred]
    exact scaled_le (not_lt.mp above)

theorem large_double_iff (v : Float) : 100 < v * 2.0 / 1.5 ↔ 75 < v := by
  by_cases finite : v.isFinite
  · by_cases doubled : (v * 2.0).isFinite
    · exact large_double_of_doubled finite doubled
    · -- what overflows when it is doubled compares to 100 at the end as it does to 150 before
      rw [← lt_doubled_iff finite, lt_iff_unpack_lt, lt_iff_unpack_lt]
      exact lt_special_congr rfl rfl (unpack_div_of_special doubled) doubled
  · have doubled := unpack_doubled_of_special finite
    have special : ¬ (v * 2.0).isFinite := by
      change ¬ (v * 2.0).toModel.unpack.isFinite
      rw [doubled]
      exact finite
    rw [lt_iff_unpack_lt, lt_iff_unpack_lt]
    exact lt_special_congr rfl rfl ((unpack_div_of_special special).trans doubled) finite

end Double

section Single

variable {v : Float32}

theorem valueSingle_hundred : valueSingle 100 = 100 := by
  have parts : (100 : Float32).toModel.unpack =
      .finite .positive (100 * 2 ^ 17) (-17) (by decide) := rfl
  rw [valueSingle, parts, toRat_finite, signed]
  norm_num

theorem valueSingle_seventyFive : valueSingle 75 = 75 := by
  have parts : (75 : Float32).toModel.unpack =
      .finite .positive (75 * 2 ^ 17) (-17) (by decide) := rfl
  rw [valueSingle, parts, toRat_finite, signed]
  norm_num

theorem large_single_of_isFinite (finite : v.isFinite) :
    100 < narrow (widen v * 2.0 / 1.5) ↔ 75 < v := by
  have constant : (100 : Float32).isFinite := rfl
  have rounded := isRounded_of_isFinite_single constant
  have small : |valueSingle 100| < limit .binary32 := abs_valueSingle_lt constant
  obtain ⟨scaled, quotient⟩ := widened_spec finite
  have narrowed := isResult_narrow scaled
  rw [lt_iff_unpack_lt_single, lt_iff_valueSingle_lt rfl finite, valueSingle_seventyFive]
  by_cases above : 75 < valueSingle v
  · apply iff_of_true _ above
    obtain ⟨b, held, more, le⟩ := exists_held_above (isRounded_of_isFinite_single finite) (p := 17)
      (by decide) (by decide) (by decide) above
    apply narrowed.lt_of_held (by decide) rounded small held
    · change valueSingle 100 < b
      rw [valueSingle_hundred]
      exact more
    · exact (quotient.rounds scaled).ge held.double le
  · apply iff_of_false _ above
    apply narrowed.not_lt_of_le (by decide) rounded small
    have held : Held .binary64 (valueSingle 100) := (isRounded_of_isFinite_single constant).held.double
    apply (quotient.rounds scaled).le held
    rw [valueSingle_hundred]
    exact scaled_le (not_lt.mp above)

theorem large_single_iff (v : Float32) : 100 < narrow (widen v * 2.0 / 1.5) ↔ 75 < v := by
  by_cases finite : v.isFinite
  · exact large_single_of_isFinite finite
  · have wide : ¬ (widen v).isFinite := (isFinite_widen_iff v).not.mpr finite
    have doubled := unpack_doubled_of_special wide
    have special : ¬ (widen v * 2.0).isFinite := by
      change ¬ (widen v * 2.0).toModel.unpack.isFinite
      rw [doubled]
      exact wide
    have scaled := (unpack_div_of_special special).trans doubled
    have last : ¬ (widen v * 2.0 / 1.5).isFinite := by
      change ¬ (widen v * 2.0 / 1.5).toModel.unpack.isFinite
      rw [scaled]
      exact wide
    have same := ((unpack_narrow_of_special last).trans scaled).trans (unpack_widen_of_special finite)
    rw [lt_iff_unpack_lt_single, lt_iff_unpack_lt_single]
    exact lt_special_congr rfl rfl same finite

/-- Widening keeps the side of 100 that a single is on. -/
theorem hundred_lt_widen_iff (v : Float32) : 100.0 < widen v ↔ 100 < v := by
  by_cases finite : v.isFinite
  · obtain ⟨wide, same⟩ := widen_spec finite
    rw [lt_iff_value_lt rfl wide, lt_iff_valueSingle_lt rfl finite, same, value_hundred_decimal,
      valueSingle_hundred]
  · rw [lt_iff_unpack_lt, lt_iff_unpack_lt_single]
    exact lt_special_congr rfl rfl (unpack_widen_of_special finite) finite

end Single

section Integer

variable {α : Type} [Scalable α] {toInt : α → Int} {low high : Int}

theorem truncate_large_iff {n : Int} (word : n.natAbs ≤ 2 ^ 64) (below : low ≤ 0)
    (above : 100 < high) : 100 < truncate low high (Float.ofInt n * 2.0 / 1.5) ↔ 75 < n := by
  obtain ⟨finite, converted⟩ := ofInt_rounds word
  have size := abs_value_ofInt_lt word
  have scaled : (Float.ofInt n * 2.0 / 1.5).isFinite := (isFinite_scaled_iff finite).mpr size
  have quotient := (isResult_scaled finite size).rounds scaled
  rw [truncate_eq scaled below (by omega)]
  by_cases large : 75 < n
  · have next : (76 : ℚ) ≤ n := by exact_mod_cast (by omega : 76 ≤ n)
    have least : (76 : ℚ) ≤ value (Float.ofInt n) :=
      converted.ge (held_natCast (n := 76) (by decide)) next
    have more : ((101 : Nat) : ℚ) ≤ value (Float.ofInt n * 2.0 / 1.5) := by
      apply quotient.ge (held_natCast (by decide))
      push_cast
      linarith
    have whole : 101 ≤ wholePart (value (Float.ofInt n * 2.0 / 1.5)) :=
      le_wholePart (by decide) (by exact_mod_cast more)
    omega
  · have last : (n : ℚ) ≤ 75 := by exact_mod_cast (by omega : n ≤ 75)
    have most : value (Float.ofInt n) ≤ 75 :=
      converted.le (held_natCast (n := 75) (by decide)) last
    have less : value (Float.ofInt n * 2.0 / 1.5) ≤ (100 : Nat) := by
      apply quotient.le (held_natCast (by decide))
      exact_mod_cast scaled_le most
    have whole : wholePart (value (Float.ofInt n * 2.0 / 1.5)) ≤ 100 :=
      wholePart_le (by exact_mod_cast less)
    omega

theorem hundred_lt_ofInt_iff {n : Int} (word : n.natAbs ≤ 2 ^ 64) :
    100.0 < Float.ofInt n ↔ 100 < n := by
  obtain ⟨finite, converted⟩ := ofInt_rounds word
  rw [lt_iff_value_lt rfl finite, value_hundred_decimal]
  by_cases large : 100 < n
  · apply iff_of_true _ large
    have next : ((101 : Nat) : ℚ) ≤ n := by exact_mod_cast (by omega : 101 ≤ n)
    have least := converted.ge (held_natCast (n := 101) (by decide)) next
    push_cast at least
    exact lt_of_lt_of_le (by norm_num) least
  · apply iff_of_false _ large
    have last : (n : ℚ) ≤ (100 : Nat) := by exact_mod_cast (by omega : n ≤ 100)
    have most := converted.le (held_natCast (n := 100) (by decide)) last
    exact not_lt.mpr (by exact_mod_cast most)

end Integer

/-- A run that scales `v` calls it large, tells so and reports so, just when `v` exceeds `bound`; what
it reports exceeds 100 just then, too. -/
structure LargeAbove {α : Type} [Scalable α] (bound v : α) : Prop where
  isLarge_iff : (scaleValue v).isLarge = true ↔ bound < v
  reported : (scaleOutcome v).isLarge = (scaleValue v).isLarge
  processed_iff : (scaleOutcome v).isLarge = true ↔ 100.0 < (scaleOutcome v).processed
  told : ∃ events, (runScale v).outcome = .ok (scaleOutcome v, events) ∧
    (Event.foundLarge ∈ events ↔ (scaleValue v).isLarge = true)

section Large

variable {α : Type} [Scalable α] {bound v : α}

theorem foundLarge_mem_scaleEvents_iff :
    Event.foundLarge ∈ scaleEvents v ↔ (scaleValue v).isLarge = true := by
  unfold scaleEvents
  cases (scaleValue v).isLarge with
  | true => simp
  | false => simp

theorem LargeAbove.of_iff (large : Scalable.threshold < (scaleValue v).processed ↔ bound < v)
    (widened : 100.0 < Scalable.toReal (scaleValue v).processed ↔
      Scalable.threshold < (scaleValue v).processed) : LargeAbove bound v where
  isLarge_iff := decide_eq_true_iff.trans large
  reported := rfl
  processed_iff := decide_eq_true_iff.trans widened.symm
  told := ⟨scaleEvents v, (runScale_tells v).outcome, foundLarge_mem_scaleEvents_iff⟩

theorem LargeAbove.of_integral {toInt : α → Int} {low high : Int} (h : Integral toInt low high)
    (threshold : toInt Scalable.threshold = 100) (seventyFive : toInt bound = 75)
    (below : -(2 ^ 64) ≤ low) (zero : low ≤ 0) (hundred : 100 < high) (above : high ≤ 2 ^ 64) :
    LargeAbove bound v := by
  have word (w : α) : (toInt w).natAbs ≤ 2 ^ 64 := by
    have range := h.mem w
    omega
  apply LargeAbove.of_iff
  · rw [h.lt_iff, h.lt_iff, threshold, seventyFive, h.toInt_processed]
    exact truncate_large_iff (word v) zero hundred
  · rw [h.toReal, h.lt_iff, threshold]
    exact hundred_lt_ofInt_iff (word _)

end Large

/-- In every type a scaled value is large just when it was above 75. -/
theorem large_iff_above :
    (∀ v : Int8, LargeAbove 75 v) ∧ (∀ v : Int16, LargeAbove 75 v) ∧
    (∀ v : Int32, LargeAbove 75 v) ∧ (∀ v : Int64, LargeAbove 75 v) ∧
    (∀ v : Float32, LargeAbove 75 v) ∧ (∀ v : Float, LargeAbove 75 v) := by
  refine ⟨?_, ?_, ?_, ?_, ?_, ?_⟩
  · intro v
    apply LargeAbove.of_integral integral_int8 rfl rfl <;> decide
  · intro v
    apply LargeAbove.of_integral integral_int16 rfl rfl <;> decide
  · intro v
    apply LargeAbove.of_integral integral_int32 rfl rfl <;> decide
  · intro v
    apply LargeAbove.of_integral integral_int64 rfl rfl <;> decide
  · intro v
    exact .of_iff (large_single_iff v) (hundred_lt_widen_iff _)
  · intro v
    apply LargeAbove.of_iff (large_double_iff v)
    have constant : (100.0 : Float) = 100 := rfl
    rw [constant]
    exact Iff.rfl

end CallStudy
