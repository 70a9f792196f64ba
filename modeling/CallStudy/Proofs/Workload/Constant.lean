import CallStudy.Proofs.Number.Compare
import CallStudy.Proofs.Number.Whole
import CallStudy.Proofs.Workload.Moments

/-!
The variance of copies of one number. It is zero where the copies and their squares add up exactly,
and no number where a square overflows.
-/

set_option autoImplicit false

namespace CallStudy

open Binary Float.Model
open Float.Model.UnpackedFloat (Sign)

/-- A result that a double has is that double. -/
theorem Reached.of_isResult {q : ℚ} {x : Float} (h : Reached q)
    (result : IsResult .binary64 q x.toModel.unpack) : x.isFinite ∧ value x = q := by
  have finite : x.isFinite := result.isFinite_of_le (by decide) h.held.abs h.small le_rfl
  exact ⟨finite, result.toRat_eq finite h.held⟩

theorem reached_value {x : Float} (finite : x.isFinite) : Reached (value x) :=
  ⟨(isRounded_of_isFinite finite).held, abs_value_lt finite⟩

/-- `x` stands for `q` and is not the negative zero. -/
structure Exactly (q : ℚ) (x : Float) : Prop where
  isFinite : x.isFinite
  value_eq : value x = q
  unpack_ne : x.toModel.unpack ≠ .zero .negative

theorem exactly_zero : Exactly 0 0.0 := by
  have parts : (0.0 : Float).toModel.unpack = .zero .positive := rfl
  refine ⟨rfl, ?_, ?_⟩
  · rw [value, parts, toRat_zero]
  · intro negative
    rw [parts] at negative
    cases negative

theorem Exactly.unpack_eq {x : Float} (h : Exactly 0 x) : x.toModel.unpack = .zero .positive := by
  obtain ⟨s, parts⟩ := unpack_of_value_eq_zero h.isFinite h.value_eq
  cases s with
  | positive => exact parts
  | negative => exact absurd parts h.unpack_ne

/-- The sum of a zero that is positive and another zero is the positive one. -/
theorem unpack_add_zero {x y : Float} {s : Sign} (hx : x.toModel.unpack = .zero .positive)
    (hy : y.toModel.unpack = .zero s) : (x + y).toModel.unpack = .zero .positive := by
  change UnpackedFloat.unpack _ (UnpackedFloat.pack _
    (UnpackedFloat.add .binary64 x.toModel.unpack y.toModel.unpack)) = _
  rw [hx, hy]
  cases s with
  | positive => exact unpack_pack_of (x := .zero .positive) trivial
  | negative => exact unpack_pack_of (x := .zero .positive) trivial

theorem unpack_sub_zero {x y : Float} {s : Sign} (hx : x.toModel.unpack = .zero .positive)
    (hy : y.toModel.unpack = .zero s) : (x - y).toModel.unpack = .zero .positive := by
  change UnpackedFloat.unpack _ (UnpackedFloat.pack _
    (UnpackedFloat.sub .binary64 x.toModel.unpack y.toModel.unpack)) = _
  rw [hx, hy]
  cases s with
  | positive => exact unpack_pack_of (x := .zero .positive) trivial
  | negative => exact unpack_pack_of (x := .zero .positive) trivial

theorem unpack_square_zero {x : Float} {s : Sign} (hx : x.toModel.unpack = .zero s) :
    (x * x).toModel.unpack = .zero .positive := by
  change UnpackedFloat.unpack _ (UnpackedFloat.pack _
    (UnpackedFloat.mul .binary64 x.toModel.unpack x.toModel.unpack)) = _
  rw [hx]
  cases s with
  | positive => exact unpack_pack_of (x := .zero .positive) trivial
  | negative => exact unpack_pack_of (x := .zero .positive) trivial

theorem sub_self_eq_zero {x : Float} (finite : x.isFinite)
    (signed : x.toModel.unpack ≠ .zero .negative) : x - x = 0.0 := by
  apply eq_of_unpack_eq
  have none : UnpackedFloat.sub .binary64 x.toModel.unpack x.toModel.unpack = .zero .positive := by
    rcases (isRounded_of_isFinite finite).zero_or_finite with ⟨s, parts⟩ | ⟨s, m, e, h, parts⟩
    · cases s with
      | positive => rw [parts]; rfl
      | negative => exact absurd parts signed
    · rw [parts]
      simp only [UnpackedFloat.sub, sub_self]
      rfl
  change UnpackedFloat.unpack _ (UnpackedFloat.pack _ (UnpackedFloat.sub .binary64 _ _)) = _
  rw [none]
  exact unpack_pack_of (x := .zero .positive) trivial

section Copies

variable {w : Float} {n : Nat}

theorem Exactly.add_copy {x : Float} {j : Nat} (h : Exactly (j * value w) x) (finite : w.isFinite)
    (reached : Reached ((j + 1 : Nat) * value w)) : Exactly ((j + 1 : Nat) * value w) (x + w) := by
  have next : value x + value w = (j + 1 : Nat) * value w := by
    rw [h.value_eq]
    push_cast
    ring
  have step := isResult_add h.isFinite finite
  rw [next] at step
  obtain ⟨added, same⟩ := reached.of_isResult step
  refine ⟨added, same, ?_⟩
  intro negative
  have none : ((j + 1 : Nat) : ℚ) * value w = 0 := by
    rw [← same, value, negative, toRat_zero]
  have zero : value w = 0 := by
    apply (mul_eq_zero.mp none).resolve_left
    exact_mod_cast Nat.succ_ne_zero j
  obtain ⟨s, parts⟩ := unpack_of_value_eq_zero finite zero
  rw [zero, mul_zero] at h
  have positive := unpack_add_zero h.unpack_eq parts
  rw [negative] at positive
  cases positive

/-- Copies that add up to doubles add up exactly. -/
theorem exactly_foldl_replicate {g : Float → Float} {v : Float} (finite : (g v).isFinite)
    (reached : ∀ k, k ≤ n → Reached (k * value (g v))) {k j : Nat} {sum : Float}
    (start : Exactly (j * value (g v)) sum) (le : j + k ≤ n) :
    Exactly ((j + k : Nat) * value (g v))
      ((List.replicate k v).foldl (fun s x => s + g x) sum) := by
  induction k generalizing j sum with
  | zero => exact start
  | succ k ih =>
    have last := ih (start.add_copy finite (reached (j + 1) (by omega))) (by omega)
    rw [Nat.add_assoc, Nat.add_comm 1 k] at last
    exact last

/-- Dividing the exact sum of `n` copies returns to one. -/
theorem Exactly.div_count {x : Float} (h : Exactly (n * value w) x) (finite : w.isFinite)
    (pos : 0 < n) (short : n ≤ 2 ^ 53) :
    (x / Float.ofNat n).isFinite ∧ value (x / Float.ofNat n) = value w := by
  obtain ⟨count, same⟩ := value_ofNat short
  have some : (n : ℚ) ≠ 0 := by exact_mod_cast pos.ne'
  have quotient := isResult_div h.isFinite count (by rwa [same])
  rw [same, h.value_eq, mul_div_cancel_left₀ _ some] at quotient
  exact (reached_value finite).of_isResult quotient

end Copies

section Spread

variable {v sum squares : Float} {n : Nat}

theorem spread_of_difference (zero : squares / Float.ofNat n -
    sum / Float.ofNat n * (sum / Float.ofNat n) = 0.0) : spread n sum squares = 0.0 := by
  rw [spread, zero]
  exact ite_self _

/-- Where the square of a number vanishes, so does the square of any that equals it. -/
theorem exists_unpack_square_of_value_eq {x : Float} (finite : v.isFinite)
    (square : (v * v).isFinite) (zero : value (v * v) = 0) (hx : x.isFinite)
    (same : value x = value v) : ∃ s, (x * x).toModel.unpack = .zero s := by
  by_cases none : value v = 0
  · obtain ⟨s, parts⟩ := unpack_of_value_eq_zero hx (same.trans none)
    exact ⟨_, unpack_square_zero parts⟩
  · rw [eq_of_value_eq hx finite (by rwa [same]) same]
    exact unpack_of_value_eq_zero square zero

/-- A positive count has a positive mantissa. -/
theorem exists_unpack_ofNat (pos : 0 < n) (word : n ≤ 2 ^ 64) :
    ∃ m e, ∃ some : 0 < m, (Float.ofNat n).toModel.unpack = .finite .positive m e some := by
  obtain ⟨finite, rounds⟩ := ofNat_rounds word
  have one : ((1 : Nat) : ℚ) ≤ toRat (Float.ofNat n).toModel.unpack := by
    apply rounds.ge (held_natCast (by decide))
    exact_mod_cast pos
  rcases (isRounded_of_isFinite finite).zero_or_finite with ⟨s, parts⟩ | ⟨s, m, e, h, parts⟩
  · rw [parts, toRat_zero] at one
    norm_num at one
  · cases s with
    | positive => exact ⟨m, e, h.pos, parts⟩
    | negative =>
      have size : (0 : ℚ) ≤ m * 2 ^ e := by positivity
      rw [parts, toRat_finite, signed] at one
      push_cast at one
      linarith

theorem unpack_div_count {x : Float} (hx : x.toModel.unpack = .zero .positive) (pos : 0 < n)
    (word : n ≤ 2 ^ 64) : (x / Float.ofNat n).toModel.unpack = .zero .positive := by
  obtain ⟨m, e, some, parts⟩ := exists_unpack_ofNat pos word
  change UnpackedFloat.unpack _ (UnpackedFloat.pack _
    (UnpackedFloat.div .binary64 x.toModel.unpack (Float.ofNat n).toModel.unpack)) = _
  rw [hx, parts]
  exact unpack_pack_of (x := .zero .positive) trivial

/-- Exact sums of copies leave no variance. -/
theorem spread_of_exactly (hs : Exactly (n * value v) sum) (hq : Exactly (n * value (v * v)) squares)
    (finite : v.isFinite) (square : (v * v).isFinite) (pos : 0 < n) (short : n ≤ 2 ^ 53) :
    spread n sum squares = 0.0 := by
  obtain ⟨meanFinite, mean⟩ := hs.div_count finite pos short
  obtain ⟨quotientFinite, quotient⟩ := hq.div_count square pos short
  apply spread_of_difference
  by_cases zero : value (v * v) = 0
  · have means := exists_unpack_square_of_value_eq finite square zero meanFinite mean
    rw [zero, mul_zero] at hq
    obtain ⟨s, parts⟩ := means
    exact eq_of_unpack_eq (unpack_sub_zero (unpack_div_count hq.unpack_eq pos (by omega)) parts)
  · have some : value v ≠ 0 := by
      intro none
      obtain ⟨s, parts⟩ := unpack_of_value_eq_zero finite none
      rw [value, unpack_square_zero parts, toRat_zero] at zero
      exact zero rfl
    rw [eq_of_value_eq meanFinite finite (by rwa [mean]) mean,
      eq_of_value_eq quotientFinite square (by rwa [quotient]) quotient]
    apply sub_self_eq_zero square
    intro negative
    rw [value, negative, toRat_zero] at zero
    exact zero rfl

end Spread

section Oversized

variable {v : Float}

theorem unpack_square_of_large (finite : v.isFinite) (large : 2 ^ 512 ≤ |value v|) :
    (v * v).toModel.unpack = .infinity .positive := by
  have square := isResult_mul finite finite
  have size : limit .binary64 ≤ value v * value v := by
    have power : limit .binary64 = 2 ^ 512 * 2 ^ 512 :=
      (zpow_natCast (2 : ℚ) 1024).trans (pow_add 2 512 512)
    rw [power, ← abs_mul_abs_self (value v)]
    exact mul_le_mul large large (by positivity) (abs_nonneg _)
  have positive : 0 < value v * value v := (limit_pos .binary64).trans_le size
  obtain ⟨s, parts, sign⟩ := square.eq_infinity
    (square.not_isFinite (by decide) (size.trans (le_abs_self _)))
  cases s with
  | positive => exact parts
  | negative =>
    have negative : 0 < -(value v * value v) := sign
    linarith

theorem unpack_add_infinity {x y : Float}
    (hx : x.isFinite ∨ x.toModel.unpack = .infinity .positive)
    (hy : y.toModel.unpack = .infinity .positive) :
    (x + y).toModel.unpack = .infinity .positive := by
  have sum : UnpackedFloat.add .binary64 x.toModel.unpack y.toModel.unpack =
      .infinity .positive := by
    rw [hy]
    rcases hx with finite | infinite
    · rcases (isRounded_of_isFinite finite).zero_or_finite with ⟨s, parts⟩ | ⟨s, m, e, h, parts⟩
      · rw [parts]
        rfl
      · rw [parts]
        rfl
    · rw [infinite]
      rfl
  change UnpackedFloat.unpack _ (UnpackedFloat.pack _ (UnpackedFloat.add .binary64 _ _)) = _
  rw [sum]
  exact unpack_pack_of (x := .infinity .positive) trivial

theorem unpack_foldl_of_square {x : Float} (square : (v * v).toModel.unpack = .infinity .positive)
    (hx : x.isFinite ∨ x.toModel.unpack = .infinity .positive) {k : Nat} (pos : 0 < k) :
    ((List.replicate k v).foldl (fun s x => s + x * x) x).toModel.unpack = .infinity .positive := by
  induction k generalizing x with
  | zero => exact absurd pos (Nat.lt_irrefl 0)
  | succ k ih =>
    have next := unpack_add_infinity hx square
    by_cases last : k = 0
    · subst last
      exact next
    · exact ih (.inr next) (by omega)

/-- What is left when anything is taken off infinity is no number and not below all numbers. -/
theorem sub_of_infinite {x : Float} (infinite : x.toModel.unpack = .infinity .positive) (y : Float) :
    ¬ (x - y).isFinite ∧ (x - y).toModel.unpack ≠ .infinity .negative := by
  have left (w : UnpackedFloat) :
      UnpackedFloat.sub .binary64 (.infinity .positive) w = .notANumber ∨
        UnpackedFloat.sub .binary64 (.infinity .positive) w = .infinity .positive := by
    cases w with
    | notANumber => exact .inl rfl
    | zero s => exact .inr rfl
    | finite s m e some => exact .inr rfl
    | infinity s =>
      cases s with
      | positive => exact .inl rfl
      | negative => exact .inr rfl
  have parts : (x - y).toModel.unpack = UnpackedFloat.sub .binary64 (.infinity .positive)
      y.toModel.unpack := by
    change UnpackedFloat.unpack _ (UnpackedFloat.pack _ (UnpackedFloat.sub .binary64 _ _)) = _
    rw [infinite]
    apply unpack_pack_of
    rcases left y.toModel.unpack with none | more
    · rw [none]
      trivial
    · rw [more]
      trivial
  change ¬ (x - y).toModel.unpack.isFinite ∧ _
  rw [parts]
  rcases left y.toModel.unpack with none | more
  · rw [none]
    exact ⟨Bool.false_ne_true, by intro same; cases same⟩
  · rw [more]
    exact ⟨Bool.false_ne_true, by intro same; cases same⟩

theorem spread_of_infinite {sum squares : Float} {n : Nat}
    (infinite : squares.toModel.unpack = .infinity .positive) (pos : 0 < n) (word : n ≤ 2 ^ 64) :
    ¬ (spread n sum squares).isFinite := by
  obtain ⟨m, e, some, parts⟩ := exists_unpack_ofNat pos word
  have quotient : (squares / Float.ofNat n).toModel.unpack = .infinity .positive := by
    change UnpackedFloat.unpack _ (UnpackedFloat.pack _
      (UnpackedFloat.div .binary64 squares.toModel.unpack (Float.ofNat n).toModel.unpack)) = _
    rw [infinite, parts]
    exact unpack_pack_of (x := .infinity .positive) trivial
  obtain ⟨special, sign⟩ := sub_of_infinite quotient (sum / Float.ofNat n * (sum / Float.ofNat n))
  rw [spread, if_neg]
  · exact special
  · rw [lt_iff_unpack_lt, special_lt_iff special rfl]
    exact sign

end Oversized

section Replicate

variable {v : Float} {n : Nat}

theorem populationVariance_replicate_eq (pos : 0 < n) : populationVariance (List.replicate n v) =
    spread n ((List.replicate n v).foldl (· + ·) 0.0)
      ((List.replicate n v).foldl (fun squares x => squares + x * x) 0.0) := by
  have some : List.replicate n v ≠ [] := by
    rw [← List.length_pos_iff, List.length_replicate]
    exact pos
  rw [populationVariance_eq some, List.length_replicate]

/-- Copies whose sums are doubles have no variance. -/
theorem populationVariance_eq_zero_of_reached (finite : v.isFinite) (square : (v * v).isFinite)
    (pos : 0 < n) (short : n ≤ 2 ^ 53) (sums : ∀ k, k ≤ n → Reached (k * value v))
    (squares : ∀ k, k ≤ n → Reached (k * value (v * v))) :
    populationVariance (List.replicate n v) = 0.0 := by
  have start (q : ℚ) : Exactly ((0 : Nat) * q) 0.0 := by
    rw [Nat.cast_zero, zero_mul]
    exact exactly_zero
  have sum := exactly_foldl_replicate (g := id) finite sums (start _) (by omega : 0 + n ≤ n)
  have total := exactly_foldl_replicate (g := fun x => x * x) square squares (start _)
    (by omega : 0 + n ≤ n)
  rw [Nat.zero_add] at sum total
  rw [populationVariance_replicate_eq pos]
  exact spread_of_exactly sum total finite square pos short

theorem reached_copies {w : Float} (finite : w.isFinite) (small : |value w| < 2 ^ 1023) {k : Nat}
    (few : k ≤ 2) : Reached (k * value w) := by
  have held := (reached_value finite).held
  refine ⟨?_, ?_⟩
  · interval_cases k
    · simpa using Held.zero
    · simpa using held
    · exact held.two_mul
  · have count : (k : ℚ) ≤ 2 := by exact_mod_cast few
    rw [abs_mul, Nat.abs_cast]
    calc (k : ℚ) * |value w| ≤ 2 * |value w| := mul_le_mul_of_nonneg_right count (abs_nonneg _)
      _ < 2 * 2 ^ 1023 := mul_lt_mul_of_pos_left small two_pos
      _ = 2 ^ 1024 := (pow_succ' 2 1023).symm

theorem reached_units {m : Nat} {e : Int} {k : Nat} {q : ℚ} (shape : |q| = m * 2 ^ e)
    (digits : k * m ≤ 2 ^ 53) (least : -1074 ≤ e) (small : k * |q| < 2 ^ 1024) :
    Reached (k * q) := by
  have units : (k : ℚ) * |q| = (k * m : Nat) * 2 ^ e := by
    rw [shape]
    push_cast
    ring
  have held : Held .binary64 (k * |q|) := by
    rw [units]
    exact held_mul_pow .binary64 digits least
  refine ⟨?_, ?_⟩
  · rcases abs_choice q with same | opposite
    · rwa [same] at held
    · have negative := held.neg
      rwa [opposite, mul_neg, neg_neg] at negative
  · rwa [abs_mul, Nat.abs_cast]

theorem abs_value_square_lt (finite : v.isFinite) (small : |value v| < 2 ^ 511) :
    (v * v).isFinite ∧ |value (v * v)| < 2 ^ 1023 := by
  have square := isResult_mul finite finite
  have held : Held .binary64 ((1 : Nat) * 2 ^ (1022 : Int)) :=
    held_mul_pow .binary64 (by decide) (by decide)
  have size : |value v * value v| ≤ (1 : Nat) * 2 ^ (1022 : Int) := by
    have power : (2 : ℚ) ^ (1022 : Int) = 2 ^ 511 * 2 ^ 511 :=
      (zpow_natCast (2 : ℚ) 1022).trans (pow_add 2 511 511)
    rw [abs_mul, Nat.cast_one, one_mul, power]
    exact mul_le_mul small.le small.le (abs_nonneg _) (by positivity)
  have below : ((1 : Nat) : ℚ) * 2 ^ (1022 : Int) < 2 ^ (1023 : Int) := by
    rw [Nat.cast_one, one_mul]
    exact zpow_lt_zpow_right₀ one_lt_two (by decide)
  have bound : ((1 : Nat) : ℚ) * 2 ^ (1022 : Int) < limit .binary64 := by
    rw [Nat.cast_one, one_mul]
    exact zpow_lt_zpow_right₀ one_lt_two (by decide)
  have stored := square.isFinite_of_le (by decide) held bound size
  exact ⟨stored, (square.abs_toRat_le stored held size).trans_lt below⟩

theorem mul_abs_lt_of_mul_sq_lt {q : ℚ} {k : Nat} (short : n ≤ 2 ^ 53)
    (size : n * q ^ 2 < 2 ^ 1024) (le : k ≤ n) : k * |q| < 2 ^ 1024 := by
  have fewer : (k : ℚ) * |q| ≤ n * |q| :=
    mul_le_mul_of_nonneg_right (by exact_mod_cast le) (abs_nonneg q)
  apply fewer.trans_lt
  by_cases large : 1 ≤ |q|
  · apply lt_of_le_of_lt _ size
    rw [← sq_abs]
    exact mul_le_mul_of_nonneg_left (le_self_pow₀ large two_ne_zero) (Nat.cast_nonneg n)
  · have count : (n : ℚ) ≤ 2 ^ 53 := by exact_mod_cast short
    calc (n : ℚ) * |q| ≤ n * 1 := mul_le_mul_of_nonneg_left (not_le.mp large).le (Nat.cast_nonneg n)
      _ ≤ 2 ^ 53 := by rwa [mul_one]
      _ < 2 ^ 1024 := pow_lt_pow_right₀ one_lt_two (by decide)

theorem reached_square_of_units {q : ℚ} {m k : Nat} {e : Int} (shape : |q| = m * 2 ^ e)
    (digits : n * m ^ 2 ≤ 2 ^ 53) (least : -1074 ≤ 2 * e) (size : n * q ^ 2 < 2 ^ 1024) (le : k ≤ n) :
    Reached (k * (q * q)) := by
  have square : |q * q| = (m ^ 2 : Nat) * 2 ^ (2 * e) := by
    rw [abs_mul, shape, two_mul, zpow_add₀ two_ne_zero]
    push_cast
    ring
  apply reached_units square ((Nat.mul_le_mul_right _ le).trans digits) least
  rw [abs_mul_self, ← sq]
  apply lt_of_le_of_lt _ size
  exact mul_le_mul_of_nonneg_right (by exact_mod_cast le) (sq_nonneg q)

/-- How the variance of copies may differ from zero. It is never below, and no number where the
square of a copy overflows. It is zero for one copy and for two where they do not overflow, and where
all sums have room for the digits of the squares. -/
theorem populationVariance_replicate (finite : v.isFinite) (pos : 0 < n) (short : n ≤ 2 ^ 53) :
    ¬ populationVariance (List.replicate n v) < 0.0 ∧
    (2 ^ 512 ≤ |value v| → ¬ (populationVariance (List.replicate n v)).isFinite) ∧
    (n ≤ 2 → |value v| < 2 ^ 511 → populationVariance (List.replicate n v) = 0.0) ∧
    (∀ (m : Nat) (e : Int), |value v| = m * 2 ^ e → n * m ^ 2 ≤ 2 ^ 53 → -1074 ≤ 2 * e →
      n * value v ^ 2 < 2 ^ 1024 → populationVariance (List.replicate n v) = 0.0) := by
  refine ⟨?_, ?_, ?_, ?_⟩
  · rw [populationVariance_replicate_eq pos]
    simp only [spread]
    split
    · decide
    · next notLess => exact notLess
  · intro large
    rw [populationVariance_replicate_eq pos]
    have square := unpack_square_of_large finite large
    exact spread_of_infinite (unpack_foldl_of_square square (.inl rfl) pos) pos (by omega)
  · intro few small
    obtain ⟨square, bound⟩ := abs_value_square_lt finite small
    apply populationVariance_eq_zero_of_reached finite square pos short
    · intro k le
      apply reached_copies finite _ (le.trans few)
      exact small.trans (pow_lt_pow_right₀ one_lt_two (by decide : 511 < 1023))
    · intro k le
      exact reached_copies square bound (le.trans few)
  · intro m e shape digits least size
    have one : Reached ((1 : Nat) * (value v * value v)) :=
      reached_square_of_units shape digits least size pos
    rw [Nat.cast_one, one_mul] at one
    obtain ⟨square, same⟩ := one.of_isResult (isResult_mul finite finite)
    apply populationVariance_eq_zero_of_reached finite square pos short
    · intro k le
      apply reached_units shape _ (by omega) (mul_abs_lt_of_mul_sq_lt short size le)
      calc k * m ≤ n * m := Nat.mul_le_mul_right m le
        _ ≤ n * m ^ 2 := Nat.mul_le_mul_left n (Nat.le_self_pow two_ne_zero m)
        _ ≤ 2 ^ 53 := digits
    · intro k le
      rw [same]
      exact reached_square_of_units shape digits least size le

theorem populationVariance_replicate_cases :
    (0.5 : Float).isFinite ∧ (0 < 3) ∧ (3 ≤ 2 ^ 53) ∧
      populationVariance (List.replicate 3 0.5) = 0.0 := by
  have shape : |value 0.5| = (1 : Nat) * 2 ^ (-1 : Int) := by
    have parts : (0.5 : Float).toModel.unpack = .finite .positive (2 ^ 52) (-53) (by decide) := rfl
    rw [value, parts, toRat_finite, abs_signed _ (by positivity)]
    norm_num
  have size : ((3 : Nat) : ℚ) * value 0.5 ^ 2 < 2 ^ 1024 := by
    have little : ((3 : Nat) : ℚ) * value 0.5 ^ 2 < 2 := by
      rw [← sq_abs, shape]
      norm_num
    exact little.trans (lt_self_pow₀ one_lt_two (by decide))
  refine ⟨rfl, by decide, by decide, ?_⟩
  exact (populationVariance_replicate rfl (by decide) (by decide)).2.2.2 1 (-1) shape (by decide)
    (by decide) size

/-- Copies of a great number have a variance that is no number, and copies of a number with many
digits may have one above zero. -/
theorem variance_of_copies_not_zero :
    (1e200 : Float).isFinite ∧
      (populationVariance (List.replicate 1 1e200)).isNaN ∧
    (0.3 : Float).isFinite ∧ 0.0 < populationVariance (List.replicate 3 0.3) := by
  decide +kernel

end Replicate

end CallStudy
