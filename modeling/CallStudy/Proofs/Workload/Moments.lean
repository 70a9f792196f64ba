import CallStudy.Proofs.Number.Double
import CallStudy.Workload.Moments

/-!
Mean and variance of bounded samples. Sums of `n` samples stay within `n` times the bound of one,
and dividing by `n` returns to it; so both moments are finite where `n` squares of the bound fit in
a double.
-/

set_option autoImplicit false

namespace CallStudy

open Binary Float.Model

/-- A finite double from `low` to `high`. -/
structure Within (low high : ℚ) (x : Float) : Prop where
  isFinite : x.isFinite
  low_le : low ≤ value x
  le_high : value x ≤ high

/-- A double precision number that may bound results. -/
structure Reached (b : ℚ) : Prop where
  held : Held .binary64 b
  small : |b| < 2 ^ 1024

theorem Reached.neg {b : ℚ} (h : Reached b) : Reached (-b) := by
  refine ⟨h.held.neg, ?_⟩
  rw [abs_neg]
  exact h.small

theorem reached_zero : Reached 0 := by
  refine ⟨.zero, ?_⟩
  rw [abs_zero]
  positivity

namespace Within

variable {a b c d q : ℚ} {x y : Float}

theorem of_abs_le (finite : x.isFinite) (bound : |value x| ≤ b) : Within (-b) b x := by
  obtain ⟨low, high⟩ := abs_le.mp bound
  exact ⟨finite, low, high⟩

/-- Rounding does not leave an interval. -/
theorem of_isResult (h : IsResult .binary64 q x.toModel.unpack) (low : Reached a) (high : Reached b)
    (le : a ≤ q) (ge : q ≤ b) : Within a b x := by
  have above := (abs_lt.mp low.small).1
  have below := (abs_lt.mp high.small).2
  have finite := h.isFinite_of_between (by decide) low.held high.held above below le ge
  exact ⟨finite, (h.rounds finite).ge low.held le, (h.rounds finite).le high.held ge⟩

theorem add (hx : Within a b x) (hy : Within c d y) (low : Reached (a + c))
    (high : Reached (b + d)) : Within (a + c) (b + d) (x + y) := by
  apply of_isResult (isResult_add hx.isFinite hy.isFinite) low high
  · exact add_le_add hx.low_le hy.low_le
  · exact add_le_add hx.le_high hy.le_high

theorem sub (hx : Within a b x) (hy : Within c d y) (low : Reached (a - d))
    (high : Reached (b - c)) : Within (a - d) (b - c) (x - y) := by
  apply of_isResult (isResult_sub hx.isFinite hy.isFinite) low high
  · exact sub_le_sub hx.low_le hy.le_high
  · exact sub_le_sub hx.le_high hy.low_le

theorem square (hx : Within (-b) b x) (high : Reached (b * b)) : Within 0 (b * b) (x * x) := by
  have size : |value x| ≤ b := abs_le.mpr ⟨hx.low_le, hx.le_high⟩
  apply of_isResult (isResult_mul hx.isFinite hx.isFinite) reached_zero high
  · exact mul_self_nonneg (value x)
  · exact abs_le_iff_mul_self_le.mp (size.trans (le_abs_self b))

/-- A number of units divided by the number is a unit. -/
theorem div {n : ℚ} (hx : Within (n * a) (n * b) x) (finite : y.isFinite) (pos : 0 < n)
    (divisor : value y = n) (low : Reached a) (high : Reached b) : Within a b (x / y) := by
  have quotient := isResult_div hx.isFinite finite (by rw [divisor]; exact pos.ne')
  rw [divisor] at quotient
  apply of_isResult quotient low high
  · rw [le_div_iff₀ pos, mul_comm]
    exact hx.low_le
  · rw [div_le_iff₀ pos, mul_comm]
    exact hx.le_high

end Within

theorem natCast_mul_lt_two_pow {n j k : Nat} (h : n * 2 ^ j < 2 ^ k) : (n : ℚ) * 2 ^ j < 2 ^ k := by
  exact_mod_cast h

/-- `n` samples up to 2^b have squares that add up to a double. -/
structure Roomy (b n : Nat) : Prop where
  count : n < 2 ^ 53
  squares : n * 4 ^ b < 2 ^ 1024

namespace Roomy

variable {b n k : Nat}

theorem mono (h : Roomy b n) (le : k ≤ n) : Roomy b k :=
  ⟨le.trans_lt h.count, (Nat.mul_le_mul_right _ le).trans_lt h.squares⟩

theorem reached (h : Roomy b n) {j : Nat} (le : 2 ^ j ≤ 4 ^ b) : Reached (n * 2 ^ j) := by
  have least : Format.minExponent .binary64 ≤ j := by
    have negative : Format.minExponent .binary64 ≤ 0 := by decide
    omega
  refine ⟨by simpa using held_mul_pow .binary64 h.count.le least, ?_⟩
  rw [abs_of_nonneg (by positivity)]
  exact natCast_mul_lt_two_pow ((Nat.mul_le_mul_left n le).trans_lt h.squares)

theorem reached_sum (h : Roomy b n) : Reached (n * 2 ^ b) :=
  h.reached (Nat.pow_le_pow_left (by decide) b)

theorem reached_squares (h : Roomy b n) : Reached (n * (2 ^ b * 2 ^ b)) := by
  have reached := h.reached (j := 2 * b) (pow_mul 2 2 b).le
  rwa [two_mul, pow_add] at reached

theorem reached_bound (h : Roomy b n) (pos : 0 < n) : Reached (2 ^ b) := by
  simpa using (h.mono pos).reached_sum

theorem reached_square (h : Roomy b n) (pos : 0 < n) : Reached (2 ^ b * 2 ^ b) := by
  simpa using (h.mono pos).reached_squares

end Roomy

section Sums

variable {b k : Nat} {x : Float}

theorem within_sum_step {sum : Float} (h : Within (-(k * 2 ^ b)) (k * 2 ^ b) sum)
    (hx : Within (-(2 ^ b)) (2 ^ b) x) (room : Roomy b (k + 1)) :
    Within (-((k + 1 : Nat) * 2 ^ b)) ((k + 1 : Nat) * 2 ^ b) (sum + x) := by
  have high : ((k + 1 : Nat) * 2 ^ b : ℚ) = k * 2 ^ b + 2 ^ b := by
    push_cast
    ring
  have low : -((k + 1 : Nat) * 2 ^ b : ℚ) = -(k * 2 ^ b) + -(2 ^ b) := by
    rw [high]
    ring
  have reached := room.reached_sum
  have opposite := reached.neg
  rw [low] at opposite
  rw [high] at reached
  rw [low, high]
  exact h.add hx opposite reached

theorem within_squares_step {squares : Float} (h : Within 0 (k * (2 ^ b * 2 ^ b)) squares)
    (hx : Within (-(2 ^ b)) (2 ^ b) x) (room : Roomy b (k + 1)) :
    Within 0 ((k + 1 : Nat) * (2 ^ b * 2 ^ b)) (squares + x * x) := by
  have square := hx.square (room.reached_square (Nat.succ_pos k))
  have high : ((k + 1 : Nat) * (2 ^ b * 2 ^ b) : ℚ) = k * (2 ^ b * 2 ^ b) + 2 ^ b * 2 ^ b := by
    push_cast
    ring
  have reached := room.reached_squares
  rw [high] at reached ⊢
  have sum := h.add square (by simpa using reached_zero) reached
  rwa [add_zero] at sum

theorem within_sum {data : List Float} (bounded : ∀ x ∈ data, Within (-(2 ^ b)) (2 ^ b) x)
    {sum : Float} (h : Within (-(k * 2 ^ b)) (k * 2 ^ b) sum) (room : Roomy b (k + data.length)) :
    Within (-((k + data.length : Nat) * 2 ^ b)) ((k + data.length : Nat) * 2 ^ b)
      (data.foldl (· + ·) sum) := by
  induction data generalizing k sum with
  | nil => exact h
  | cons x rest ih =>
    rw [List.forall_mem_cons] at bounded
    rw [List.length_cons, Nat.add_comm rest.length, ← Nat.add_assoc] at room ⊢
    have next := within_sum_step h bounded.1 (room.mono (Nat.le_add_right _ _))
    exact ih bounded.2 next room

theorem within_squares {data : List Float} (bounded : ∀ x ∈ data, Within (-(2 ^ b)) (2 ^ b) x)
    {squares : Float} (h : Within 0 (k * (2 ^ b * 2 ^ b)) squares)
    (room : Roomy b (k + data.length)) :
    Within 0 ((k + data.length : Nat) * (2 ^ b * 2 ^ b))
      (data.foldl (fun squares x => squares + x * x) squares) := by
  induction data generalizing k squares with
  | nil => exact h
  | cons x rest ih =>
    rw [List.forall_mem_cons] at bounded
    rw [List.length_cons, Nat.add_comm rest.length, ← Nat.add_assoc] at room ⊢
    have next := within_squares_step h bounded.1 (room.mono (Nat.le_add_right _ _))
    exact ih bounded.2 next room

/-- Without an observer the two sums are folds. -/
theorem sumsWith_pure (data : List Float) (sum squares : Float) :
    Id.run (sumsWith (fun _ => pure ()) data sum squares) =
      (data.foldl (· + ·) sum, data.foldl (fun squares x => squares + x * x) squares) := by
  induction data generalizing sum squares with
  | nil => rfl
  | cons x rest ih => exact ih (sum + x) (squares + x * x)

end Sums

section Moments

variable {b : Nat} {data : List Float}

theorem within_zero {a c : ℚ} {x : Float} (parts : ∃ sign, x.toModel.unpack = .zero sign)
    (low : a ≤ 0) (high : 0 ≤ c) : Within a c x := by
  obtain ⟨sign, parts⟩ := parts
  have zero : value x = 0 := by rw [value, parts, toRat_zero]
  have finite : x.toModel.unpack.isFinite := by
    rw [parts]
    rfl
  exact ⟨finite, low.trans zero.ge, zero.le.trans high⟩

theorem isFinite_mean (bounded : ∀ x ∈ data, Within (-(2 ^ b)) (2 ^ b) x)
    (room : Roomy b data.length) : (mean data).isFinite := by
  unfold mean
  split
  · rfl
  · next some =>
    have pos : 0 < data.length := by
      cases data with
      | nil => exact absurd rfl some
      | cons x rest => exact Nat.succ_pos _
    have start : Within (-((0 : Nat) * 2 ^ b)) ((0 : Nat) * 2 ^ b) (-0.0) :=
      within_zero ⟨.negative, rfl⟩ (by simp) (by simp)
    obtain ⟨finite, count⟩ := ofNat_spec room.count
    have sum := within_sum bounded start (by rwa [Nat.zero_add])
    rw [Nat.zero_add, ← mul_neg] at sum
    have reached := room.reached_bound pos
    exact (sum.div finite (by exact_mod_cast pos) count reached.neg reached).isFinite

theorem isFinite_spread {n : Nat} {sum squares : Float}
    (hs : Within (-(n * 2 ^ b)) (n * 2 ^ b) sum) (hq : Within 0 (n * (2 ^ b * 2 ^ b)) squares)
    (pos : 0 < n) (room : Roomy b n) : (spread n sum squares).isFinite := by
  have some : (0 : ℚ) < n := by exact_mod_cast pos
  have bound := room.reached_bound pos
  have square := room.reached_square pos
  obtain ⟨finite, count⟩ := ofNat_spec room.count
  rw [← mul_neg] at hs
  have mean := hs.div finite some count bound.neg bound
  have squares := Within.div (a := 0) (by rwa [mul_zero]) finite some count reached_zero square
  have variance := squares.sub (mean.square square) (by simpa using square.neg)
    (by simpa using square)
  simp only [spread]
  split
  · rfl
  · exact variance.isFinite

/-- The variance in terms of the two sums. -/
theorem populationVariance_eq (some : data ≠ []) : populationVariance data =
    spread data.length (data.foldl (· + ·) 0.0)
      (data.foldl (fun squares x => squares + x * x) 0.0) := by
  unfold populationVariance populationVarianceWith
  cases data with
  | nil => exact absurd rfl some
  | cons x rest =>
    have sums := sumsWith_pure (x :: rest) 0.0 0.0
    change spread _ (Id.run (sumsWith (fun _ => pure ()) (x :: rest) 0.0 0.0)).1
      (Id.run (sumsWith (fun _ => pure ()) (x :: rest) 0.0 0.0)).2 = _
    rw [sums]

theorem isFinite_populationVariance (bounded : ∀ x ∈ data, Within (-(2 ^ b)) (2 ^ b) x)
    (room : Roomy b data.length) : (populationVariance data).isFinite := by
  by_cases some : data = []
  · subst some
    rfl
  have zero : Within (-((0 : Nat) * 2 ^ b)) ((0 : Nat) * 2 ^ b) 0.0 :=
    within_zero ⟨.positive, rfl⟩ (by simp) (by simp)
  have none : Within 0 ((0 : Nat) * (2 ^ b * 2 ^ b)) 0.0 :=
    within_zero ⟨.positive, rfl⟩ le_rfl (by simp)
  have sum := within_sum bounded zero (by rwa [Nat.zero_add])
  have squares := within_squares bounded none (by rwa [Nat.zero_add])
  rw [Nat.zero_add] at sum squares
  rw [populationVariance_eq some]
  exact isFinite_spread sum squares (List.length_pos_iff.mpr some) room

end Moments

end CallStudy
