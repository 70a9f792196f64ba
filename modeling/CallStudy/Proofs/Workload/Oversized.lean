import CallStudy.Proofs.Workload.ClosedForms

/-!
Grids whose total is no word. Every cell adds at least one, so a cell whose product is no word
stands behind more cells than a word can count: the total has overflowed before.
-/

set_option autoImplicit false

namespace CallStudy

open Finset

/-- Every cell of a row adds at least one. -/
theorem le_rowTotal (cols i : Nat) : cols ≤ rowTotal cols i := by
  simp [rowTotal, sum_add_distrib]

/-- Every cell of the rows above adds at least one. -/
theorem mul_le_totalBefore (cols i j : Nat) : i * cols ≤ totalBefore cols i j := by
  have rows : ∑ _a ∈ range i, cols ≤ ∑ a ∈ range i, rowTotal cols a :=
    sum_le_sum fun a _ => le_rowTotal cols a
  rw [sum_const, card_range, smul_eq_mul] at rows
  exact Nat.le_trans rows (Nat.le_add_right _ _)

/-- A pass comes to the cell in row `i` and column `j` with the total `before`. -/
def Reaches (b : GridBounds) (i j : Nat) (before : Int64) : Prop :=
  (accumulateRows increment (GridBounds.side b.cols) i 0 0 >>=
    accumulateRow increment j i) = .ok before

theorem toInt_of_reaches {b : GridBounds} {i j : Nat} {before : Int64}
    (row : i < GridBounds.side b.rows) (col : j < GridBounds.side b.cols)
    (reached : Reaches b i j before) :
    before.toInt = totalBefore (GridBounds.side b.cols) i j := by
  have height := side_lt b.rows
  have width := side_lt b.cols
  obtain ⟨rows, above, inRow⟩ := bind_eq_ok_iff.mp reached
  rw [accumulateRows_eq_ok_iff (by omega) (by omega) (by simp), Int64.toInt_zero] at above
  rw [accumulateRow_eq_ok_iff (by omega) (by omega) (by omega), above] at inRow
  simpa [totalBefore, rowTotal] using inRow

/-- Work at a cell that a pass comes to never overflows: at least as much was added up before. -/
theorem exists_term_of_reaches {b : GridBounds} {i j : Nat} {before : Int64}
    (row : i < GridBounds.side b.rows) (col : j < GridBounds.side b.cols)
    (reached : Reaches b i j before) :
    ∃ product term, Word.mul (.ofNat i) (.ofNat j) = .ok product ∧
      increment product = .ok term := by
  have height := side_lt b.rows
  have width := side_lt b.cols
  have total := toInt_of_reaches row col reached
  have top := Int64.toInt_lt before
  have cells := mul_le_totalBefore (GridBounds.side b.cols) i j
  have fits : i * j + 1 < 2 ^ 63 := by
    obtain rfl | positive := Nat.eq_zero_or_pos i
    · simp
    · have behind : i * (j + 1) ≤ i * GridBounds.side b.cols := Nat.mul_le_mul_left i col
      rw [Nat.mul_succ] at behind
      omega
  obtain ⟨term, value⟩ := Word.exists_toInt_eq (n := (i * j + 1 : Nat)) (by omega) (by omega)
  obtain ⟨product, multiplied, incremented⟩ :=
    bind_eq_ok_iff.mp ((cell_eq_ok_iff (by omega) (by omega)).mpr value)
  exact ⟨product, term, by simpa using multiplied, incremented⟩

/-- A row that starts behind at least `i` rows of as many cells overflows in no product. -/
theorem accumulateRow_ne_multiplication {cols i : Nat} {total : Int64} (row : i < 2 ^ 63)
    (width : cols ≤ 2 ^ 63) (above : (i * cols : Nat) ≤ total.toInt) :
    accumulateRow increment cols i total ≠ .error .multiplication := by
  apply sumFrom_ne_multiplication fun j => i * j + 1
  · omega
  · intro j inRow v value
    rw [(cell_eq_ok_iff row (by omega)).mp value]
  · intro j inRow _ overflow
    have top := Int64.toInt_lt total
    have product : i * (0 + j) ≤ i * cols := Nat.mul_le_mul_left i (by omega)
    obtain multiplied | ⟨_, -, added⟩ := bind_eq_error_iff.mp overflow
    · rw [ofExcept_eq, Word.mul_eq_error_iff, toInt_ofNat row, toInt_ofNat (by omega)] at multiplied
      have word : ((i : Int) * ((0 + j : Nat) : Int)) = (i * (0 + j) : Nat) := by push_cast; rfl
      omega
    · exact absurd (Word.add_eq_error_iff.mp added).1 (by simp)

theorem accumulateRows_ne_multiplication {cols count i : Nat} {total : Int64}
    (height : i + count ≤ 2 ^ 63) (width : cols ≤ 2 ^ 63)
    (above : (i * cols : Nat) ≤ total.toInt) :
    accumulateRows increment cols count i total ≠ .error .multiplication := by
  induction count generalizing i total with
  | zero => simp [accumulateRows, pure, Except.pure]
  | succ count ih =>
    intro overflow
    rw [accumulateRows, bind_eq_error_iff] at overflow
    obtain first | ⟨next, first, later⟩ := overflow
    · exact accumulateRow_ne_multiplication (by omega) width above first
    · rw [accumulateRow_eq_ok_iff (by omega) width (by omega)] at first
      have cells := le_rowTotal cols i
      refine ih (by omega) ?_ later
      rw [Nat.succ_mul]
      omega

theorem gridAccumulate_ne_multiplication (b : GridBounds) :
    gridAccumulate b ≠ .error .multiplication := by
  have height := side_lt b.rows
  have width := side_lt b.cols
  exact accumulateRows_ne_multiplication (by omega) (by omega) (by simp)

theorem gridAccumulate_of_isCutLine {b : GridBounds} (line : b.IsCutLine) :
    gridAccumulate b = .ok Int64.maxValue := by
  rw [gridAccumulate_eq_ok_iff, GridBounds.gridTotal_side_of_isCutLine line, Int64.toInt_maxValue]
  rfl

theorem gridAccumulate_of_not_fits {b : GridBounds} (large : ¬ b.fits) (line : ¬ b.IsCutLine) :
    gridAccumulate b = .error .addition := by
  have exceeds := GridBounds.le_gridTotal_side large line
  cases run : gridAccumulate b with
  | ok total =>
    have value := gridAccumulate_eq_ok_iff.mp run
    have top := Int64.toInt_lt total
    omega
  | error o =>
    cases o with
    | addition => rfl
    | multiplication => exact absurd run (gridAccumulate_ne_multiplication b)

/-- A pass over a grid whose closed form has no value overflows, and always in an addition: at no
cell that it comes to is the product of the indices too great. Only a single line of cells with a
cut side ends, with the greatest word. -/
theorem oversized_grid_overflows_in_addition (b : GridBounds) (large : gridClosedForm b = none) :
    (gridAccumulate b).mapError Overflow.message =
      (if b.IsCutLine then .ok Int64.maxValue else .error "attempt to add with overflow") ∧
    ∀ i < GridBounds.side b.rows, ∀ j < GridBounds.side b.cols, ∀ before, Reaches b i j before →
      ∃ product term, Word.mul (.ofNat i) (.ofNat j) = .ok product ∧
        increment product = .ok term := by
  have exceeds : ¬ b.fits := by simp [GridBounds.fits, large]
  refine ⟨?_, fun i row j col before reached => exists_term_of_reaches row col reached⟩
  split
  · next line =>
    rw [gridAccumulate_of_isCutLine line]
    rfl
  · next line =>
    rw [gridAccumulate_of_not_fits exceeds line]
    rfl

/-- A square, a single line with a cut side, and the second cell in the second row of two columns
of which one side is cut. -/
theorem oversized_grid_overflows_in_addition_of_any_shape :
    (gridAccumulate ⟨4000000000, 4000000000⟩).mapError Overflow.message =
      .error "attempt to add with overflow" ∧
    (gridAccumulate ⟨18446744073709551615, 1⟩).mapError Overflow.message = .ok Int64.maxValue ∧
    ∃ product term, Word.mul (.ofNat 1) (.ofNat 1) = .ok product ∧ increment product = .ok term := by
  have square := (oversized_grid_overflows_in_addition ⟨4000000000, 4000000000⟩ (by decide)).1
  have line := (oversized_grid_overflows_in_addition ⟨18446744073709551615, 1⟩ (by decide)).1
  have columns := (oversized_grid_overflows_in_addition ⟨9223372036854775808, 2⟩ (by decide)).2
  rw [if_neg (by decide)] at square
  rw [if_pos (by decide)] at line
  exact ⟨square, line, columns 1 (by decide) 1 (by decide) 3 (by unfold Reaches; rfl)⟩

end CallStudy
