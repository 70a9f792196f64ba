import CallStudy.Workload.Grid
import Mathlib

/-!
What the loops add up to. Terms are never negative, so the totals of a loop grow, and the loop ends
exactly when the word for its last total exists: the sum in closed form says whether it overflows.
-/

set_option autoImplicit false

namespace CallStudy

open Finset

namespace Word

theorem isSome_ofInt?_iff {n : Int} : (ofInt? n).isSome ↔ -2 ^ 63 ≤ n ∧ n < 2 ^ 63 := by
  unfold ofInt?
  rw [Int64.toInt_minValue, Int64.toInt_maxValue]
  split <;> simp <;> omega

theorem exists_toInt_eq {n : Int} (low : -2 ^ 63 ≤ n) (high : n < 2 ^ 63) :
    ∃ v : Int64, v.toInt = n := by
  obtain ⟨v, hv⟩ := Option.isSome_iff_exists.mp (isSome_ofInt?_iff.mpr ⟨low, high⟩)
  exact ⟨v, ofInt?_eq_some_iff.mp hv⟩

end Word

@[simp] theorem ofExcept_eq {α : Type} (work : Except Overflow α) :
    (MonadExcept.ofExcept work : Except Overflow α) = work := by
  cases work <;> rfl

section Except

variable {ε ε' α β : Type} {work : Except ε α}

theorem bind_eq_ok_iff {next : α → Except ε β} {b : β} :
    (work >>= next) = .ok b ↔ ∃ a, work = .ok a ∧ next a = .ok b := by
  cases work <;> simp [bind, Except.bind]

theorem map_eq_ok_iff {f : α → β} {b : β} : work.map f = .ok b ↔ ∃ a, work = .ok a ∧ f a = b := by
  cases work <;> simp [Except.map]

theorem mapError_eq_ok_iff {f : ε → ε'} {a : α} : work.mapError f = .ok a ↔ work = .ok a := by
  cases work <;> simp [Except.mapError]

theorem toOption_eq_some_iff {a : α} : work.toOption = some a ↔ work = .ok a := by
  cases work <;> simp [Except.toOption]

end Except

section Loop

variable {term : Nat → Except Overflow Int64} {value : Nat → Nat}

theorem sumFrom_succ_eq_ok_iff {count start : Nat} {total result : Int64} :
    sumFrom term (count + 1) start total = .ok result ↔
      ∃ v next, term start = .ok v ∧ next.toInt = total.toInt + v.toInt ∧
        sumFrom term count (start + 1) next = .ok result := by
  simp only [sumFrom, bind_eq_ok_iff, ofExcept_eq, Word.add_eq_ok_iff]
  constructor
  · rintro ⟨v, hv, next, hn, hr⟩
    exact ⟨v, next, hv, hn, hr⟩
  · rintro ⟨v, next, hv, hn, hr⟩
    exact ⟨v, hv, next, hn, hr⟩

/-- A loop that ends has the sum of the values of its terms. -/
theorem toInt_of_sumFrom {count start : Nat} {total result : Int64}
    (sound : ∀ i < count, ∀ v, term (start + i) = .ok v → v.toInt = value (start + i))
    (run : sumFrom term count start total = .ok result) :
    result.toInt = total.toInt + (∑ i ∈ range count, value (start + i) : Nat) := by
  induction count generalizing start total with
  | zero =>
    cases run
    simp
  | succ count ih =>
    obtain ⟨v, next, hv, hn, rest⟩ := sumFrom_succ_eq_ok_iff.mp run
    have first := sound 0 (by omega) v hv
    have later : ∀ i < count, ∀ v, term (start + 1 + i) = .ok v →
        v.toInt = value (start + 1 + i) := by
      intro i hi v hv
      rw [Nat.add_assoc, Nat.add_comm 1] at hv ⊢
      exact sound (i + 1) (by omega) v hv
    rw [ih later rest, hn, first, sum_range_succ']
    simp only [Nat.add_assoc, Nat.add_comm 1, Nat.add_zero]
    push_cast
    ring

/-- A loop ends when every term is defined for which the sum up to it has a word. -/
theorem sumFrom_eq_ok {count start : Nat} {total result : Int64} (positive : 0 ≤ total.toInt)
    (defined : ∀ i < count,
      total.toInt + (∑ j ∈ range (i + 1), value (start + j) : Nat) < 2 ^ 63 →
        ∃ v, term (start + i) = .ok v ∧ v.toInt = value (start + i))
    (sum : result.toInt = total.toInt + (∑ i ∈ range count, value (start + i) : Nat)) :
    sumFrom term count start total = .ok result := by
  have top := Int64.toInt_lt result
  induction count generalizing start total with
  | zero =>
    have equal : result = total := Int64.toInt_inj.mp (by simpa using sum)
    rw [equal]
    rfl
  | succ count ih =>
    rw [sum_range_succ'] at sum
    simp only [Nat.add_zero, ← Nat.add_assoc, Nat.add_right_comm start _ 1] at sum
    have fits : total.toInt + value start ≤ result.toInt := by omega
    obtain ⟨v, hv, first⟩ := defined 0 (by omega) (by
      rw [zero_add, sum_range_one, Nat.add_zero]
      omega)
    obtain ⟨next, hn⟩ := Word.exists_toInt_eq (by omega) (Int.lt_of_le_of_lt fits top)
    rw [Nat.add_zero] at hv first
    refine sumFrom_succ_eq_ok_iff.mpr ⟨v, next, hv, by omega, ?_⟩
    refine ih (by omega) ?_ (by omega)
    intro i hi bound
    have later := defined (i + 1) (by omega)
    rw [sum_range_succ'] at later
    simp only [Nat.add_zero, ← Nat.add_assoc, Nat.add_right_comm start _ 1] at later
    exact later (by omega)

theorem sumFrom_eq_ok_iff (value : Nat → Nat) {count start : Nat} {total result : Int64}
    (positive : 0 ≤ total.toInt)
    (sound : ∀ i < count, ∀ v, term (start + i) = .ok v → v.toInt = value (start + i))
    (defined : ∀ i < count,
      total.toInt + (∑ j ∈ range (i + 1), value (start + j) : Nat) < 2 ^ 63 →
        ∃ v, term (start + i) = .ok v ∧ v.toInt = value (start + i)) :
    sumFrom term count start total = .ok result ↔
      result.toInt = total.toInt + (∑ i ∈ range count, value (start + i) : Nat) :=
  ⟨toInt_of_sumFrom sound, sumFrom_eq_ok positive defined⟩

end Loop

/-! The branched sum. -/

/-- The word that a natural number below `2 ^ 63` stands for. -/
theorem toInt_ofNat {n : Nat} (h : n < 2 ^ 63) : (Int64.ofNat n).toInt = n :=
  Int64.toInt_ofNat_of_lt h

theorem scalarTransform_of_neg {a : Int64} (negative : a < 0) : scalarTransform a = .ok 0 :=
  if_pos negative

theorem scalarTransform_eq_ok_iff {a w : Int64} (nonneg : ¬ a < 0) :
    scalarTransform a = .ok w ↔ w.toInt = 2 * a.toInt + 1 := by
  have low : 0 ≤ a.toInt := by simpa [Int64.lt_iff_toInt_lt] using nonneg
  have two : (2 : Int64).toInt = 2 := rfl
  have one : (1 : Int64).toInt = 1 := rfl
  simp only [scalarTransform, if_neg nonneg, bind_eq_ok_iff, Word.mul_eq_ok_iff,
    Word.add_eq_ok_iff, two, one]
  constructor
  · rintro ⟨d, hd, hw⟩
    omega
  · intro hw
    have top := Int64.toInt_lt w
    obtain ⟨d, hd⟩ := Word.exists_toInt_eq (n := a.toInt * 2) (by omega) (by omega)
    exact ⟨d, hd, by omega⟩

theorem ofNat_not_neg {n : Nat} (h : n < 2 ^ 63) : ¬ Int64.ofNat n < 0 := by
  rw [Int64.lt_iff_toInt_lt, toInt_ofNat h]
  simp

/-- A term of the series is defined as long as the transform inside it is. -/
theorem seriesTerm_eq_ok_iff {i : Nat} {w : Int64} (word : i < 2 ^ 63) :
    seriesTerm i = .ok w ↔ w.toInt = i + 1 ∧ 2 * i + 1 < 2 ^ 63 := by
  have index := toInt_ofNat word
  simp only [seriesTerm, map_eq_ok_iff, scalarTransform_eq_ok_iff (ofNat_not_neg word), index]
  constructor
  · rintro ⟨t, ht, rfl⟩
    have top := Int64.toInt_lt t
    rw [Int64.toInt_sub, index, ht, Int.bmod_eq_of_le (by omega) (by omega)]
    omega
  · rintro ⟨hw, fits⟩
    obtain ⟨t, ht⟩ := Word.exists_toInt_eq (n := 2 * (i : Int) + 1) (by omega) (by omega)
    refine ⟨t, ht, Int64.toInt_inj.mp ?_⟩
    rw [Int64.toInt_sub, index, ht, Int.bmod_eq_of_le (by omega) (by omega)]
    omega

theorem sum_range_succ_eq (n : Nat) : ∑ i ∈ range n, (i + 1) = n * (n + 1) / 2 := by
  have shifted : ∑ i ∈ range (n + 1), i = ∑ i ∈ range n, (i + 1) := by
    rw [sum_range_succ', Nat.add_zero]
  rw [← shifted, sum_range_id, Nat.add_sub_cancel, Nat.mul_comm]

/-- The square root of twice a word bounds how many terms of the series can be summed. -/
theorem double_lt_of_sum_lt {i : Nat} (fits : ∑ j ∈ range (i + 1), (j + 1) < 2 ^ 63) :
    2 * i + 1 < 2 ^ 63 := by
  rw [sum_range_succ_eq] at fits
  have square : i ≤ i * i := Nat.le_mul_self i
  have expand : (i + 1) * (i + 1 + 1) = i * i + 3 * i + 2 := by ring
  omega

theorem toInt_toNat_lt (x : Int64) : x.toInt.toNat < 2 ^ 63 := by
  have top := Int64.toInt_lt x
  omega

theorem seriesSum_eq_ok_iff {count : Nat} {w : Int64} (word : count < 2 ^ 63) :
    sumFrom seriesTerm count 0 0 = .ok w ↔ w.toInt = (count * (count + 1) / 2 : Nat) := by
  rw [sumFrom_eq_ok_iff (fun i => i + 1) (by simp)]
  · simp [sum_range_succ_eq]
  · intro i hi v hv
    exact (seriesTerm_eq_ok_iff (by omega)).mp hv |>.1
  · intro i hi fits
    simp only [Int64.toInt_zero, zero_add] at fits ⊢
    have single := double_lt_of_sum_lt (i := i) (by exact_mod_cast fits)
    obtain ⟨v, hv⟩ := Word.exists_toInt_eq (n := (i : Int) + 1) (by omega) (by omega)
    exact ⟨v, (seriesTerm_eq_ok_iff (by omega)).mpr ⟨hv, single⟩, hv⟩

theorem checkedScalarTransform_eq_some_iff {a w : Int64} :
    checkedScalarTransform a = some w ↔ scalarTransform a = .ok w := by
  unfold checkedScalarTransform
  split
  · next negative => simp [scalarTransform_of_neg negative]
  · next nonneg =>
    have low : 0 ≤ a.toInt := by simpa [Int64.lt_iff_toInt_lt] using nonneg
    simp only [scalarTransform_eq_ok_iff nonneg, Option.bind_eq_some_iff,
      Word.ofInt?_eq_some_iff]
    constructor
    · rintro ⟨d, hd, hw⟩
      omega
    · intro hw
      have top := Int64.toInt_lt w
      obtain ⟨d, hd⟩ := Word.exists_toInt_eq (n := a.toInt * 2) (by omega) (by omega)
      exact ⟨d, hd, by omega⟩

/-- The branched sum ends exactly with what its closed form says, and overflows where the closed
form has no value. -/
theorem branchedAccumulate_eq_ok_iff {x y w : Int64} :
    branchedAccumulate x y = .ok w ↔ checkedBranchedAccumulate x y = some w := by
  unfold branchedAccumulate checkedBranchedAccumulate
  split
  · rw [seriesSum_eq_ok_iff (toInt_toNat_lt x)]
    split
    · next low =>
      have none : x.toInt.toNat = 0 := by
        rw [Int64.le_iff_toInt_le] at low
        simp only [Int64.toInt_zero] at low
        omega
      rw [none, Option.some_inj, ← Int64.toInt_inj]
      simp [eq_comm]
    · next high =>
      have count : (x.toInt.toNat : Int) = x.toInt := by
        rw [Int64.le_iff_toInt_le, Int64.toInt_zero] at high
        omega
      rw [Word.ofInt?_eq_some_iff]
      push_cast
      rw [count]
  · simp only [bind_eq_ok_iff, Word.add_eq_ok_iff, Option.bind_eq_some_iff,
      checkedScalarTransform_eq_some_iff, Word.ofInt?_eq_some_iff]

/-! A pass of increments over a grid. -/

theorem increment_eq_ok_iff {a w : Int64} : increment a = .ok w ↔ w.toInt = a.toInt + 1 :=
  Word.add_eq_ok_iff

/-- The work at one cell is defined exactly when one more than its product is a word. -/
theorem cell_eq_ok_iff {i j : Nat} {w : Int64} (row : i < 2 ^ 63) (col : j < 2 ^ 63) :
    ((MonadExcept.ofExcept (Word.mul (.ofNat i) (.ofNat j)) : Except Overflow Int64) >>=
      increment) = .ok w ↔ w.toInt = (i * j + 1 : Nat) := by
  simp only [ofExcept_eq, bind_eq_ok_iff, Word.mul_eq_ok_iff, increment_eq_ok_iff,
    toInt_ofNat row, toInt_ofNat col]
  push_cast
  constructor
  · rintro ⟨p, hp, hw⟩
    rw [hw, hp]
  · intro hw
    have top := Int64.toInt_lt w
    have low : 0 ≤ (i : Int) * j := by positivity
    obtain ⟨p, hp⟩ := Word.exists_toInt_eq (n := (i : Int) * j) (by omega) (by omega)
    exact ⟨p, hp, by rw [hp, hw]⟩

/-- The increments of one row add up to this. -/
def rowTotal (cols i : Nat) : Nat := ∑ j ∈ range cols, (i * j + 1)

theorem accumulateRow_eq_ok_iff {cols i : Nat} {total w : Int64} (row : i < 2 ^ 63)
    (width : cols ≤ 2 ^ 63) (positive : 0 ≤ total.toInt) :
    accumulateRow increment cols i total = .ok w ↔ w.toInt = total.toInt + rowTotal cols i := by
  rw [accumulateRow, sumFrom_eq_ok_iff (fun j => i * j + 1) positive]
  · simp [rowTotal]
  · intro j hj v hv
    exact (cell_eq_ok_iff row (by omega)).mp hv
  · intro j hj fits
    rw [sum_range_succ] at fits
    obtain ⟨v, hv⟩ := Word.exists_toInt_eq (n := (i * (0 + j) + 1 : Nat)) (by omega) (by omega)
    exact ⟨v, (cell_eq_ok_iff row (by omega)).mpr hv, hv⟩

theorem accumulateRows_eq_ok_iff {cols count i : Nat} {total w : Int64}
    (height : i + count ≤ 2 ^ 63) (width : cols ≤ 2 ^ 63) (positive : 0 ≤ total.toInt) :
    accumulateRows increment cols count i total = .ok w ↔
      w.toInt = total.toInt + (∑ a ∈ range count, rowTotal cols (i + a) : Nat) := by
  induction count generalizing i total with
  | zero =>
    simp only [accumulateRows, pure, Except.pure, Except.ok.injEq, ← Int64.toInt_inj]
    simp [eq_comm]
  | succ count ih =>
    have first (next : Int64) :=
      accumulateRow_eq_ok_iff (i := i) (w := next) (by omega) width positive
    rw [sum_range_succ']
    simp only [accumulateRows, bind_eq_ok_iff, first, Nat.add_zero, ← Nat.add_assoc,
      Nat.add_right_comm i _ 1]
    constructor
    · rintro ⟨next, hn, rest⟩
      rw [ih (by omega) (by omega)] at rest
      omega
    · intro hw
      have top := Int64.toInt_lt w
      obtain ⟨next, hn⟩ := Word.exists_toInt_eq (n := total.toInt + rowTotal cols i)
        (by omega) (by omega)
      exact ⟨next, hn, (ih (by omega) (by omega)).mpr (by omega)⟩

/-- The products and the number of the cells of a grid. -/
def gridTotal (rows cols : Nat) : Nat := triangle rows * triangle cols + rows * cols

theorem sum_rowTotal_eq (rows cols : Nat) :
    ∑ i ∈ range rows, rowTotal cols i = gridTotal rows cols := by
  have products : triangle rows * triangle cols = ∑ i ∈ range rows, ∑ j ∈ range cols, i * j := by
    rw [← sum_mul_sum, sum_range_id, sum_range_id]
    rfl
  simp only [rowTotal, sum_add_distrib, sum_const, card_range, smul_eq_mul, mul_one, gridTotal,
    products]

theorem side_lt (n : UInt64) : GridBounds.side n < 2 ^ 63 := by
  simp only [GridBounds.side, Int64.toInt_maxValue]
  omega

/-- A pass ends with the total of the sides as they are cut, and overflows where that is no
word. -/
theorem gridAccumulate_eq_ok_iff {b : GridBounds} {w : Int64} :
    gridAccumulate b = .ok w ↔
      w.toInt = gridTotal (GridBounds.side b.rows) (GridBounds.side b.cols) := by
  have height := side_lt b.rows
  have width := side_lt b.cols
  rw [gridAccumulate, gridAccumulateWith,
    accumulateRows_eq_ok_iff (by omega) (by omega) (by simp), ← sum_rowTotal_eq]
  simp

theorem wide?_eq_some_iff {n m : Nat} : wide? n = some m ↔ n = m ∧ n < 2 ^ 128 := by
  rw [wide?, Nat.pow_eq]
  split <;> simp <;> omega

/-- The closed form has the total of the sides as they are. -/
theorem gridClosedForm_eq_some_iff {b : GridBounds} {w : Int64} :
    gridClosedForm b = some w ↔ w.toInt = gridTotal b.rows.toNat b.cols.toNat := by
  have top := Int64.toInt_lt w
  simp only [gridClosedForm, Option.bind_eq_bind, Option.bind_eq_some_iff, wide?_eq_some_iff,
    Word.ofInt?_eq_some_iff, gridTotal]
  constructor
  · rintro ⟨p, ⟨rfl, -⟩, n, ⟨rfl, -⟩, t, ⟨rfl, -⟩, hw⟩
    exact hw
  · intro hw
    exact ⟨_, ⟨rfl, by omega⟩, _, ⟨rfl, by omega⟩, _, ⟨rfl, by omega⟩, hw⟩

theorem GridBounds.fits_iff {b : GridBounds} :
    b.fits ↔ gridTotal b.rows.toNat b.cols.toNat < 2 ^ 63 := by
  rw [fits, Option.isSome_iff_exists]
  constructor
  · rintro ⟨w, hw⟩
    have top := Int64.toInt_lt w
    have value := gridClosedForm_eq_some_iff.mp hw
    omega
  · intro total
    obtain ⟨w, hw⟩ := Word.exists_toInt_eq (n := gridTotal b.rows.toNat b.cols.toNat)
      (by omega) (by omega)
    exact ⟨w, gridClosedForm_eq_some_iff.mpr hw⟩

theorem mul_le_gridTotal (rows cols : Nat) : rows * cols ≤ gridTotal rows cols :=
  Nat.le_add_left _ _

@[simp] theorem gridTotal_zero_left (cols : Nat) : gridTotal 0 cols = 0 := by
  simp [gridTotal, triangle]

@[simp] theorem gridTotal_zero_right (rows : Nat) : gridTotal rows 0 = 0 := by
  simp [gridTotal, triangle]

@[simp] theorem gridTotal_one_left (cols : Nat) : gridTotal 1 cols = cols := by
  simp [gridTotal, triangle]

@[simp] theorem gridTotal_one_right (rows : Nat) : gridTotal rows 1 = rows := by
  simp [gridTotal, triangle]

namespace GridBounds

/-- A single line of cells with a side that is cut. -/
def IsCutLine (b : GridBounds) : Prop :=
  (b.rows = 1 ∧ 2 ^ 63 ≤ b.cols.toNat) ∨ (b.cols = 1 ∧ 2 ^ 63 ≤ b.rows.toNat)

instance (b : GridBounds) : Decidable b.IsCutLine := inferInstanceAs (Decidable (_ ∨ _))

theorem side_eq_of_lt {n : UInt64} (h : n.toNat < 2 ^ 63) : side n = n.toNat := by
  simp only [side, Int64.toInt_maxValue]
  omega

theorem side_eq_of_le {n : UInt64} (h : 2 ^ 63 ≤ n.toNat) : side n = 2 ^ 63 - 1 := by
  simp only [side, Int64.toInt_maxValue]
  omega

/-- A long side of a grid that fits faces an empty one. -/
theorem sides_of_fits {b : GridBounds} (fits : b.fits) :
    (side b.rows = b.rows.toNat ∧ side b.cols = b.cols.toNat) ∨
      b.rows.toNat = 0 ∨ b.cols.toNat = 0 := by
  have total := fits_iff.mp fits
  have cells := Nat.lt_of_le_of_lt (mul_le_gridTotal b.rows.toNat b.cols.toNat) total
  by_cases rows : b.rows.toNat < 2 ^ 63
  · by_cases cols : b.cols.toNat < 2 ^ 63
    · exact .inl ⟨side_eq_of_lt rows, side_eq_of_lt cols⟩
    · refine .inr (.inl ?_)
      by_contra some
      have := Nat.le_mul_of_pos_left b.cols.toNat (Nat.pos_of_ne_zero some)
      omega
  · refine .inr (.inr ?_)
    by_contra some
    have := Nat.le_mul_of_pos_right b.rows.toNat (Nat.pos_of_ne_zero some)
    omega

theorem gridTotal_side_of_fits {b : GridBounds} (fits : b.fits) :
    gridTotal (side b.rows) (side b.cols) = gridTotal b.rows.toNat b.cols.toNat := by
  rcases sides_of_fits fits with ⟨rows, cols⟩ | empty | empty
  · rw [rows, cols]
  · simp [side_eq_of_lt (n := b.rows) (by omega), empty]
  · simp [side_eq_of_lt (n := b.cols) (by omega), empty]

theorem gridTotal_side_of_isCutLine {b : GridBounds} (line : b.IsCutLine) :
    gridTotal (side b.rows) (side b.cols) = 2 ^ 63 - 1 := by
  have one : side 1 = 1 := rfl
  rcases line with ⟨rows, cols⟩ | ⟨cols, rows⟩
  · rw [rows, one, gridTotal_one_left, side_eq_of_le cols]
  · rw [cols, one, gridTotal_one_right, side_eq_of_le rows]

theorem two_le_of_ne {n : UInt64} (zero : n.toNat ≠ 0) (one : n ≠ 1) : 2 ≤ side n := by
  have above : n.toNat ≠ 1 := fun equal => one (UInt64.toNat_inj.mp equal)
  simp only [side, Int64.toInt_maxValue]
  omega

/-- Of grids that do not fit only cut lines have a word for the total of their sides as cut. -/
theorem le_gridTotal_side {b : GridBounds} (large : ¬ b.fits) (line : ¬ b.IsCutLine) :
    2 ^ 63 ≤ gridTotal (side b.rows) (side b.cols) := by
  rw [fits_iff, Nat.not_lt] at large
  simp only [IsCutLine, not_or, not_and, Nat.not_le] at line
  have cells := mul_le_gridTotal (side b.rows) (side b.cols)
  have rowsZero : b.rows.toNat ≠ 0 := fun zero => by simp [zero] at large
  have colsZero : b.cols.toNat ≠ 0 := fun zero => by simp [zero] at large
  by_cases rows : b.rows.toNat < 2 ^ 63
  · by_cases cols : b.cols.toNat < 2 ^ 63
    · rwa [side_eq_of_lt rows, side_eq_of_lt cols]
    · have two := two_le_of_ne rowsZero fun one => cols (line.1 one)
      have lines := Nat.mul_le_mul_right (side b.cols) two
      rw [side_eq_of_le (Nat.not_lt.mp cols)] at lines cells ⊢
      omega
  · have two := two_le_of_ne colsZero fun one => rows (line.2 one)
    have lines := Nat.mul_le_mul_left (side b.rows) two
    rw [side_eq_of_le (Nat.not_lt.mp rows)] at lines cells ⊢
    omega

end GridBounds

/-- Where the closed form has a value, the pass ends with it. -/
theorem gridAccumulate_of_closedForm {b : GridBounds} {v : Int64}
    (total : gridClosedForm b = some v) : gridAccumulate b = .ok v := by
  have fits : b.fits := Option.isSome_iff_exists.mpr ⟨v, total⟩
  rw [gridAccumulate_eq_ok_iff, GridBounds.gridTotal_side_of_fits fits]
  exact gridClosedForm_eq_some_iff.mp total

theorem gridPasses_of_fits {b : GridBounds} (fits : b.fits) (count : Nat) :
    gridPasses b count = .ok () := by
  obtain ⟨v, total⟩ := Option.isSome_iff_exists.mp fits
  induction count with
  | zero => rfl
  | succ count ih =>
    rw [gridPasses, gridAccumulate_of_closedForm total]
    exact ih

end CallStudy
