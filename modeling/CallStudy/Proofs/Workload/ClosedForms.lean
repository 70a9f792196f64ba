import CallStudy.Proofs.Workload.Sums

/-!
Closed forms and the loops that they stand for. The closed forms are computed in numbers of 128
bits, some of whose operations are not checked; none of these leaves its range. A loop whose terms
can be formed as long as its total has a word overflows in an addition, so only the transform
behind the loop overflows in a multiplication.
-/

set_option autoImplicit false

namespace CallStudy

open Finset

/-- A number that fits in 128 bits with a sign. -/
def signedWide? (n : Int) : Option Int := if -2 ^ 127 ≤ n ∧ n < 2 ^ 127 then some n else none

/-- The result of an operation that is not checked. -/
def unchecked {α : Type} (o : Overflow) : Option α → Except Overflow α
  | some a => .ok a
  | none => .error o

/-! A pass over a grid. -/

/-- `triangle` by operations on 128 bits. -/
def wideTriangle (n : Nat) : Except Overflow Nat := do
  let product ← unchecked .multiplication (wide? (n * (n - 1)))
  return product / 2

/-- `gridClosedForm` by operations on 128 bits, those of the triangles unchecked. -/
def wideClosedForm (b : GridBounds) : Except Overflow (Option Int64) := do
  let rows ← wideTriangle b.rows.toNat
  let cols ← wideTriangle b.cols.toNat
  return do
    let products ← wide? (rows * cols)
    let cells ← wide? (b.rows.toNat * b.cols.toNat)
    let total ← wide? (products + cells)
    Word.ofInt? total

theorem wideTriangle_eq_ok {n : Nat} (h : n < 2 ^ 64) : wideTriangle n = .ok (triangle n) := by
  have bound : n * (n - 1) ≤ (2 ^ 64 - 1) * (2 ^ 64 - 1) := Nat.mul_le_mul (by omega) (by omega)
  have fits : wide? (n * (n - 1)) = some (n * (n - 1)) := wide?_eq_some_iff.mpr ⟨rfl, by omega⟩
  rw [wideTriangle, fits]
  rfl

theorem wideClosedForm_eq_ok (b : GridBounds) : wideClosedForm b = .ok (gridClosedForm b) := by
  rw [wideClosedForm, wideTriangle_eq_ok b.rows.toNat_lt, wideTriangle_eq_ok b.cols.toNat_lt]
  rfl

/-- The total of a pass, cell by cell. -/
theorem gridTotal_eq_sum (rows cols : Nat) :
    (gridTotal rows cols : Int) = ∑ i ∈ range rows, ∑ j ∈ range cols, ((i : Int) * j + 1) := by
  rw [← sum_rowTotal_eq]
  simp only [rowTotal]
  push_cast
  rfl

theorem map_gridClosedForm_eq_some_iff {b : GridBounds} {v : Int} :
    (gridClosedForm b).map Int64.toInt = some v ↔
      v = gridTotal b.rows.toNat b.cols.toNat ∧ v ≤ Int64.maxValue.toInt := by
  rw [Option.map_eq_some_iff, Int64.toInt_maxValue]
  constructor
  · rintro ⟨w, hw, rfl⟩
    have top := Int64.toInt_lt w
    exact ⟨gridClosedForm_eq_some_iff.mp hw, by omega⟩
  · rintro ⟨total, top⟩
    obtain ⟨w, hw⟩ := Word.exists_toInt_eq (n := v) (by omega) (by omega)
    exact ⟨w, gridClosedForm_eq_some_iff.mpr (hw.trans total), hw⟩

/-- What a pass has added up before the cell in row `i` and column `j`. -/
def totalBefore (cols i j : Nat) : Nat :=
  ∑ a ∈ range i, rowTotal cols a + ∑ a ∈ range j, (i * a + 1)

theorem totalBefore_succ (cols i j : Nat) :
    totalBefore cols i (j + 1) = totalBefore cols i j + (i * j + 1) := by
  rw [totalBefore, sum_range_succ, totalBefore, Nat.add_assoc]

/-- No total on the way exceeds the one at the end. -/
theorem totalBefore_le {rows cols i j : Nat} (row : i < rows) (col : j ≤ cols) :
    totalBefore cols i j ≤ gridTotal rows cols := by
  have inRow : ∑ a ∈ range j, (i * a + 1) ≤ rowTotal cols i :=
    sum_le_sum_of_subset (range_subset_range.mpr col)
  have rowsBelow : ∑ a ∈ range (i + 1), rowTotal cols a ≤ ∑ a ∈ range rows, rowTotal cols a :=
    sum_le_sum_of_subset (range_subset_range.mpr row)
  rw [sum_range_succ] at rowsBelow
  rw [totalBefore, ← sum_rowTotal_eq]
  omega

/-- The steps of a pass at one cell: the product, its increment and the new total. -/
structure StepsAt (b : GridBounds) (i j : Nat) (product term before after : Int64) : Prop where
  multiplies : Word.mul (.ofNat i) (.ofNat j) = .ok product
  increments : increment product = .ok term
  reaches : (accumulateRows increment (GridBounds.side b.cols) i 0 0 >>=
    accumulateRow increment j i) = .ok before
  adds : Word.add before term = .ok after

/-- A pass whose total has a word has one at every step. -/
theorem exists_stepsAt {b : GridBounds}
    (fits : gridTotal (GridBounds.side b.rows) (GridBounds.side b.cols) < 2 ^ 63) {i j : Nat}
    (row : i < GridBounds.side b.rows) (col : j < GridBounds.side b.cols) :
    ∃ product term before after, StepsAt b i j product term before after := by
  have height := side_lt b.rows
  have width := side_lt b.cols
  have later := totalBefore_le row (Nat.succ_le_of_lt col)
  rw [totalBefore_succ] at later
  have word (n : Nat) (bound : n < 2 ^ 63) : ∃ w : Int64, w.toInt = n :=
    Word.exists_toInt_eq (by omega) (by omega)
  obtain ⟨product, hp⟩ := word (i * j) (by omega)
  obtain ⟨term, ht⟩ := word (i * j + 1) (by omega)
  obtain ⟨rows, hr⟩ := word (∑ a ∈ range i, rowTotal (GridBounds.side b.cols) a)
    (by unfold totalBefore at later; omega)
  obtain ⟨before, hb⟩ := word (totalBefore (GridBounds.side b.cols) i j) (by omega)
  obtain ⟨after, ha⟩ := word (totalBefore (GridBounds.side b.cols) i j + (i * j + 1)) (by omega)
  refine ⟨product, term, before, after, ?_, ?_, ?_, ?_⟩
  · rw [Word.mul_eq_ok_iff, toInt_ofNat (by omega), toInt_ofNat (by omega), hp, Nat.cast_mul]
  · rw [increment_eq_ok_iff, ht, hp, Nat.cast_succ]
  · have done : accumulateRows increment (GridBounds.side b.cols) i 0 0 = .ok rows := by
      rw [accumulateRows_eq_ok_iff (by omega) (by omega) (by simp), hr]
      simp
    have going : accumulateRow increment j i rows = .ok before := by
      rw [accumulateRow_eq_ok_iff (by omega) (by omega) (by omega), hb, hr, totalBefore,
        Nat.cast_add, rowTotal]
    exact bind_eq_ok_iff.mpr ⟨rows, done, going⟩
  · rw [Word.add_eq_ok_iff, ha, hb, ht, Nat.cast_add]

/-- The closed form computes without overflow the sum over all cells, as long as that has a word.
A pass with either helper then ends with it and overflows at none of its steps. -/
theorem gridClosedForm_is_exact (b : GridBounds) :
    wideClosedForm b = .ok (gridClosedForm b) ∧
    (∀ v : Int, (gridClosedForm b).map Int64.toInt = some v ↔
      v = ∑ i ∈ range b.rows.toNat, ∑ j ∈ range b.cols.toNat, ((i : Int) * j + 1) ∧
        v ≤ Int64.maxValue.toInt) ∧
    ∀ v, gridClosedForm b = some v →
      gridAccumulate b = .ok v ∧
      (∀ cell, (∀ a, cell a = Word.add a 1) → gridAccumulateWith b cell = .ok v) ∧
      ∀ i < GridBounds.side b.rows, ∀ j < GridBounds.side b.cols,
        ∃ product term before after, StepsAt b i j product term before after := by
  refine ⟨wideClosedForm_eq_ok b, fun v => ?_, fun v value => ?_⟩
  · rw [map_gridClosedForm_eq_some_iff, gridTotal_eq_sum]
  have ends := gridAccumulate_of_closedForm value
  refine ⟨ends, fun cell same => ?_, fun i row j col => ?_⟩
  · have helper : cell = increment := funext same
    rw [helper]
    exact ends
  · have total := gridAccumulate_eq_ok_iff.mp ends
    have top := Int64.toInt_lt v
    exact exists_stepsAt (by omega) row col

/-- A long side is cut where the other one is empty, and a single line may have the greatest word
for its total. -/
theorem gridClosedForm_is_exact_at_the_ends :
    gridAccumulate ⟨18446744073709551615, 0⟩ = .ok 0 ∧
    gridAccumulateWith ⟨1, 9223372036854775807⟩ (Word.add · 1) = .ok Int64.maxValue :=
  ⟨((gridClosedForm_is_exact ⟨18446744073709551615, 0⟩).2.2 0 (by decide)).1,
    ((gridClosedForm_is_exact ⟨1, 9223372036854775807⟩).2.2 Int64.maxValue (by decide)).2.1 _
      fun _ => rfl⟩

/-! The branched sum. -/

namespace Word

theorem add_eq_error_iff {a b : Int64} {o : Overflow} :
    add a b = .error o ↔
      o = .addition ∧ ¬ (-2 ^ 63 ≤ a.toInt + b.toInt ∧ a.toInt + b.toInt < 2 ^ 63) := by
  rw [add, ← isSome_ofInt?_iff]
  cases ofInt? (a.toInt + b.toInt) <;> simp [eq_comm]

theorem mul_eq_error_iff {a b : Int64} {o : Overflow} :
    mul a b = .error o ↔
      o = .multiplication ∧ ¬ (-2 ^ 63 ≤ a.toInt * b.toInt ∧ a.toInt * b.toInt < 2 ^ 63) := by
  rw [mul, ← isSome_ofInt?_iff]
  cases ofInt? (a.toInt * b.toInt) <;> simp [eq_comm]

end Word

/-- `checkedBranchedAccumulate` by operations on 128 bits, those of the series unchecked. -/
def wideBranched (x y : Int64) : Except Overflow (Option Int64) :=
  if y < x then
    if x ≤ 0 then .ok (some 0)
    else do
      let next ← unchecked .addition (signedWide? (x.toInt + 1))
      let product ← unchecked .multiplication (signedWide? (x.toInt * next))
      return Word.ofInt? (product / 2)
  else .ok ((checkedScalarTransform y).bind fun t => Word.ofInt? (t.toInt + x.toInt))

theorem wideBranched_eq_ok (x y : Int64) :
    wideBranched x y = .ok (checkedBranchedAccumulate x y) := by
  have top := Int64.toInt_lt x
  unfold wideBranched checkedBranchedAccumulate
  split
  · split
    · rfl
    · next positive =>
      have low : 0 < x.toInt := by simpa [Int64.le_iff_toInt_le] using positive
      have next : signedWide? (x.toInt + 1) = some (x.toInt + 1) := if_pos (by omega)
      have bound : x.toInt * (x.toInt + 1) ≤ 2 ^ 63 * 2 ^ 63 :=
        Int.mul_le_mul (by omega) (by omega) (by omega) (by omega)
      have nonneg : 0 ≤ x.toInt * (x.toInt + 1) := Int.mul_nonneg (by omega) (by omega)
      have product : signedWide? (x.toInt * (x.toInt + 1)) = some (x.toInt * (x.toInt + 1)) :=
        if_pos (by omega)
      simp only [next, unchecked]
      rw [bind_eq_ok_iff]
      exact ⟨_, rfl, by rw [product]; rfl⟩
  · rfl

section Order

variable {term : Nat → Except Overflow Int64} (value : Nat → Nat)

/-- A loop whose terms overflow in no multiplication as long as the total before them has a word
does not overflow in one. -/
theorem sumFrom_ne_multiplication {count start : Nat} {total : Int64}
    (positive : 0 ≤ total.toInt)
    (sound : ∀ i < count, ∀ v, term (start + i) = .ok v → v.toInt = value (start + i))
    (terms : ∀ i < count,
      total.toInt + (∑ j ∈ range i, value (start + j) : Nat) < 2 ^ 63 →
        term (start + i) ≠ .error .multiplication) :
    sumFrom term count start total ≠ .error .multiplication := by
  induction count generalizing start total with
  | zero => simp [sumFrom, pure, Except.pure]
  | succ count ih =>
    have top := Int64.toInt_lt total
    have now := terms 0 (by omega) (by simpa using top)
    rw [Nat.add_zero] at now
    unfold sumFrom
    cases first : term start with
    | error o =>
      rw [first] at now
      exact now
    | ok v =>
      have size := sound 0 (by omega) v first
      rw [Nat.add_zero] at size
      simp only [bind, Except.bind, ofExcept_eq]
      cases sum : Word.add total v with
      | error o =>
        obtain ⟨rfl, -⟩ := Word.add_eq_error_iff.mp sum
        simp
      | ok next =>
        have grown := Word.add_eq_ok_iff.mp sum
        refine ih (by omega) ?_ ?_
        · intro i hi w hw
          rw [Nat.add_assoc, Nat.add_comm 1] at hw ⊢
          exact sound (i + 1) (by omega) w hw
        · intro i hi bound
          have later := terms (i + 1) (by omega)
          rw [sum_range_succ'] at later
          simp only [Nat.add_zero, ← Nat.add_assoc, Nat.add_right_comm start _ 1] at later
          exact later (by omega)

end Order

theorem bind_eq_error_iff {ε α β : Type} {work : Except ε α} {next : α → Except ε β} {e : ε} :
    (work >>= next) = .error e ↔ work = .error e ∨ ∃ a, work = .ok a ∧ next a = .error e := by
  cases work <;> simp [bind, Except.bind]

/-- Doubling is the only step of the transform that can overflow. -/
theorem scalarTransform_eq_error_iff {a : Int64} {o : Overflow} :
    scalarTransform a = .error o ↔ o = .multiplication ∧ 2 ^ 62 ≤ a.toInt := by
  have two : (2 : Int64).toInt = 2 := rfl
  have one : (1 : Int64).toInt = 1 := rfl
  by_cases negative : a < 0
  · have low : a.toInt < 0 := by simpa [Int64.lt_iff_toInt_lt] using negative
    rw [scalarTransform_of_neg negative]
    simp only [reduceCtorEq, false_iff, not_and]
    omega
  · have low : 0 ≤ a.toInt := by simpa [Int64.lt_iff_toInt_lt] using negative
    rw [scalarTransform, if_neg negative, bind_eq_error_iff, Word.mul_eq_error_iff, two]
    constructor
    · rintro (⟨rfl, large⟩ | ⟨double, hd, sum⟩)
      · exact ⟨rfl, by omega⟩
      · have size := Word.mul_eq_ok_iff.mp hd
        have top := Int64.toInt_lt double
        obtain ⟨-, large⟩ := Word.add_eq_error_iff.mp sum
        rw [one] at large
        rw [two] at size
        omega
    · rintro ⟨rfl, large⟩
      exact .inl ⟨rfl, by omega⟩

/-- The index is taken off the transform without leaving a word. -/
theorem toInt_sub_of_scalarTransform {i : Nat} {t : Int64} (word : i < 2 ^ 63)
    (h : scalarTransform (.ofNat i) = .ok t) :
    (t - .ofNat i).toInt = t.toInt - (Int64.ofNat i).toInt := by
  have size := (scalarTransform_eq_ok_iff (ofNat_not_neg word)).mp h
  have top := Int64.toInt_lt t
  rw [toInt_ofNat word] at size ⊢
  rw [Int64.toInt_sub, toInt_ofNat word, Int.bmod_eq_of_le (by omega) (by omega)]

theorem seriesTerm_eq_error_iff {i : Nat} {o : Overflow} (word : i < 2 ^ 63) :
    seriesTerm i = .error o ↔ o = .multiplication ∧ 2 ^ 62 ≤ i := by
  have index := toInt_ofNat word
  have transform := scalarTransform_eq_error_iff (a := .ofNat i) (o := o)
  rw [index] at transform
  rw [seriesTerm, show (2 ^ 62 ≤ i) = ((2 ^ 62 : Int) ≤ i) by norm_cast, ← transform]
  cases scalarTransform (.ofNat i) <;> simp [Except.map]

/-- The total of the series has left a word long before its terms do. -/
theorem seriesSum_ne_multiplication {count : Nat} (word : count < 2 ^ 63) :
    sumFrom seriesTerm count 0 0 ≠ .error .multiplication := by
  apply sumFrom_ne_multiplication fun i => i + 1
  · simp
  · intro i hi v hv
    exact ((seriesTerm_eq_ok_iff (by omega)).mp hv).1
  · intro i hi fits overflow
    obtain ⟨-, large⟩ := (seriesTerm_eq_error_iff (by omega)).mp overflow
    rw [zero_add] at large
    have sum : ∑ j ∈ range i, (0 + j + 1) = i * (i + 1) / 2 := by
      simp only [zero_add, sum_range_succ_eq]
    rw [Int64.toInt_zero, sum] at fits
    have square : 2 ^ 62 * 2 ^ 62 ≤ i * (i + 1) := Nat.mul_le_mul large (by omega)
    omega

theorem branchedAccumulate_eq_multiplication_iff {x y : Int64} :
    branchedAccumulate x y = .error .multiplication ↔ x ≤ y ∧ 2 ^ 62 ≤ y.toInt := by
  unfold branchedAccumulate
  split
  · next loop =>
    have other : ¬ x ≤ y := by
      rw [Int64.lt_iff_toInt_lt] at loop
      rw [Int64.le_iff_toInt_le]
      omega
    simp only [seriesSum_ne_multiplication (toInt_toNat_lt x), other, false_and]
  · next short =>
    have other : x ≤ y := by
      rw [Int64.lt_iff_toInt_lt] at short
      rw [Int64.le_iff_toInt_le]
      omega
    rw [bind_eq_error_iff, scalarTransform_eq_error_iff]
    simp [Word.add_eq_error_iff, other]

theorem checkedBranchedAccumulate_eq_none_iff {x y : Int64} :
    checkedBranchedAccumulate x y = none ↔ ∃ o, branchedAccumulate x y = .error o := by
  cases run : branchedAccumulate x y with
  | ok v => simp [branchedAccumulate_eq_ok_iff.mp run]
  | error o =>
    simp only [Except.error.injEq, exists_eq', iff_true]
    rw [Option.eq_none_iff_forall_ne_some]
    intro v value
    rw [branchedAccumulate_eq_ok_iff.mpr value] at run
    cases run

/-- The checked form of the branched sum has the value of the loop, without overflow on its way,
and none exactly where the loop overflows: in a multiplication where the transform of a long second
number is asked for, and otherwise in an addition. -/
theorem checked_forms_are_exact (x y : Int64) :
    (∀ v, checkedBranchedAccumulate x y = some v ↔ branchedAccumulate x y = .ok v) ∧
    (checkedBranchedAccumulate x y = none ↔ ∃ o, branchedAccumulate x y = .error o) ∧
    wideBranched x y = .ok (checkedBranchedAccumulate x y) ∧
    ((branchedAccumulate x y).mapError Overflow.message =
      .error "attempt to multiply with overflow" ↔ x ≤ y ∧ 2 ^ 62 ≤ y.toInt) ∧
    ((branchedAccumulate x y).mapError Overflow.message =
      .error "attempt to add with overflow" ↔
        checkedBranchedAccumulate x y = none ∧ ¬ (x ≤ y ∧ 2 ^ 62 ≤ y.toInt)) ∧
    (∀ i < x.toInt.toNat, ∀ t, scalarTransform (.ofNat i) = .ok t →
      (t - .ofNat i).toInt = t.toInt - (Int64.ofNat i).toInt) ∧
    ∀ a v, checkedScalarTransform a = some v ↔ scalarTransform a = .ok v := by
  refine ⟨fun v => branchedAccumulate_eq_ok_iff.symm, checkedBranchedAccumulate_eq_none_iff,
    wideBranched_eq_ok x y, ?_, ?_, ?_, fun _ _ => checkedScalarTransform_eq_some_iff⟩
  · rw [← branchedAccumulate_eq_multiplication_iff]
    cases branchedAccumulate x y with
    | ok v => simp [Except.mapError]
    | error o => cases o <;> simp [Except.mapError, Overflow.message]
  · rw [← branchedAccumulate_eq_multiplication_iff, checkedBranchedAccumulate_eq_none_iff]
    cases branchedAccumulate x y with
    | ok v => simp [Except.mapError]
    | error o => cases o <;> simp [Except.mapError, Overflow.message]
  · intro i hi t ht
    have bound := toInt_toNat_lt x
    exact toInt_sub_of_scalarTransform (by omega) ht

/-- The longest loop whose total has a word, and the least transforms that fail in either way. -/
theorem checked_forms_are_exact_at_the_ends :
    branchedAccumulate 4294967295 0 = .ok 9223372034707292160 ∧
    (branchedAccumulate 0 4611686018427387904).mapError Overflow.message =
      .error "attempt to multiply with overflow" ∧
    (branchedAccumulate 1 4611686018427387903).mapError Overflow.message =
      .error "attempt to add with overflow" :=
  have long := checked_forms_are_exact 4294967295 0
  have doubled := checked_forms_are_exact 0 4611686018427387904
  have added := checked_forms_are_exact 1 4611686018427387903
  ⟨(long.1 _).mp (by decide), doubled.2.2.2.1.mpr (by decide), added.2.2.2.2.1.mpr (by decide)⟩

end CallStudy
