import CallStudy.Proofs.Workload.Sums

/-!
The cells that a pass visits. Whatever the work at a cell is, a pass gives it the products of the
indices row by row, and adds up what it returns; it stops at the first product or sum that is no
word, or where the work itself stops.
-/

set_option autoImplicit false

namespace CallStudy

/-- Work at a cell: it may keep a state, overflow and stop for reasons of its own. -/
abbrev CellWork (σ ε : Type) := ExceptT Overflow (ExceptT ε (StateM σ))

/-- How work ends: with a value, in an overflow or for a reason of its own. -/
abbrev Ending (ε α : Type) := Except ε (Except Overflow α)

/-- The products of the indices of a grid's cells, row by row. -/
def products (rows cols : Nat) : List Nat :=
  (List.range rows).flatMap fun i => (List.range cols).map fun j => i * j

/-- The word of a product. -/
def productWord (n : Int) : Except Overflow Int64 :=
  match Word.ofInt? n with
  | some a => .ok a
  | none => .error .multiplication

section Fold

variable {m : Type → Type} [Monad m] [MonadExcept Overflow m]

/-- Adds what the work makes of a product. -/
def visit (cell : Int64 → m Int64) (total : Int64) (n : Nat) : m Int64 := do
  let value ← cell (← MonadExcept.ofExcept (productWord n))
  MonadExcept.ofExcept (Word.add total value)

theorem mul_ofNat {i j : Nat} (row : i < 2 ^ 63) (col : j < 2 ^ 63) :
    Word.mul (.ofNat i) (.ofNat j) = productWord (i * j : Nat) := by
  change productWord ((Int64.ofNat i).toInt * (Int64.ofNat j).toInt) = _
  rw [toInt_ofNat row, toInt_ofNat col, Nat.cast_mul]

variable [LawfulMonad m]

theorem sumFrom_eq_foldlM (cell : Int64 → m Int64) {count start i : Nat} (row : i < 2 ^ 63)
    (width : start + count ≤ 2 ^ 63) (total : Int64) :
    sumFrom (fun j => do cell (← MonadExcept.ofExcept (Word.mul (.ofNat i) (.ofNat j)))) count start
        total =
      ((List.range' start count).map fun j => i * j).foldlM (visit cell) total := by
  induction count generalizing start total with
  | zero => rfl
  | succ count ih =>
    rw [List.range'_succ, List.map_cons, List.foldlM_cons, sumFrom, visit,
      mul_ofNat row (by omega)]
    simp only [bind_assoc, @ih (start + 1) (by omega)]

theorem accumulateRow_eq_foldlM (cell : Int64 → m Int64) {cols i : Nat} (row : i < 2 ^ 63)
    (width : cols ≤ 2 ^ 63) (total : Int64) : accumulateRow cell cols i total =
      ((List.range cols).map fun j => i * j).foldlM (visit cell) total := by
  rw [accumulateRow, sumFrom_eq_foldlM cell row (by omega), List.range_eq_range']

theorem accumulateRows_eq_foldlM (cell : Int64 → m Int64) {cols count i : Nat}
    (height : i + count ≤ 2 ^ 63) (width : cols ≤ 2 ^ 63) (total : Int64) :
    accumulateRows cell cols count i total =
      ((List.range' i count).flatMap fun i => (List.range cols).map fun j => i * j).foldlM
        (visit cell) total := by
  induction count generalizing i total with
  | zero => rfl
  | succ count ih =>
    rw [List.range'_succ, List.flatMap_cons, List.foldlM_append, accumulateRows,
      accumulateRow_eq_foldlM cell (by omega) width]
    simp only [ih (i := i + 1) (by omega)]

/-- A pass is one loop over the products of the indices. -/
theorem gridAccumulateWith_eq_foldlM (b : GridBounds) (cell : Int64 → m Int64) :
    gridAccumulateWith b cell =
      (products (GridBounds.side b.rows) (GridBounds.side b.cols)).foldlM (visit cell) 0 := by
  have height := side_lt b.rows
  have width := side_lt b.cols
  rw [gridAccumulateWith, accumulateRows_eq_foldlM cell (by omega) (by omega), products,
    List.range_eq_range' (n := GridBounds.side b.rows)]

end Fold

section Calls

variable {σ ε α β : Type}

/-- How work that starts from a state ends, with the state that it leaves. -/
def endFrom (work : CellWork σ ε α) (s : σ) : Ending ε α × σ := (StateT.run work.run.run s).run

/-- What a cell was given and what it returned, in order. -/
structure Calls where
  arguments : List Int64 := []
  values : List Int64 := []

namespace Calls

def begun (c : Calls) (a : Int64) : Calls := { c with arguments := c.arguments ++ [a] }

def ended (c : Calls) (v : Int64) : Calls := { c with values := c.values ++ [v] }

/-- The exact sum of what was returned. -/
def total (c : Calls) : Int := (c.values.map Int64.toInt).sum

@[simp] theorem total_begun (c : Calls) (a : Int64) : (c.begun a).total = c.total := rfl

@[simp] theorem total_ended (c : Calls) (v : Int64) : (c.ended v).total = c.total + v.toInt := by
  simp [total, ended]

end Calls

/-- The end of a call, with the call noted beside the state that it leaves. -/
def noteEnd (calls : Calls) (a : Int64) : Ending ε Int64 × σ → Ending ε Int64 × Calls × σ
  | (.ok (.ok v), s) => (.ok (.ok v), (calls.begun a).ended v, s)
  | (ending, s) => (ending, calls.begun a, s)

/-- The work at a cell with its calls noted beside its state. -/
def noted (cell : Int64 → CellWork σ ε Int64) (a : Int64) : CellWork (Calls × σ) ε Int64 :=
  .mk <| .mk fun (calls, s) => noteEnd calls a (endFrom (cell a) s)

/-- The cell is given the products in order and returns each time, and no sum on the way leaves the
range of a word: these are its calls, and the state that they lead to. -/
inductive Visits (cell : Int64 → CellWork σ ε Int64) (s : σ) : List Nat → Calls → σ → Prop where
  | start : Visits cell s [] {} s
  | next {ns : List Nat} {calls : Calls} {s₁ s₂ : σ} {n : Nat} {a v : Int64}
      (before : Visits cell s ns calls s₁) (argument : a.toInt = n)
      (returns : endFrom (cell a) s₁ = (.ok (.ok v), s₂))
      (sum : (Word.ofInt? (calls.total + v.toInt)).isSome) :
      Visits cell s (ns ++ [n]) ((calls.begun a).ended v) s₂

/-- A pass that has visited the products `done` stops at the product `n`: this has no word, or the
work at the cell gives no value, or the sum with its value has no word. -/
inductive Stops (cell : Int64 → CellWork σ ε Int64) (s : σ) (done : List Nat) (n : Nat) :
    Ending ε Int64 → Calls → σ → Prop where
  | product {calls : Calls} {s₁ : σ} (before : Visits cell s done calls s₁)
      (large : Word.ofInt? n = none) : Stops cell s done n (.ok (.error .multiplication)) calls s₁
  | work {calls : Calls} {s₁ s₂ : σ} {a : Int64} {ending : Ending ε Int64}
      (before : Visits cell s done calls s₁) (argument : a.toInt = n)
      (ends : endFrom (cell a) s₁ = (ending, s₂)) (empty : ∀ v, ending ≠ .ok (.ok v)) :
      Stops cell s done n ending (calls.begun a) s₂
  | sum {calls : Calls} {s₁ s₂ : σ} {a v : Int64} (before : Visits cell s done calls s₁)
      (argument : a.toInt = n) (returns : endFrom (cell a) s₁ = (.ok (.ok v), s₂))
      (large : Word.ofInt? (calls.total + v.toInt) = none) :
      Stops cell s done n (.ok (.error .addition)) ((calls.begun a).ended v) s₂

/-- A pass over products visits them all and ends with the sum, or stops at one of them. -/
inductive Passes (cell : Int64 → CellWork σ ε Int64) (s : σ) (ns : List Nat) :
    Ending ε Int64 → Calls → σ → Prop where
  | whole {total : Int64} {calls : Calls} {s' : σ} (visits : Visits cell s ns calls s')
      (sum : total.toInt = calls.total) : Passes cell s ns (.ok (.ok total)) calls s'
  | short {done rest : List Nat} {n : Nat} {ending : Ending ε Int64} {calls : Calls} {s' : σ}
      (parts : ns = done ++ n :: rest) (stops : Stops cell s done n ending calls s') :
      Passes cell s ns ending calls s'

section Endings

variable {work : CellWork σ ε α} {s s' : σ}

theorem endFrom_bind_of_value {next : α → CellWork σ ε β} {a : α}
    (h : endFrom work s = (.ok (.ok a), s')) :
    endFrom (work >>= next) s = endFrom (next a) s' := by
  rw [endFrom] at h
  rw [endFrom, ExceptT.run_bind, ExceptT.run_bind, StateT.run_bind, Id.run_bind, h]
  rfl

theorem endFrom_bind_of_empty {next : α → CellWork σ ε α} {ending : Ending ε α}
    (h : endFrom work s = (ending, s')) (empty : ∀ a, ending ≠ .ok (.ok a)) :
    endFrom (work >>= next) s = (ending, s') := by
  rw [endFrom] at h
  rw [endFrom, ExceptT.run_bind, ExceptT.run_bind, StateT.run_bind, Id.run_bind, h]
  cases ending with
  | error reason => rfl
  | ok result =>
    cases result with
    | error o => rfl
    | ok a => exact absurd rfl (empty a)

theorem endFrom_ofExcept (result : Except Overflow α) (s : σ) :
    endFrom (MonadExcept.ofExcept result : CellWork σ ε α) s = (.ok result, s) := by
  cases result <;> rfl

end Endings

section Step

variable {cell : Int64 → CellWork σ ε Int64} {s s' : σ} {a v : Int64} {ending : Ending ε Int64}
  {n : Nat}

theorem endFrom_noted (calls : Calls) :
    endFrom (noted cell a) (calls, s) = noteEnd calls a (endFrom (cell a) s) := rfl

theorem endFrom_noted_of_value (calls : Calls) (returns : endFrom (cell a) s = (.ok (.ok v), s')) :
    endFrom (noted cell a) (calls, s) = (.ok (.ok v), (calls.begun a).ended v, s') := by
  rw [endFrom_noted, returns]
  rfl

theorem endFrom_noted_of_empty (calls : Calls) (ends : endFrom (cell a) s = (ending, s'))
    (empty : ∀ v, ending ≠ .ok (.ok v)) :
    endFrom (noted cell a) (calls, s) = (ending, calls.begun a, s') := by
  rw [endFrom_noted, ends]
  cases ending with
  | error reason => rfl
  | ok result =>
    cases result with
    | error o => rfl
    | ok v => exact absurd rfl (empty v)

theorem endFrom_visit_of_large (large : Word.ofInt? n = none) (total : Int64) :
    endFrom (visit cell total n) s = (.ok (.error .multiplication), s) := by
  have product : productWord n = .error .multiplication := by
    rw [productWord, large]
  rw [visit, product]
  rfl

theorem productWord_toInt (argument : a.toInt = n) : productWord n = .ok a := by
  rw [productWord, Word.ofInt?_eq_some_iff.mpr argument]

theorem endFrom_visit_of_empty (argument : a.toInt = n) (ends : endFrom (cell a) s = (ending, s'))
    (empty : ∀ v, ending ≠ .ok (.ok v)) (total : Int64) :
    endFrom (visit cell total n) s = (ending, s') := by
  rw [visit, productWord_toInt argument, endFrom_bind_of_value (endFrom_ofExcept _ _)]
  exact endFrom_bind_of_empty ends empty

theorem endFrom_visit_of_value (argument : a.toInt = n)
    (returns : endFrom (cell a) s = (.ok (.ok v), s')) (total : Int64) :
    endFrom (visit cell total n) s = (.ok (Word.add total v), s') := by
  rw [visit, productWord_toInt argument, endFrom_bind_of_value (endFrom_ofExcept _ _),
    endFrom_bind_of_value returns, endFrom_ofExcept]

end Step

section Run

variable {cell : Int64 → CellWork σ ε Int64} {s s₁ : σ} {calls : Calls} {total : Int64}

/-- Where a pass stops it has no value. -/
theorem Stops.not_value {done : List Nat} {n : Nat} {ending : Ending ε Int64} {s' : σ}
    (h : Stops cell s done n ending calls s') (value : Int64) : ending ≠ .ok (.ok value) := by
  intro same
  cases h with
  | product before large => cases same
  | work before argument ends empty => exact empty value same
  | sum before argument returns large => cases same

/-- One step of the loop, whether calls are noted or not: it visits the product or stops there. -/
theorem visit_cases {done : List Nat} (before : Visits cell s done calls s₁)
    (sum : total.toInt = calls.total) (n : Nat) :
    (∃ next calls' s', endFrom (visit cell total n) s₁ = (.ok (.ok next), s') ∧
      endFrom (visit (noted cell) total n) (calls, s₁) = (.ok (.ok next), calls', s') ∧
      Visits cell s (done ++ [n]) calls' s' ∧ next.toInt = calls'.total) ∨
    ∃ ending calls' s', endFrom (visit cell total n) s₁ = (ending, s') ∧
      endFrom (visit (noted cell) total n) (calls, s₁) = (ending, calls', s') ∧
      Stops cell s done n ending calls' s' := by
  cases product : Word.ofInt? n with
  | none =>
    exact .inr ⟨_, calls, s₁, endFrom_visit_of_large product total,
      endFrom_visit_of_large product total, .product before product⟩
  | some a =>
    have argument := Word.ofInt?_eq_some_iff.mp product
    cases ends : endFrom (cell a) s₁ with
    | mk ending s₂ =>
      by_cases empty : ∀ v, ending ≠ .ok (.ok v)
      · exact .inr ⟨ending, _, s₂, endFrom_visit_of_empty argument ends empty total,
          endFrom_visit_of_empty argument (endFrom_noted_of_empty calls ends empty) empty total,
          .work before argument ends empty⟩
      · simp only [not_forall, not_not] at empty
        obtain ⟨v, rfl⟩ := empty
        have raw := endFrom_visit_of_value argument ends total
        have note := endFrom_visit_of_value argument (endFrom_noted_of_value calls ends) total
        cases word : Word.ofInt? (calls.total + v.toInt) with
        | none =>
          have added : Word.add total v = .error .addition := by
            rw [Word.add, sum, word]
          rw [added] at raw note
          exact .inr ⟨_, _, s₂, raw, note, .sum before argument ends word⟩
        | some next =>
          have added : Word.add total v = .ok next := by
            rw [Word.add, sum, word]
          rw [added] at raw note
          refine .inl ⟨next, _, s₂, raw, note, .next before argument ends (by rw [word]; rfl), ?_⟩
          rw [Calls.total_ended, Calls.total_begun]
          exact Word.ofInt?_eq_some_iff.mp word

/-- From what was visited on, the loop goes to the end or stops, whether calls are noted or not. -/
theorem passes_foldlM {done : List Nat} (before : Visits cell s done calls s₁)
    (sum : total.toInt = calls.total) (ns : List Nat) :
    ∃ ending calls' s', endFrom (ns.foldlM (visit cell) total) s₁ = (ending, s') ∧
      endFrom (ns.foldlM (visit (noted cell)) total) (calls, s₁) = (ending, calls', s') ∧
      Passes cell s (done ++ ns) ending calls' s' := by
  induction ns generalizing done calls s₁ total with
  | nil =>
    refine ⟨.ok (.ok total), calls, s₁, rfl, rfl, ?_⟩
    rw [List.append_nil]
    exact .whole before sum
  | cons n rest ih =>
    rw [List.foldlM_cons, List.foldlM_cons]
    obtain ⟨next, calls', s', raw, note, visits, sum'⟩ | ⟨ending, calls', s', raw, note, stops⟩ :=
      visit_cases before sum n
    · rw [endFrom_bind_of_value raw, endFrom_bind_of_value note, List.append_cons]
      exact ih visits sum'
    · exact ⟨ending, calls', s', endFrom_bind_of_empty raw stops.not_value,
        endFrom_bind_of_empty note stops.not_value, .short rfl stops⟩

theorem Visits.map_arguments {ns : List Nat} {s' : σ} (h : Visits cell s ns calls s') :
    calls.arguments.map Int64.toInt = ns.map Int.ofNat := by
  induction h with
  | start => rfl
  | next before argument returns sum ih =>
    rw [List.map_append, ← ih, Calls.ended, Calls.begun, List.map_append, List.map_singleton,
      argument]
    rfl

theorem Visits.length_arguments {ns : List Nat} {s' : σ} (h : Visits cell s ns calls s') :
    calls.arguments.length = ns.length := by
  have lengths := congrArg List.length h.map_arguments
  rwa [List.length_map, List.length_map] at lengths

theorem Visits.length_values {ns : List Nat} {s' : σ} (h : Visits cell s ns calls s') :
    calls.values.length = ns.length := by
  induction h with
  | start => rfl
  | next before argument returns sum ih =>
    rw [Calls.ended, Calls.begun, List.length_append, List.length_append, ih]
    rfl

/-- The arguments up to a stop end with the product at which it is, or before it. -/
theorem Stops.map_arguments {done : List Nat} {n : Nat} {ending : Ending ε Int64} {s' : σ}
    (h : Stops cell s done n ending calls s') :
    calls.arguments.map Int64.toInt <+: (done ++ [n]).map Int.ofNat := by
  have one {c : Calls} {a : Int64} {s₂ : σ} (before : Visits cell s done c s₂)
      (argument : a.toInt = n) :
      (c.begun a).arguments.map Int64.toInt <+: (done ++ [n]).map Int.ofNat := by
    rw [List.map_append, ← before.map_arguments, Calls.begun, List.map_append, List.map_singleton,
      argument]
    exact List.prefix_refl _
  cases h with
  | product before large =>
    rw [before.map_arguments, List.map_append]
    exact List.prefix_append _ _
  | work before argument ends empty => exact one before argument
  | sum before argument returns large => exact one before argument

end Run

end Calls

/-! Passes of increments over a grid that fits. -/

theorem length_products (rows cols : Nat) : (products rows cols).length = rows * cols := by
  simp [products]

/-- What the increments of products add up to. -/
def incrementSum (ns : List Nat) : Nat := (ns.map (· + 1)).sum

theorem incrementSum_append (first second : List Nat) :
    incrementSum (first ++ second) = incrementSum first + incrementSum second := by
  simp only [incrementSum, List.map_append, List.sum_append]

theorem incrementSum_products (rows cols : Nat) :
    incrementSum (products rows cols) = gridTotal rows cols := by
  have row (i : Nat) : incrementSum ((List.range cols).map fun j => i * j) = rowTotal cols i := by
    rw [incrementSum, List.map_map]
    rfl
  have rowsOf (count : Nat) : incrementSum (products count cols) =
      ∑ i ∈ Finset.range count, rowTotal cols i := by
    induction count with
    | zero => rfl
    | succ count ih =>
      rw [products, List.range_succ, List.flatMap_append, incrementSum_append, ← products, ih,
        List.flatMap_singleton, row, Finset.sum_range_succ]
  rw [rowsOf, sum_rowTotal_eq]

section Increments

variable {σ ε : Type}

/-- Increments as the work at the cells. -/
def incremented (a : Int64) : CellWork σ ε Int64 := MonadExcept.ofExcept (increment a)

variable {s s' : σ} {calls : Calls}

theorem endFrom_incremented {a v : Int64} {n : Nat} {s₂ : σ} (argument : a.toInt = n)
    (returns : endFrom (incremented a : CellWork σ ε Int64) s = (.ok (.ok v), s₂)) :
    v.toInt = (n + 1 : Nat) := by
  rw [incremented, endFrom_ofExcept, Prod.mk.injEq, Except.ok.injEq] at returns
  rw [increment_eq_ok_iff.mp returns.1, argument, Nat.cast_succ]

theorem Visits.total_incremented {ns : List Nat}
    (h : Visits (incremented : Int64 → CellWork σ ε Int64) s ns calls s') :
    calls.total = incrementSum ns := by
  induction h with
  | start => rfl
  | next before argument returns sum ih =>
    rw [Calls.total_ended, Calls.total_begun, ih, endFrom_incremented argument returns,
      incrementSum_append, Nat.cast_add]
    rfl

/-- Where the sum of all increments has a word, a pass stops nowhere. -/
theorem not_stops_incremented {ns done rest : List Nat} {n : Nat} {ending : Ending ε Int64}
    (fits : incrementSum ns < 2 ^ 63) (parts : ns = done ++ n :: rest) :
    ¬ Stops (incremented : Int64 → CellWork σ ε Int64) s done n ending calls s' := by
  have sums : incrementSum ns = incrementSum done + ((n + 1) + incrementSum rest) := by
    rw [parts, incrementSum_append]
    rfl
  have word {k : Int} (low : 0 ≤ k) (high : k < 2 ^ 63) : Word.ofInt? k ≠ none := by
    rw [← Option.isSome_iff_ne_none, Word.isSome_ofInt?_iff]
    omega
  intro stops
  cases stops with
  | product before large => exact word (by omega) (by omega) large
  | @work calls s₁ s₂ a ending before argument ends empty =>
    obtain ⟨v, value⟩ := Word.exists_toInt_eq (n := (n + 1 : Nat)) (by omega) (by omega)
    have returned : increment a = .ok v := by
      rw [increment_eq_ok_iff, value, argument, Nat.cast_succ]
    rw [incremented, endFrom_ofExcept, returned, Prod.mk.injEq] at ends
    exact empty v ends.1.symm
  | sum before argument returns large =>
    rw [before.total_incremented, endFrom_incremented argument returns] at large
    exact word (by omega) (by omega) large

end Increments

namespace GridBounds

/-- Where a side of a grid that fits is cut, the other one is empty, so as many cells remain. -/
theorem side_mul_side_of_fits {b : GridBounds} (fits : b.fits) :
    side b.rows * side b.cols = b.rows.toNat * b.cols.toNat := by
  rcases sides_of_fits fits with ⟨rows, cols⟩ | empty | empty
  · rw [rows, cols]
  · rw [side_eq_of_lt (by omega), empty, Nat.zero_mul, Nat.zero_mul]
  · rw [side_eq_of_lt (n := b.cols) (by omega), empty, Nat.mul_zero, Nat.mul_zero]

theorem cells_of_fits {b : GridBounds} (fits : b.fits) :
    ∃ n, b.cells = some n ∧ n.toNat = side b.rows * side b.cols ∧ n.toNat < 2 ^ 63 := by
  have total := fits_iff.mp fits
  have cells := Nat.lt_of_le_of_lt (mul_le_gridTotal b.rows.toNat b.cols.toNat) total
  have small : b.rows.toNat * b.cols.toNat < UInt64.size := Nat.lt_of_lt_of_le cells (by decide)
  have count : (b.rows * b.cols).toNat = b.rows.toNat * b.cols.toNat := by
    rw [UInt64.toNat_mul, Nat.mod_eq_of_lt small]
  refine ⟨b.rows * b.cols, if_pos small, ?_, ?_⟩
  · rw [count, side_mul_side_of_fits fits]
  · rw [count]
    exact cells

end GridBounds

end CallStudy
