import CallStudy.Workload.Branch

/-!
A pass over a grid adds up a function of every cell, row by row. The total that a pass of
increments has is known in closed form.
-/

namespace CallStudy

structure GridBounds where
  rows : UInt64
  cols : UInt64
  deriving Repr, DecidableEq

namespace GridBounds

def square (side : UInt64) : GridBounds := ⟨side, side⟩

/-- A side as a signed word; a longer one is cut to the greatest word. -/
def side (n : UInt64) : Nat := min n.toNat Int64.maxValue.toInt.toNat

variable (b : GridBounds)

/-- The number of cells, if it fits in a word. -/
def cells : Option UInt64 :=
  if b.rows.toNat * b.cols.toNat < UInt64.size then some (b.rows * b.cols) else none

end GridBounds

def increment (a : Int64) : Except Overflow Int64 := Word.add a 1

section

variable {m : Type → Type} [Monad m] [MonadExcept Overflow m]

/-- Adds up `cell (i · j)` over the columns of row `i`. -/
@[specialize]
def accumulateRow (cell : Int64 → m Int64) (cols i : Nat) (total : Int64) : m Int64 :=
  sumFrom (fun j => do cell (← MonadExcept.ofExcept (Word.mul (.ofNat i) (.ofNat j)))) cols 0 total

/-- Adds up the rows from `i` on. -/
@[specialize]
def accumulateRows (cell : Int64 → m Int64) (cols count i : Nat) (total : Int64) : m Int64 :=
  match count with
  | 0 => pure total
  | count + 1 => do
    let total ← accumulateRow cell cols i total
    accumulateRows cell cols count (i + 1) total

/-- Adds up `cell (i · j)` over a grid, with `j` in the inner loop. -/
@[specialize]
def gridAccumulateWith (b : GridBounds) (cell : Int64 → m Int64) : m Int64 :=
  accumulateRows cell (GridBounds.side b.cols) (GridBounds.side b.rows) 0 0

end

/-- A pass of increments. -/
def gridAccumulate (b : GridBounds) : Except Overflow Int64 := gridAccumulateWith b increment

/-- Passes in a row, the totals of which are not kept. -/
def gridPasses (b : GridBounds) : Nat → Except Overflow Unit
  | 0 => .ok ()
  | count + 1 => do
    let _ ← gridAccumulate b
    gridPasses b count

def defaultGridSide : UInt64 := 200

def processDataGrid : Except Overflow Int64 := gridAccumulate (.square defaultGridSide)

/-- The sum of the numbers below `n`. -/
def triangle (n : Nat) : Nat := n * (n - 1) / 2

/-- A number that fits in 128 bits. -/
def wide? (n : Nat) : Option Nat := if n < Nat.pow 2 128 then some n else none

/-- The total of a pass of increments, if it fits in a word. -/
def gridClosedForm (b : GridBounds) : Option Int64 := do
  let products ← wide? (triangle b.rows.toNat * triangle b.cols.toNat)
  let cells ← wide? (b.rows.toNat * b.cols.toNat)
  let total ← wide? (products + cells)
  Word.ofInt? total

def GridBounds.fits (b : GridBounds) : Bool := (gridClosedForm b).isSome

end CallStudy
