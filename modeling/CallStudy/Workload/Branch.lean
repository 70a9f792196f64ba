import CallStudy.Number.Word

/-!
Integer work with branches, a loop and a chain of calls. Every function comes in two forms: one
that runs step by step and stops where a word overflows, and a checked one that computes the
result at once.
-/

namespace CallStudy

/-- Sums `term i` for `count` indices from `start` on, on top of `total`. -/
@[specialize]
def sumFrom {m : Type → Type} [Monad m] [MonadExcept Overflow m] (term : Nat → m Int64)
    (count start : Nat) (total : Int64) : m Int64 :=
  match count with
  | 0 => pure total
  | count + 1 => do
    let value ← term start
    let total ← MonadExcept.ofExcept (Word.add total value)
    sumFrom term count (start + 1) total

/-- Zero for a negative number, else one more than its double. -/
def scalarTransform (a : Int64) : Except Overflow Int64 :=
  if a < 0 then .ok 0
  else do
    let double ← Word.mul a 2
    Word.add double 1

/-- A term of the series that is summed when the first number is the greater one. -/
def seriesTerm (i : Nat) : Except Overflow Int64 :=
  (scalarTransform (.ofNat i)).map (· - .ofNat i)

/-- Sums a series of `x` terms when `x` exceeds `y`, else adds `x` to the transform of `y`. -/
def branchedAccumulate (x y : Int64) : Except Overflow Int64 :=
  if y < x then sumFrom seriesTerm x.toInt.toNat 0 0
  else do
    let transformed ← scalarTransform y
    Word.add transformed x

def checkedScalarTransform (a : Int64) : Option Int64 :=
  if a < 0 then some 0 else Word.ofInt? (a.toInt * 2) |>.bind fun d => Word.ofInt? (d.toInt + 1)

/-- The branched sum in closed form: the series term of `i` is `i + 1`. -/
def checkedBranchedAccumulate (x y : Int64) : Option Int64 :=
  if y < x then
    if x ≤ 0 then some 0 else Word.ofInt? (x.toInt * (x.toInt + 1) / 2)
  else
    (checkedScalarTransform y).bind fun t => Word.ofInt? (t.toInt + x.toInt)

/-- The results of three chained transforms, the last of which takes the sum of the others. -/
structure CallChain where
  first : Int64
  second : Int64
  chained : Int64
  deriving Repr, DecidableEq

def callChain : Except Overflow CallChain := do
  let first ← scalarTransform 10
  let second ← scalarTransform 20
  let sum ← Word.add first second
  let chained ← scalarTransform sum
  return { first, second, chained }

theorem callChain_eq : callChain = .ok ⟨21, 41, 125⟩ := rfl

end CallStudy
