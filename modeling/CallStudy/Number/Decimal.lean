/-!
The shortest decimal that reads back as a binary number. The reals that round to a number form an
interval around it; decimal grids are tried from coarse to fine until one has a point there, and of
two points the nearer one is taken.
-/

namespace CallStudy

/-- The number `digits · 10 ^ exponent`. -/
structure Decimal where
  digits : Nat
  exponent : Int
  deriving Repr, DecidableEq, Inhabited

/-- Which of two equally near decimals is taken. -/
inductive Tie where
  | up
  | even
  deriving Repr, DecidableEq

namespace Decimal

open Float.Model (Format)

/-- The reals that round to `value`. All bounds are multiples of `2 ^ exponent`. -/
structure Interval where
  low : Nat
  value : Nat
  high : Nat
  exponent : Int
  /-- Whether the ends belong to it. -/
  closed : Bool
  deriving Repr

namespace Interval

/-- Half the way to both neighbours. Below a power of two the neighbour is half as far away. -/
def around (format : Format) (mantissa : Nat) (exponent : Int) : Interval where
  low := 4 * mantissa -
    if mantissa = Nat.pow 2 format.mantissaBitsWithoutImplicit ∧ format.minExponent < exponent then 1
    else 2
  value := 4 * mantissa
  high := 4 * mantissa + 2
  exponent := exponent - 2
  closed := mantissa % 2 = 0

variable (i : Interval)

/-- Multiples of the interval's unit, times this, compare with multiples of `10 ^ k`, times
`gridScale k`. -/
def unitScale (k : Int) : Nat := Nat.pow 2 i.exponent.toNat * Nat.pow 10 (-k).toNat

def gridScale (k : Int) : Nat := Nat.pow 2 (-i.exponent).toNat * Nat.pow 10 k.toNat

/-- Whether `n · 10 ^ k` lies in the interval. -/
def contains (k : Int) (n : Nat) : Bool :=
  if i.closed then
    i.low * i.unitScale k ≤ n * i.gridScale k ∧ n * i.gridScale k ≤ i.high * i.unitScale k
  else
    i.low * i.unitScale k < n * i.gridScale k ∧ n * i.gridScale k < i.high * i.unitScale k

/-- The nearer of `n · 10 ^ k` and its successor on the grid, when the value lies between. -/
def nearer (tie : Tie) (k : Int) (n : Nat) : Nat :=
  let below := i.value * i.unitScale k - n * i.gridScale k
  let above := (n + 1) * i.gridScale k - i.value * i.unitScale k
  if below < above then n
  else if above < below then n + 1
  else
    match tie with
    | .up => n + 1
    | .even => if n % 2 = 0 then n else n + 1

/-- The multiple of `10 ^ k` in the interval that is nearest to its value. -/
def onGrid? (tie : Tie) (k : Int) : Option Decimal :=
  let n := i.value * i.unitScale k / i.gridScale k
  match i.contains k n, i.contains k (n + 1) with
  | true, true => some ⟨i.nearer tie k n, k⟩
  | true, false => some ⟨n, k⟩
  | false, true => some ⟨n + 1, k⟩
  | false, false => none

end Interval

/-- All digits of `mantissa · 2 ^ exponent`. -/
def exact (mantissa : Nat) (exponent : Int) : Decimal :=
  if 0 ≤ exponent then ⟨mantissa * Nat.pow 2 exponent.toNat, 0⟩
  else ⟨mantissa * Nat.pow 5 (-exponent).toNat, exponent⟩

/-- The coarsest grid tried for `mantissa · 2 ^ exponent`: its step exceeds the number. -/
def coarsest (mantissa : Nat) (exponent : Int) : Int :=
  (mantissa.log2 + 1 + exponent) * 30103 / 100000 + 2

/-- The shortest decimal that rounds to `mantissa · 2 ^ exponent`. -/
def shortest (format : Format) (tie : Tie) (mantissa : Nat) (exponent : Int) : Decimal :=
  let interval := Interval.around format mantissa exponent
  let grids := (List.range 24).map fun n : Nat => coarsest mantissa exponent - n
  (grids.findSome? (interval.onGrid? tie)).getD (exact mantissa exponent)

end Decimal
end CallStudy
