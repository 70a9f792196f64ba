/-!
Mean and population variance in one pass over a list of samples.
-/

namespace CallStudy

/-- Adds up samples and their squares, and shows each sample to `observe`. -/
@[specialize]
def sumsWith {m : Type → Type} [Monad m] (observe : Float → m Unit) :
    List Float → Float → Float → m (Float × Float)
  | [], sum, squares => pure (sum, squares)
  | x :: rest, sum, squares => do
    observe x
    sumsWith observe rest (sum + x) (squares + x * x)

/-- The mean of the squares less the square of the mean, and zero where that is negative. -/
def spread (count : Nat) (sum squares : Float) : Float :=
  let n := Float.ofNat count
  let mean := sum / n
  let variance := squares / n - mean * mean
  if variance < 0.0 then 0.0 else variance

/-- The population variance; zero for no samples, none of which is then observed. -/
@[specialize]
def populationVarianceWith {m : Type → Type} [Monad m] (observe : Float → m Unit)
    (data : List Float) : m Float :=
  if data.isEmpty then pure 0.0
  else do
    let (sum, squares) ← sumsWith observe data 0.0 0.0
    return spread data.length sum squares

def populationVariance (data : List Float) : Float :=
  Id.run (populationVarianceWith (fun _ => pure ()) data)

/-- The mean; zero for no samples. The empty sum is negative zero. -/
def mean (data : List Float) : Float :=
  if data.isEmpty then 0.0 else data.foldl (· + ·) (-0.0) / Float.ofNat data.length

end CallStudy
