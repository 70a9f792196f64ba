import CallStudy.Config.Basic
import CallStudy.Run.Event

/-!
The demonstrations, each of which tells what it does. A run goes through all of them in a fixed
order and collects their outcomes.
-/

namespace CallStudy

/-- Work that tells of events and may overflow. -/
abbrev Narration := StateT (Array Event) (Except Overflow)

namespace Narration

def tell (e : Event) : Narration Unit := modify (·.push e)

/-- The result of the work with all that it told. -/
def outcome {α : Type} (work : Narration α) : Except Overflow (α × List Event) :=
  (StateT.run work #[]).map fun (value, events) => (value, events.toList)

end Narration

open Narration (tell)

def runBranch (x y : Int64) : Narration BranchOutcome := do
  let outcome : BranchOutcome := ⟨x, y, ← branchedAccumulate x y⟩
  tell (.branched outcome)
  return outcome

def runChain : Narration CallChain := do
  tell .chainCalled
  let chain ← callChain
  tell (.chainFormed chain.first chain.second)
  tell (.chainEnded chain.chained)
  return chain

def runVariance (samples : List Float) : Narration VarianceOutcome := do
  let variance ← populationVarianceWith (fun x => tell (.sampleSeen x)) samples
  let outcome : VarianceOutcome := ⟨samples.length, mean samples, variance⟩
  tell (.varied outcome)
  return outcome

def runGrid (bounds : GridBounds) : Narration GridOutcome := do
  let outcome : GridOutcome := ⟨bounds, ← gridAccumulate bounds⟩
  tell (.accumulated outcome)
  return outcome

/-- The outcome of scaling a value, in double precision. -/
def scaleOutcome {α : Type} [Scalable α] (value : α) : ScaleOutcome :=
  let scaled := scaleValue value
  { typeName := Scalable.typeName α
    unscaled := Scalable.toReal scaled.unscaled
    processed := Scalable.toReal scaled.processed
    isLarge := scaled.isLarge }

def runScale {α : Type} [Scalable α] (value : α) : Narration ScaleOutcome := do
  let scaled := scaleValue value
  tell (.scaled (Scalable.typeName α) (Scalable.display scaled.unscaled)
    (Scalable.display scaled.processed))
  if scaled.isLarge then tell .foundLarge
  return scaleOutcome value

/-- All demonstrations in order. -/
def run (c : Config) : Narration Report := do
  tell .started
  let branch ← runBranch c.branch.x c.branch.y
  let chain ← runChain
  let variance ← runVariance c.moments.samples
  let grid ← runGrid c.gridBounds
  let int ← runScale c.scaler.intValue
  let double ← runScale c.scaler.doubleValue
  let float ← runScale c.scaler.floatValue
  let short ← runScale c.scaler.shortValue
  tell .standaloneCalled
  tell .finished
  return { branch, chain, variance, grid, scaled := [int, double, float, short] }

end CallStudy
