import CallStudy.Text.Json
import CallStudy.Workload.Grid
import CallStudy.Workload.Moments
import CallStudy.Workload.Scale

/-!
What the demonstrations compute. Scaled values are reported in double precision.
-/

namespace CallStudy

structure BranchOutcome where
  x : Int64
  y : Int64
  result : Int64

structure VarianceOutcome where
  samples : Nat
  mean : Float
  variance : Float

structure GridOutcome where
  bounds : GridBounds
  total : Int64

structure ScaleOutcome where
  typeName : String
  unscaled : Float
  processed : Float
  isLarge : Bool

structure Report where
  branch : BranchOutcome
  chain : CallChain
  variance : VarianceOutcome
  grid : GridOutcome
  scaled : List ScaleOutcome

def BranchOutcome.json (o : BranchOutcome) : Json :=
  .object [("x", .integer o.x.toInt), ("y", .integer o.y.toInt),
    ("result", .integer o.result.toInt)]

def CallChain.json (o : CallChain) : Json :=
  .object [("first", .integer o.first.toInt), ("second", .integer o.second.toInt),
    ("chained", .integer o.chained.toInt)]

def VarianceOutcome.json (o : VarianceOutcome) : Json :=
  .object [("samples", .integer o.samples), ("mean", .real o.mean), ("variance", .real o.variance)]

def GridOutcome.json (o : GridOutcome) : Json :=
  .object [("rows", .integer o.bounds.rows.toNat), ("cols", .integer o.bounds.cols.toNat),
    ("total", .integer o.total.toInt)]

def ScaleOutcome.json (o : ScaleOutcome) : Json :=
  .object [("type_name", .text o.typeName), ("original", .real o.unscaled),
    ("processed", .real o.processed), ("is_large", .bool o.isLarge)]

def Report.json (r : Report) : Json :=
  .object [("branch", r.branch.json), ("chain", r.chain.json), ("variance", r.variance.json),
    ("grid", r.grid.json), ("scaled", .array (r.scaled.map ScaleOutcome.json))]

end CallStudy
