import CallStudy.Feature.Table
import CallStudy.Workload.Grid

/-!
The inputs of every demonstration, by section. A configuration is valid when neither its grid nor
its branched sum overflows a word.
-/

namespace CallStudy

structure GridConfig where
  rows : UInt64 := defaultGridSide
  cols : UInt64 := defaultGridSide

structure MomentsConfig where
  samples : List Float := [1.1, 2.2, 3.3, 4.4, 5.5]

structure ScalerConfig where
  intValue : Int32 := 10
  doubleValue : Float := 20.5
  floatValue : Float32 := 30.5
  shortValue : Int16 := 5

structure BranchConfig where
  x : Int64 := 5
  y : Int64 := 10

structure FeaturesConfig where
  format : TableFormat := .csv
  output : Option String := none

structure Config where
  grid : GridConfig := {}
  moments : MomentsConfig := {}
  scaler : ScalerConfig := {}
  branch : BranchConfig := {}
  features : FeaturesConfig := {}

/-- Why a configuration is not valid. -/
inductive InvalidConfig where
  | grid (bounds : GridBounds)
  | branch (x y : Int64)
  deriving Repr, DecidableEq

def InvalidConfig.message : InvalidConfig → String
  | grid b => s!"Invalid config: [grid] {b.rows.toNat}x{b.cols.toNat} total overflows i64"
  | branch x y => s!"Invalid config: [branch] x = {x.toInt}, y = {y.toInt} overflows i64"

namespace Config

def gridBounds (c : Config) : GridBounds := ⟨c.grid.rows, c.grid.cols⟩

/-- Refuses inputs whose results leave a word; the grid is looked at first. -/
def validate (c : Config) : Except InvalidConfig Unit :=
  if !c.gridBounds.fits then .error (.grid c.gridBounds)
  else if (checkedBranchedAccumulate c.branch.x c.branch.y).isNone then
    .error (.branch c.branch.x c.branch.y)
  else .ok ()

/-- Whether two configurations hold equal values. What is no number equals nothing. -/
def beq (a b : Config) : Bool :=
  a.grid.rows == b.grid.rows && a.grid.cols == b.grid.cols &&
    a.moments.samples == b.moments.samples &&
    a.scaler.intValue == b.scaler.intValue && a.scaler.doubleValue == b.scaler.doubleValue &&
    a.scaler.floatValue == b.scaler.floatValue && a.scaler.shortValue == b.scaler.shortValue &&
    a.branch.x == b.branch.x && a.branch.y == b.branch.y &&
    a.features.format == b.features.format && a.features.output == b.features.output

instance : BEq Config := ⟨beq⟩

end Config
end CallStudy
