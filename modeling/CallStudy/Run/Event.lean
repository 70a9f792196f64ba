import CallStudy.Run.Report

/-!
What is told while something runs. An event has a level, a message and named values.
-/

namespace CallStudy

/-- How important an event is. -/
inductive Level where
  | debug
  | info
  deriving Repr, DecidableEq

def Level.name : Level → String
  | debug => "DEBUG"
  | info => "INFO"

/-- A named value of an event. -/
inductive EventValue where
  | number (n : Int)
  | real (x : Float)
  | flag (b : Bool)
  /-- A text that is quoted where the event is written. -/
  | quoted (s : String)
  /-- A text that is written as it is. -/
  | plain (s : String)

inductive Event where
  | started
  | branched (outcome : BranchOutcome)
  | chainCalled
  | chainFormed (first second : Int64)
  | chainEnded (result : Int64)
  | sampleSeen (x : Float)
  | varied (outcome : VarianceOutcome)
  | accumulated (outcome : GridOutcome)
  | scaled (typeName unscaled processed : String)
  | foundLarge
  | standaloneCalled
  | finished
  | foundLargeOf (typeName : String)
  | gridPassed (bounds : GridBounds) (inlined : Bool)
  | configFound (path : String)
  | fileExtracted (path : String) (functions : Nat)
  | extracted (functions : Nat)
  | tableSaved (path : String)

namespace Event

def level : Event → Level
  | chainFormed .. | gridPassed .. | configFound .. | fileExtracted .. => .debug
  | _ => .info

def message : Event → String
  | started => "Starting application..."
  | branched _ => "Branched accumulation"
  | chainCalled => "Calling utility..."
  | chainFormed .. => "Intermediate results"
  | chainEnded n => s!"Result: {n.toInt}"
  | sampleSeen x => "Processing value: " ++ Layout.plain.double x
  | varied _ => "Population variance"
  | accumulated _ => "Grid accumulation"
  | scaled _ unscaled processed => s!"Original: {unscaled}, Processed: {processed}"
  | foundLarge | foundLargeOf _ => "Result is large!"
  | standaloneCalled => standaloneText
  | finished => "Application finished."
  | gridPassed .. => "Grid pass complete"
  | configFound _ => "Loading config"
  | fileExtracted .. | extracted _ => "Extracted features"
  | tableSaved _ => "Features saved"

def values : Event → List (String × EventValue)
  | branched o =>
    [("x", .number o.x.toInt), ("y", .number o.y.toInt), ("result", .number o.result.toInt)]
  | chainFormed first second =>
    [("first", .number first.toInt), ("second", .number second.toInt)]
  | varied o => [("samples", .number o.samples), ("mean", .real o.mean), ("variance", .real o.variance)]
  | accumulated o =>
    [("rows", .number o.bounds.rows.toNat), ("cols", .number o.bounds.cols.toNat),
      ("total", .number o.total.toInt)]
  | scaled typeName .. | foundLargeOf typeName => [("ty", .quoted typeName)]
  | gridPassed b inlined =>
    [("rows", .number b.rows.toNat), ("cols", .number b.cols.toNat), ("inline", .flag inlined)]
  | configFound path | tableSaved path => [("path", .plain path)]
  | fileExtracted path functions => [("file", .plain path), ("functions", .number functions)]
  | extracted functions => [("functions", .number functions)]
  | _ => []

end Event

namespace EventValue

/-- Reals in events keep a fraction and take an exponent outside of 1e-4 to 1e16. -/
def layout : Layout where
  tie := .up
  positional := some (-4, 15)
  fraction := true
  plus := false
  notANumber := "NaN"
  infinity
    | .positive => "inf"
    | .negative => "-inf"

def text : EventValue → String
  | number n => toString n
  | real x => layout.double x
  | flag b => toString b
  | quoted s => "\"" ++ s ++ "\""
  | plain s => s

end EventValue

/-- The line that tells of an event. -/
def Event.line (e : Event) : String :=
  " ".intercalate (e.level.name :: e.message :: e.values.map fun (name, value) =>
    name ++ "=" ++ value.text)

end CallStudy
