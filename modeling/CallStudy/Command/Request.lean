import CallStudy.Command.Form
import CallStudy.Feature.Table
import CallStudy.Number.Numeral
import CallStudy.Number.Word

/-!
What can be asked for on the command line. Switches for the configuration file and for more detail
may stand before and behind the name of a command; where both places give a value, the later one
counts.
-/

namespace CallStudy.Command

/-- The types of number that can be scaled from the command line. -/
inductive NumberType where
  | i8
  | i16
  | i32
  | i64
  | f32
  | f64
  deriving Repr, DecidableEq, Inhabited

def NumberType.ofName? : String → Option NumberType
  | "i8" => some .i8
  | "i16" => some .i16
  | "i32" => some .i32
  | "i64" => some .i64
  | "f32" => some .f32
  | "f64" => some .f64
  | _ => none

inductive Subcommand where
  | bench (iterations : UInt64) (rows cols : Option UInt64)
  | branch (x y : Int64)
  | config (showPath : Bool) (target : Option String)
  | features (inputs : List String) (format : Option TableFormat) (output : Option String)
  | grid (rows cols : Option UInt64) (inlined : Bool)
  | run (json : Bool)
  | scale (type : NumberType) (value : String)
  | variance (values : List Float)

/-- A command with what holds for all commands. -/
structure Request where
  config : Option String
  verbosity : Nat
  command : Subcommand

/-! Values of arguments. -/

def size? (text : String) : Option UInt64 :=
  (Numeral.unsigned? text.toList).bind fun n => if n < UInt64.size then some (.ofNat n) else none

def integer? (text : String) : Option Int64 := (Numeral.integer? text.toList).bind Word.ofInt?

def real? (text : String) : Option Float := Numeral.double? text.toList

/-- A path is never empty. -/
def path? (text : String) : Option String := if text.isEmpty then none else some text

/-- Sets what has not been set before. -/
def once {α : Type} (old : Option α) (new : Option α) : Except Stop (Option α) :=
  match old, new with
  | none, some a => .ok (some a)
  | _, _ => .error .misuse

/-- Raises a flag that is not yet up. -/
def raise (up : Bool) : Except Stop Bool := if up then .error .misuse else .ok true

/-! The switches for all commands. -/

structure Common where
  config : Option String := none
  verbosity : Nat := 0

namespace Common

def switches : List (Switch Common) :=
  [⟨"config", none, .value fun text c => return { c with config := ← once c.config (path? text) }⟩,
    ⟨"verbose", some 'v', .flag fun c => return { c with verbosity := c.verbosity + 1 }⟩,
    ⟨"help", some 'h', .flag fun _ => .error .help⟩]

/-- What was given behind the name of a command goes before what was given in front of it. -/
def merge (outer inner : Common) : Common where
  config := inner.config <|> outer.config
  verbosity := if inner.verbosity = 0 then outer.verbosity else inner.verbosity

end Common

/-- Reads the arguments of one command. -/
def readWith {τ : Type} (form : Form τ) (start : τ) (finish : τ → Option Subcommand)
    (args : List String) : Except Stop (Common × Subcommand) := do
  let whole : Form (Common × τ) :=
    { switches := Common.switches.map Switch.first ++ form.switches.map Switch.second
      slots := form.slots.map Slot.second }
  let ((common, read), _) ← whole.run (fun _ => false) ({}, start) args
  match finish read with
  | some command => return (common, command)
  | none => throw .misuse

/-! The commands. -/

structure BenchArguments where
  iterations : Option UInt64 := none
  rows : Option UInt64 := none
  cols : Option UInt64 := none

def readBench : List String → Except Stop (Common × Subcommand) :=
  readWith
    { switches :=
        [⟨"iterations", some 'i', .value fun text a =>
            return { a with iterations := ← once a.iterations (size? text) }⟩,
          ⟨"rows", none, .value fun text a => return { a with rows := ← once a.rows (size? text) }⟩,
          ⟨"cols", none, .value fun text a =>
            return { a with cols := ← once a.cols (size? text) }⟩] }
    ({} : BenchArguments) fun a => some (.bench (a.iterations.getD 100) a.rows a.cols)

structure BranchArguments where
  x : Option Int64 := none
  y : Option Int64 := none

def readBranch : List String → Except Stop (Common × Subcommand) :=
  readWith
    { slots :=
        [⟨fun text a => return { a with x := ← once a.x (integer? text) }, true, false⟩,
          ⟨fun text a => return { a with y := ← once a.y (integer? text) }, true, false⟩] }
    ({} : BranchArguments) fun a => return .branch (← a.x) (← a.y)

structure ConfigArguments where
  path : Bool := false
  init : Option String := none

def readConfig : List String → Except Stop (Common × Subcommand) :=
  readWith
    { switches :=
        [⟨"path", none, .flag fun a => return { a with path := ← raise a.path }⟩,
          ⟨"init", none, .value fun text a =>
            return { a with init := ← once a.init (path? text) }⟩] }
    ({} : ConfigArguments) fun a => some (.config a.path a.init)

structure FeaturesArguments where
  inputs : List String := []
  format : Option TableFormat := none
  output : Option String := none

def readFeatures : List String → Except Stop (Common × Subcommand) :=
  readWith
    { switches :=
        [⟨"format", some 'f', .value fun text a =>
            return { a with format := ← once a.format (TableFormat.ofName? text) }⟩,
          ⟨"output", some 'o', .value fun text a =>
            return { a with output := ← once a.output (path? text) }⟩]
      slots :=
        [⟨fun text a =>
            match path? text with
            | some path => .ok { a with inputs := a.inputs ++ [path] }
            | none => .error .misuse, false, true⟩] }
    ({} : FeaturesArguments) fun a =>
      if a.inputs.isEmpty then none else some (.features a.inputs a.format a.output)

structure GridArguments where
  rows : Option UInt64 := none
  cols : Option UInt64 := none
  inlined : Bool := false

def readGrid : List String → Except Stop (Common × Subcommand) :=
  readWith
    { switches :=
        [⟨"rows", none, .value fun text a => return { a with rows := ← once a.rows (size? text) }⟩,
          ⟨"cols", none, .value fun text a => return { a with cols := ← once a.cols (size? text) }⟩,
          ⟨"inline", none, .flag fun a => return { a with inlined := ← raise a.inlined }⟩] }
    ({} : GridArguments) fun a => some (.grid a.rows a.cols a.inlined)

def readRun : List String → Except Stop (Common × Subcommand) :=
  readWith { switches := [⟨"json", none, .flag raise⟩] } false fun json => some (.run json)

structure ScaleArguments where
  type : Option NumberType := none
  value : Option String := none

def readScale : List String → Except Stop (Common × Subcommand) :=
  readWith
    { switches :=
        [⟨"ty", some 't', .value fun text a =>
            return { a with type := ← once a.type (NumberType.ofName? text) }⟩]
      slots := [⟨fun text a => return { a with value := ← once a.value (some text) }, true, false⟩] }
    ({} : ScaleArguments) fun a => return .scale (a.type.getD .i32) (← a.value)

def readVariance : List String → Except Stop (Common × Subcommand) :=
  readWith
    { slots :=
        [⟨fun text values =>
            match real? text with
            | some x => .ok (values ++ [x])
            | none => .error .misuse, true, true⟩] }
    [] fun values => some (.variance values)

/-- The commands by name. -/
def readers : List (String × (List String → Except Stop (Common × Subcommand))) :=
  [("bench", readBench), ("branch", readBranch), ("config", readConfig),
    ("features", readFeatures), ("grid", readGrid), ("run", readRun), ("scale", readScale),
    ("variance", readVariance)]

/-- The form of what stands in front of the command. -/
def outerForm : Form Common :=
  { switches := Common.switches ++ [⟨"version", some 'V', .flag fun _ => .error .version⟩] }

/-- Whether an argument in front ends what holds for all commands. -/
def namesCommand (arg : String) : Bool := arg = "help" || (readers.lookup arg).isSome

/-- Reads all arguments of the program. -/
def Request.ofArguments (args : List String) : Except Stop Request := do
  let (outer, rest) ← outerForm.run namesCommand {} args
  match rest with
  | [] => throw .misuse
  | name :: args =>
    match readers.lookup name with
    | none => throw .help
    | some reader =>
      let (inner, command) ← reader args
      let common := outer.merge inner
      return { config := common.config, verbosity := common.verbosity, command }

end CallStudy.Command
