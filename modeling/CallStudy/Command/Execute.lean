import CallStudy.Command.Failure
import CallStudy.Command.Request
import CallStudy.Config.Store
import CallStudy.Run.Demonstration
import CallStudy.Run.Filter

/-!
What commands do. A command tells of events and writes output until it ends or fails; whatever
was told and written before a failure stays. The configuration is loaded before anything else.
-/

namespace CallStudy.Command

/-- What a command has told and written. -/
structure Transcript where
  events : Array Event := #[]
  output : String := ""

/-- The work of a command. -/
abbrev Work (m : Type → Type) := ExceptT Failure (StateT Transcript m)

namespace Work

variable {m : Type → Type} [Monad m]

def note (e : Event) : StateT Transcript m Unit :=
  modify fun t => { t with events := t.events.push e }

def tell (e : Event) : Work m Unit := liftM (note e : StateT Transcript m Unit)

def write (text : String) : Work m Unit := modify fun t => { t with output := t.output ++ text }

def writeLine (text : String) : Work m Unit := write (text ++ "\n")

/-- Does work that may fail for a reason of its own. -/
def attempt {ε α : Type} (failure : ε → Failure) (work : ExceptT ε (StateT Transcript m) α) :
    Work m α :=
  ExceptT.adapt failure work

/-- Tells all that a demonstration tells. -/
def narrate {α : Type} (work : Narration α) : Work m α :=
  match work.outcome with
  | .ok (value, events) => do
    events.forM tell
    return value
  | .error o => throw (.overflow o)

end Work

open Work

variable {m : Type → Type} [Monad m] [FileAccess m]

def currentDirectory : Work m String := do
  match ← FileAccess.currentDirectory with
  | some directory => return directory
  | none => throw .noDirectory

/-- The configuration of a given path, or the nearest one around the current directory. -/
def loadConfig : Option String → Work m Config
  | some path => attempt (.config (some path)) (Config.load path)
  | none => do
    let found ← Config.find? (← currentDirectory)
    if let some path := found then tell (.configFound path)
    attempt (.config none) (Config.loadFound found)

/-- The grid of the configuration, with sides replaced by given ones. -/
def boundsOf (c : Config) (rows cols : Option UInt64) : Work m GridBounds := do
  let bounds : GridBounds := ⟨rows.getD c.grid.rows, cols.getD c.grid.cols⟩
  if bounds.fits then return bounds else throw (.tooLarge bounds)

/-- Passes over a grid once to warm up and then as often as they are timed. -/
def timePasses (bounds : GridBounds) (iterations : UInt64) : Work m Unit :=
  match gridPasses bounds (iterations.toNat + 1) with
  | .ok () => return
  | .error o => throw (.overflow o)

/-- Announces the grid that is passed and how often, and times the passes with each of two helpers
that differ only in how they are called. How long they take is no part of the output here. -/
def bench (c : Config) (iterations : UInt64) (rows cols : Option UInt64) : Work m Unit := do
  if iterations = 0 then throw .noIterations
  let bounds ← boundsOf c rows cols
  match bounds.cells with
  | none => throw .uncountable
  | some cells =>
    writeLine "Call Overhead Benchmark"
    writeLine "======================="
    writeLine <| s!"Grid: {bounds.rows.toNat}x{bounds.cols.toNat} ({cells.toNat} cells), " ++
      s!"iterations: {iterations.toNat}"
    timePasses bounds iterations
    timePasses bounds iterations

def branch (x y : Int64) : Work m Unit := do
  if (checkedBranchedAccumulate x y).isNone then throw (.branch x y)
  let outcome ← narrate (runBranch x y)
  writeLine (toString outcome.result.toInt)

/-- Writes the defaults to a new file. -/
def initConfig (target : String) : Work m Unit := do
  if ← FileAccess.isPresent target then throw (.present target)
  attempt (.unwritten target) (Config.save {} target)
  writeLine s!"Wrote default config to {target}"

def showConfigPath (path : Option String) : Work m Unit := do
  let path ←
    match path with
    | some path => pure (some path)
    | none => Config.find? (← currentDirectory)
  match path with
  | some path => writeLine path
  | none => writeLine s!"(no {Config.fileName} found, using defaults)"

def showConfig (c : Config) : Work m Unit :=
  match c.written? with
  | some text => write text
  | none => throw (.unrendered .unwritable)

/-- Writes the feature table of all sources to a file or to the output. -/
def features (c : Config) (inputs : List String) (format : Option TableFormat)
    (output : Option String) : Work m Unit := do
  let rows ← attempt .extraction
    (FeatureRow.ofPaths (fun path rows => note (.fileExtracted path rows.length)) inputs)
  tell (.extracted rows.length)
  let table := FeatureRow.table (format.getD c.features.format) rows
  match output <|> c.features.output with
  | none => write table
  | some path =>
    if !(← FileAccess.writeText path table) then throw (.uncreated path)
    tell (.tableSaved path)

def grid (c : Config) (rows cols : Option UInt64) (inlined : Bool) : Work m Unit := do
  let bounds ← boundsOf c rows cols
  match gridAccumulate bounds with
  | .error o => throw (.overflow o)
  | .ok total =>
    tell (.gridPassed bounds inlined)
    writeLine (toString total.toInt)

def runAll (c : Config) (json : Bool) : Work m Unit := do
  let report ← narrate (run c)
  if json then writeLine (report.json.indented 0)

/-- Scales a value that was read from `text`. -/
def scaleRead {α : Type} [Scalable α] (text : String) : Option α → Work m Unit
  | none => throw (.value text)
  | some value => do
    let scaled := scaleValue value
    writeLine (Scalable.display scaled.processed)
    if scaled.isLarge then tell (.foundLargeOf (Scalable.typeName α))

def scale (type : NumberType) (text : String) : Work m Unit :=
  let cs := text.toList
  match type with
  | .i8 => scaleRead text
      ((Numeral.integerIn? Int8.minValue.toInt Int8.maxValue.toInt cs).map Int8.ofInt)
  | .i16 => scaleRead text
      ((Numeral.integerIn? Int16.minValue.toInt Int16.maxValue.toInt cs).map Int16.ofInt)
  | .i32 => scaleRead text
      ((Numeral.integerIn? Int32.minValue.toInt Int32.maxValue.toInt cs).map Int32.ofInt)
  | .i64 => scaleRead text
      ((Numeral.integerIn? Int64.minValue.toInt Int64.maxValue.toInt cs).map Int64.ofInt)
  | .f32 => scaleRead text (Numeral.single? cs)
  | .f64 => scaleRead text (Numeral.double? cs)

def variance (c : Config) (values : List Float) : Work m Unit := do
  let outcome ← narrate (runVariance (if values.isEmpty then c.moments.samples else values))
  writeLine (Layout.plain.double outcome.variance)

/-- What a request asks for once its configuration is loaded. -/
def Request.perform (r : Request) (c : Config) : Work m Unit :=
  match r.command with
  | .bench iterations rows cols => bench c iterations rows cols
  | .branch x y => branch x y
  | .config _ (some target) => initConfig target
  | .config true none => showConfigPath r.config
  | .config false none => showConfig c
  | .features inputs format output => features c inputs format output
  | .grid rows cols inlined => grid c rows cols inlined
  | .run json => runAll c json
  | .scale type value => scale type value
  | .variance values => variance c values

/-- Everything that a request asks for. -/
def Request.execute (r : Request) : Work m Unit := do r.perform (← loadConfig r.config)

/-- What is left of a run of the program: the exit code, the output, the events that were written
and how it failed. -/
structure Outcome where
  code : Nat := 0
  output : String := ""
  lines : List String := []
  failure : Option Failure := none

/-- Does what a request asks for and writes the events that the filter lets pass. -/
def Request.outcome (r : Request) (setting : Option String) : m Outcome := do
  let (result, transcript) ← StateT.run (ExceptT.run (r.execute (m := m))) {}
  let filter := EventFilter.choose setting r.verbosity
  let lines := (transcript.events.toList.filter filter.passes).map Event.line
  match result with
  | .ok () => return { output := transcript.output, lines }
  | .error failure =>
    return { code := failure.code, output := transcript.output, lines, failure := some failure }

def versionText : String := "0.1.0"

def usage : String :=
  "Usage: inlinelab [--config <CONFIG>] [-v]... <COMMAND>\n\nCommands: " ++
    ", ".intercalate (readers.map (·.1)) ++ "\n"

/-- Runs the program; `none` stands for arguments that make no sense. -/
def program (setting : Option String) (args : List String) : m (Option Outcome) :=
  match Request.ofArguments args with
  | .ok request => return some (← request.outcome setting)
  | .error .version => return some { output := s!"inlinelab {versionText}\n" }
  | .error .help => return some { output := usage }
  | .error .misuse => return none

end CallStudy.Command
