import CallStudy.Command.Execute

/-!
The program: it reads the arguments, does what they ask for on the real file system, writes events
and failures to the error stream and results to the output.
-/

namespace CallStudy

/-- Whether an action succeeds, and with what. -/
def succeeding {α : Type} (action : IO α) : IO (Option α) :=
  try return some (← action) catch _ => return none

/-- Whether a path leads to something of a kind. -/
def hasKind (path : String) (ofKind : IO.FS.FileType → Bool) : IO Bool := do
  let data ← succeeding do (← IO.FS.realPath path).metadata
  return data.any fun data => ofKind data.type

instance : FileAccess IO where
  isPresent path := hasKind path fun _ => true
  isDirectory path := hasKind path (· == .dir)
  readText path := do
    let content ← succeeding (IO.FS.readBinFile path)
    return content.bind String.fromUTF8?
  regularFiles path := succeeding do
    let entries ← (← IO.FS.realPath path).readDir
    let files ← entries.filterM fun entry => hasKind entry.path.toString (· == .file)
    return files.toList.map (·.fileName)
  writeText path text := return (← succeeding (IO.FS.writeFile path text)).isSome
  currentDirectory := do
    let directory ← succeeding IO.currentDir
    return directory.map (·.toString)

/-- Ends the program for arguments that make no sense. -/
def refuse : IO UInt32 := do
  IO.eprint Command.usage
  return 2

def conclude (o : Command.Outcome) : IO UInt32 := do
  for line in o.lines do IO.eprintln line
  IO.print o.output
  if let some failure := o.failure then
    IO.eprintln s!"Error: {failure.message}"
    if let some cause := failure.cause then IO.eprintln s!"\nCaused by:\n    {cause}"
  return o.code.toUInt32

end CallStudy

def main (args : List String) : IO UInt32 := do
  match ← CallStudy.Command.program (m := IO) (← IO.getEnv "RUST_LOG") args with
  | some outcome => CallStudy.conclude outcome
  | none => CallStudy.refuse
