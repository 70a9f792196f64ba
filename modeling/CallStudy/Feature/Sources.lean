import CallStudy.Feature.Row
import CallStudy.Files.Access

/-!
Source files among given paths, and the feature rows of all of them. A directory stands for the
sources right in it, in the order of their names; any other path stands for itself.
-/

namespace CallStudy

inductive ExtractionError where
  /-- A file or directory cannot be read. -/
  | unreadable (path : String)
  | malformed (fileName : String)
  | noSources (directory : String)
  deriving Repr, DecidableEq

def ExtractionError.message : ExtractionError → String
  | unreadable path => s!"Failed to read {path}"
  | malformed fileName => s!"Failed to parse {fileName}"
  | noSources directory => s!"No Rust sources found in {directory}"

namespace FeatureRow

variable {m : Type → Type} [Monad m] [FileAccess m]

/-- The names of sources in order. -/
def sourceNames (names : List String) : List String :=
  (names.filter Path.namesSource).mergeSort fun a b => a ≤ b

/-- The sources that a path stands for. -/
def sourcesOf (path : String) : ExceptT ExtractionError m (List String) := do
  if !(← FileAccess.isDirectory path) then return [path]
  match ← FileAccess.regularFiles path with
  | none => throw (.unreadable path)
  | some names =>
    let found := sourceNames names
    if found.isEmpty then throw (.noSources path)
    return found.map (Path.join path)

/-- The sources that paths stand for, in the order of these. -/
def sources : List String → ExceptT ExtractionError m (List String)
  | [] => return []
  | path :: rest => return (← sourcesOf path) ++ (← sources rest)

/-- The rows of a file, under the last step of its path. -/
def ofFile (path : String) : ExceptT ExtractionError m (List FeatureRow) := do
  match ← FileAccess.readText path with
  | none => throw (.unreadable path)
  | some source =>
    let fileName := (Path.lastName? path).getD path
    match ofSource? fileName source with
    | none => throw (.malformed fileName)
    | some rows => return rows

/-- The rows of some files in order; each file is shown to `observe` when its rows are known. -/
def ofFiles (observe : String → List FeatureRow → m Unit) :
    List String → ExceptT ExtractionError m (List FeatureRow)
  | [] => return []
  | path :: rest => do
    let rows ← ofFile path
    observe path rows
    return rows ++ (← ofFiles observe rest)

/-- The rows of all sources that paths stand for. -/
def ofPaths (observe : String → List FeatureRow → m Unit) (paths : List String) :
    ExceptT ExtractionError m (List FeatureRow) := do
  ofFiles observe (← sources paths)

end FeatureRow
end CallStudy
