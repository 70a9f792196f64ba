import CallStudy.Config.Read
import CallStudy.Config.Written
import CallStudy.Files.Access

/-!
Configurations in files. The file that counts is the one in the nearest directory around a place;
where there is none, the defaults hold.
-/

namespace CallStudy.Config

variable {m : Type → Type} [Monad m] [FileAccess m]

/-- The valid configuration in a file. -/
def load (path : String) : ExceptT ConfigError m Config := do
  if !(← FileAccess.isPresent path) then throw (.notFound path)
  match ← FileAccess.readText path with
  | none => throw .inaccessible
  | some text =>
    let c ← MonadExcept.ofExcept (ofText text)
    MonadExcept.ofExcept (c.validate.mapError .invalid)
    return c

/-- Writes a configuration to a file. -/
def save (c : Config) (path : String) : ExceptT ConfigError m Unit :=
  match c.written? with
  | none => throw .unwritable
  | some text => do
    if !(← FileAccess.writeText path text) then throw .inaccessible

def fileName : String := "inlinelab.toml"

/-- The first path that leads to something. -/
def firstPresent : List String → m (Option String)
  | [] => return none
  | path :: rest => do
    if ← FileAccess.isPresent path then return some path else firstPresent rest

/-- The nearest configuration file around a place. -/
def find? (place : String) : m (Option String) :=
  firstPresent ((Path.ancestors place).map (Path.join · fileName))

/-- The configuration in the file that was found, or the defaults. -/
def loadFound : Option String → ExceptT ConfigError m Config
  | some path => load path
  | none => return {}

end CallStudy.Config
