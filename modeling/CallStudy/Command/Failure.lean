import CallStudy.Config.Error
import CallStudy.Feature.Sources

/-!
How commands fail: a sentence for what was tried, and the cause behind it.
-/

namespace CallStudy.Command

inductive Failure where
  /-- The configuration could not be loaded, from a given path or from around the directory. -/
  | config (path : Option String) (cause : ConfigError)
  | noDirectory
  | tooLarge (bounds : GridBounds)
  | uncountable
  | noIterations
  | branch (x y : Int64)
  | present (path : String)
  | unwritten (path : String) (cause : ConfigError)
  | unrendered (cause : ConfigError)
  | extraction (cause : ExtractionError)
  | uncreated (path : String)
  | value (text : String)
  | overflow (cause : Overflow)

namespace Failure

def message : Failure → String
  | config none _ => "Failed to load config"
  | config (some path) _ => s!"Failed to load config {path}"
  | noDirectory => "No current directory"
  | tooLarge b =>
    s!"{b.rows.toNat}x{b.cols.toNat} grid is too large: its total overflows i64"
  | uncountable => "Grid cell count overflows usize"
  | noIterations => "iterations must be at least 1"
  | branch x y => s!"branch({x.toInt}, {y.toInt}) overflows i64"
  | present path => s!"{path} already exists"
  | unwritten path _ => s!"Failed to write {path}"
  | unrendered _ => "Failed to render config"
  | extraction _ => "Feature extraction failed"
  | uncreated path => s!"Failed to create {path}"
  | value text => s!"Invalid value for this type: {text}"
  | overflow cause => cause.message

/-- The sentence of the cause, if there is one. -/
def cause : Failure → Option String
  | config _ reason | unwritten _ reason => some reason.message
  | extraction reason => some reason.message
  | _ => none

/-- A failure that was not provided for has an exit code of its own. -/
def code : Failure → Nat
  | overflow _ => 101
  | _ => 1

end Failure
end CallStudy.Command
