import CallStudy.Config.Basic
import CallStudy.Text.Printable
import CallStudy.Toml.Value

/-!
What can be wrong with a configuration file, and the sentences that say so.
-/

namespace CallStudy

/-- Why a value of a document does not fit where it stands. -/
inductive Misfit where
  | kind (found : Toml.Value) (wanted : String)
  | range (n : Int) (wanted : String)
  | variant (name : String)
  /-- A choice is written as a text or a table. -/
  | notChoice
  | emptyChoice
  | manyChoices
  /-- A table that names a choice holds nothing behind it. -/
  | filledTable
  | filledArray
  | notTable (found : Toml.Value)

namespace Misfit

/-- Reals in messages have no exponent but always a fraction. -/
def layout : Layout := { Layout.plain with fraction := true }

/-- A value as messages show it. -/
def shown : Toml.Value → String
  | .text s => "string " ++ Printable.quoted s
  | .integer n => "integer \x60" ++ toString n ++ "\x60"
  | .real x => "floating point \x60" ++ layout.double x ++ "\x60"
  | .boolean b => "boolean \x60" ++ toString b ++ "\x60"
  | .array _ | .tables _ => "sequence"
  | .table .. | .datetime => "map"

def message : Misfit → String
  | kind found wanted => s!"invalid type: {shown found}, expected {wanted}"
  | range n wanted => "invalid value: integer \x60" ++ toString n ++ "\x60, expected " ++ wanted
  | variant name =>
    "unknown variant \x60" ++ name ++ "\x60, expected \x60csv\x60 or \x60json\x60"
  | notChoice => "wanted string or table"
  | emptyChoice => "wanted exactly 1 element, found 0 elements"
  | manyChoices => "wanted exactly 1 element, more than 1 element"
  | filledTable => "expected empty table"
  | filledArray => "expected empty array"
  | notTable found => "expected table, found " ++ found.kind

end Misfit

inductive ConfigError where
  /-- The file cannot be read or written, or holds no text. -/
  | inaccessible
  | notFound (path : String)
  /-- The text is no document. -/
  | malformed
  | misfit (reason : Misfit)
  | invalid (reason : InvalidConfig)
  /-- A side of the grid has no written form. -/
  | unwritable

def ConfigError.message : ConfigError → String
  | inaccessible => "Failed to read config file"
  | notFound path => s!"Config file not found: {path}"
  | malformed => "Failed to parse config"
  | misfit reason => s!"Failed to parse config: {reason.message}"
  | invalid reason => reason.message
  | unwritable => "Failed to serialize config: out-of-range value for u64 type"

end CallStudy
