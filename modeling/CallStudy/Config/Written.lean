import CallStudy.Config.Basic
import CallStudy.Number.Binary
import CallStudy.Toml.Quoted

/-!
The written form of a configuration: a document with all sections in order, an empty line between
them. An array of more than one item has each on a line of its own.
-/

namespace CallStudy

namespace Toml

/-- Reals in documents have no exponent but always a fraction. -/
def layout : Layout := { Layout.plain with fraction := true, notANumber := "nan" }

def writeInteger (n : Int) : List Char := (toString n).toList

def writeReal (x : Float) : List Char := (layout.double x).toList

/-- An item on a line of its own. -/
def writeItem (text : List Char) : List Char := "    ".toList ++ text ++ [',', '\n']

def writeArray : List (List Char) → List Char
  | [] => ['[', ']']
  | [item] => '[' :: item ++ [']']
  | items => '[' :: '\n' :: items.flatMap writeItem ++ [']']

def writeEntry (entry : String × List Char) : List Char :=
  entry.1.toList ++ [' ', '=', ' '] ++ entry.2 ++ ['\n']

/-- A table under its heading. -/
def writeTable (table : String × List (String × List Char)) : List Char :=
  '[' :: table.1.toList ++ [']', '\n'] ++ table.2.flatMap writeEntry

/-- Tables with empty lines between them. -/
def writeTables : List (String × List (String × List Char)) → List Char
  | [] => []
  | [table] => writeTable table
  | table :: rest => writeTable table ++ '\n' :: writeTables rest

end Toml

open Toml

def GridConfig.written (c : GridConfig) : List (String × List Char) :=
  [("rows", writeInteger c.rows.toNat), ("cols", writeInteger c.cols.toNat)]

def MomentsConfig.written (c : MomentsConfig) : List (String × List Char) :=
  [("samples", writeArray (c.samples.map writeReal))]

def ScalerConfig.written (c : ScalerConfig) : List (String × List Char) :=
  [("int_value", writeInteger c.intValue.toInt), ("double_value", writeReal c.doubleValue),
    ("float_value", writeReal (Binary.widen c.floatValue)),
    ("short_value", writeInteger c.shortValue.toInt)]

def BranchConfig.written (c : BranchConfig) : List (String × List Char) :=
  [("x", writeInteger c.x.toInt), ("y", writeInteger c.y.toInt)]

def FeaturesConfig.written (c : FeaturesConfig) : List (String × List Char) :=
  ("format", quote c.format.name.toList) ::
    c.output.toList.map fun output => ("output", quote output.toList)

namespace Config

def tables (c : Config) : List (String × List (String × List Char)) :=
  [("grid", c.grid.written), ("moments", c.moments.written), ("scaler", c.scaler.written),
    ("branch", c.branch.written), ("features", c.features.written)]

/-- Whether the sides of the grid are integers that a document can hold. -/
def isWritable (c : Config) : Bool :=
  (Word.ofInt? c.grid.rows.toNat).isSome && (Word.ofInt? c.grid.cols.toNat).isSome

/-- The text of a configuration, or `none` when a side of the grid is too long for one. -/
def written? (c : Config) : Option String :=
  if c.isWritable then some (.ofList (writeTables c.tables)) else none

end Config
end CallStudy
