import CallStudy.Config.Error
import CallStudy.Number.Binary
import CallStudy.Toml.Document

/-!
Reading a configuration from a document. Every field that the document gives replaces a default;
keys that name no field are left out of account. A section may also be written as an array of its
fields in order. The first misfit in the order of the document is the one that counts.
-/

namespace CallStudy

/-- How a field of a section `σ` is read. -/
structure Field (σ : Type) where
  key : String
  read : Toml.Value → σ → Except Misfit σ

namespace Field

variable {σ : Type}

/-- Replaces what the fields named in a table hold. -/
def readTable (fields : List (Field σ)) (entries : Toml.Entries) (start : σ) : Except Misfit σ :=
  entries.foldlM (fun s (key, value) =>
    match fields.find? (·.key = key) with
    | some field => field.read value s
    | none => .ok s) start

/-- Replaces what the first fields hold. -/
def readItems (fields : List (Field σ)) (items : List Toml.Value) (start : σ) : Except Misfit σ :=
  (fields.zip items).foldlM (fun s (field, value) => field.read value s) start

/-- A section of this name; a date names no field of any. -/
def readSection (name : String) (fields : List (Field σ)) (start : σ) :
    Toml.Value → Except Misfit σ
  | .table _ entries => readTable fields entries start
  | .datetime => .ok start
  | .array items => readItems fields items start
  | .tables elements => readItems fields (elements.map (.table .heading)) start
  | found => .error (.kind found s!"struct {name}")

end Field

namespace Toml.Value

/-- An integer from `low` to `high`. -/
def readInteger (wanted : String) (low high : Int) : Value → Except Misfit Int
  | .integer n => if low ≤ n ∧ n ≤ high then .ok n else .error (.range n wanted)
  | found => .error (.kind found wanted)

def readSide (v : Value) : Except Misfit UInt64 :=
  (v.readInteger "usize" 0 (UInt64.size - 1 : Nat)).map fun n => .ofNat n.toNat

def readInt64 (v : Value) : Except Misfit Int64 :=
  (v.readInteger "i64" Int64.minValue.toInt Int64.maxValue.toInt).map .ofInt

def readInt32 (v : Value) : Except Misfit Int32 :=
  (v.readInteger "i32" Int32.minValue.toInt Int32.maxValue.toInt).map .ofInt

def readInt16 (v : Value) : Except Misfit Int16 :=
  (v.readInteger "i16" Int16.minValue.toInt Int16.maxValue.toInt).map .ofInt

/-- A real; an integer is rounded to one. -/
def readDouble : Value → Except Misfit Float
  | .real x => .ok x
  | .integer n => .ok (.ofInt n)
  | found => .error (.kind found "f64")

/-- A real in single precision; an integer is rounded to one at once. -/
def readSingle : Value → Except Misfit Float32
  | .real x => .ok (Binary.narrow x)
  | .integer n => .ok (.ofInt n)
  | found => .error (.kind found "f32")

def readDoubles : Value → Except Misfit (List Float)
  | .array items => items.mapM readDouble
  | .tables elements => (elements.map (.table .heading)).mapM readDouble
  | found => .error (.kind found "a sequence")

def readText : Value → Except Misfit String
  | .text s => .ok s
  | found => .error (.kind found "a string")

def formatOfName (name : String) : Except Misfit TableFormat :=
  match TableFormat.ofName? name with
  | some format => .ok format
  | none => .error (.variant name)

/-- Refuses what is more than an empty table or array. -/
def expectEmpty : Value → Except Misfit Unit
  | .table _ entries => if entries.isEmpty then .ok () else .error .filledTable
  | .array items => if items.isEmpty then .ok () else .error .filledArray
  | .tables elements => if elements.isEmpty then .ok () else .error .filledArray
  | found => .error (.notTable found)

/-- A format: its name, or a table with its name as the only key and nothing behind it. -/
def readFormat : Value → Except Misfit TableFormat
  | .text name => formatOfName name
  | .table _ [] => .error .emptyChoice
  | .table _ [(name, value)] => do
    let format ← formatOfName name
    value.expectEmpty
    return format
  | .table .. => .error .manyChoices
  | _ => .error .notChoice

end Toml.Value

namespace GridConfig

def fields : List (Field GridConfig) :=
  [⟨"rows", fun v s => return { s with rows := ← v.readSide }⟩,
    ⟨"cols", fun v s => return { s with cols := ← v.readSide }⟩]

def read : Toml.Value → Except Misfit GridConfig := Field.readSection "GridConfig" fields {}

end GridConfig

namespace MomentsConfig

def fields : List (Field MomentsConfig) :=
  [⟨"samples", fun v s => return { s with samples := ← v.readDoubles }⟩]

def read : Toml.Value → Except Misfit MomentsConfig := Field.readSection "MomentsConfig" fields {}

end MomentsConfig

namespace ScalerConfig

def fields : List (Field ScalerConfig) :=
  [⟨"int_value", fun v s => return { s with intValue := ← v.readInt32 }⟩,
    ⟨"double_value", fun v s => return { s with doubleValue := ← v.readDouble }⟩,
    ⟨"float_value", fun v s => return { s with floatValue := ← v.readSingle }⟩,
    ⟨"short_value", fun v s => return { s with shortValue := ← v.readInt16 }⟩]

def read : Toml.Value → Except Misfit ScalerConfig := Field.readSection "ScalerConfig" fields {}

end ScalerConfig

namespace BranchConfig

def fields : List (Field BranchConfig) :=
  [⟨"x", fun v s => return { s with x := ← v.readInt64 }⟩,
    ⟨"y", fun v s => return { s with y := ← v.readInt64 }⟩]

def read : Toml.Value → Except Misfit BranchConfig := Field.readSection "BranchConfig" fields {}

end BranchConfig

namespace FeaturesConfig

def fields : List (Field FeaturesConfig) :=
  [⟨"format", fun v s => return { s with format := ← v.readFormat }⟩,
    ⟨"output", fun v s => return { s with output := some (← v.readText) }⟩]

def read : Toml.Value → Except Misfit FeaturesConfig := Field.readSection "FeaturesConfig" fields {}

end FeaturesConfig

namespace Config

/-- The sections, each of which starts from its defaults. -/
def fields : List (Field Config) :=
  [⟨"grid", fun v c => return { c with grid := ← GridConfig.read v }⟩,
    ⟨"moments", fun v c => return { c with moments := ← MomentsConfig.read v }⟩,
    ⟨"scaler", fun v c => return { c with scaler := ← ScalerConfig.read v }⟩,
    ⟨"branch", fun v c => return { c with branch := ← BranchConfig.read v }⟩,
    ⟨"features", fun v c => return { c with features := ← FeaturesConfig.read v }⟩]

def ofEntries (entries : Toml.Entries) : Except Misfit Config := Field.readTable fields entries {}

/-- The configuration in a text, whether it is valid or not. -/
def ofText (text : String) : Except ConfigError Config :=
  match Toml.parse? text.toList with
  | none => .error .malformed
  | some entries => (ofEntries entries).mapError .misfit

end Config
end CallStudy
