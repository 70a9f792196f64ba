import CallStudy.Config.Read
import CallStudy.Proofs.Number.Packing
import CallStudy.Proofs.Toml.Document

/-!
A written configuration reads back as it was. Every section is a table of which the reader of the
section makes the same values again; a single precision real is written as the double of its value,
which narrows to it.
-/

set_option autoImplicit false

namespace CallStudy

open Toml Toml.Reader

namespace Toml.Value

theorem readInteger_of_range {low high n : Int} (wanted : String) (from_low : low ≤ n)
    (to_high : n ≤ high) : readInteger wanted low high (.integer n) = .ok n :=
  if_pos ⟨from_low, to_high⟩

theorem readSide_toNat (w : UInt64) : readSide (.integer w.toNat) = .ok w := by
  have large := w.toNat_lt
  rw [readSide, readInteger_of_range _ (by omega) (by rw [UInt64.size]; omega)]
  exact congrArg Except.ok UInt64.ofNat_toNat

theorem readInt64_toInt (w : Int64) : readInt64 (.integer w.toInt) = .ok w := by
  rw [readInt64, readInteger_of_range _ w.minValue_le_toInt w.toInt_le]
  exact congrArg Except.ok w.ofInt_toInt

theorem readInt32_toInt (w : Int32) : readInt32 (.integer w.toInt) = .ok w := by
  rw [readInt32, readInteger_of_range _ w.minValue_le_toInt w.toInt_le]
  exact congrArg Except.ok w.ofInt_toInt

theorem readInt16_toInt (w : Int16) : readInt16 (.integer w.toInt) = .ok w := by
  rw [readInt16, readInteger_of_range _ w.minValue_le_toInt w.toInt_le]
  exact congrArg Except.ok w.ofInt_toInt

theorem readSingle_widen (x : Float32) : readSingle (.real (Binary.widen x)) = .ok x := by
  rw [readSingle, Binary.narrow_widen]

theorem readDoubles_real (samples : List Float) :
    readDoubles (.array (samples.map .real)) = .ok samples := by
  rw [readDoubles]
  induction samples with
  | nil => rfl
  | cons x samples ih =>
    rw [List.map_cons, List.mapM_cons, ih]
    rfl

theorem readFormat_name (format : TableFormat) : readFormat (.text format.name) = .ok format := by
  cases format <;> rfl

end Toml.Value

/-! The tables of the sections. -/

def GridConfig.entries (c : GridConfig) : Entries :=
  [("rows", .integer c.rows.toNat), ("cols", .integer c.cols.toNat)]

def MomentsConfig.entries (c : MomentsConfig) : Entries :=
  [("samples", .array (c.samples.map .real))]

def ScalerConfig.entries (c : ScalerConfig) : Entries :=
  [("int_value", .integer c.intValue.toInt), ("double_value", .real c.doubleValue),
    ("float_value", .real (Binary.widen c.floatValue)),
    ("short_value", .integer c.shortValue.toInt)]

def BranchConfig.entries (c : BranchConfig) : Entries :=
  [("x", .integer c.x.toInt), ("y", .integer c.y.toInt)]

def FeaturesConfig.entries (c : FeaturesConfig) : Entries :=
  ("format", .text c.format.name) :: c.output.toList.map fun output => ("output", .text output)

def Config.sections (c : Config) : List (String × Entries) :=
  [("grid", c.grid.entries), ("moments", c.moments.entries), ("scaler", c.scaler.entries),
    ("branch", c.branch.entries), ("features", c.features.entries)]

/-! Reading them. -/

open Toml.Value

@[simp] theorem bind_ok {ε α β : Type} (a : α) (f : α → Except ε β) :
    (Except.ok a >>= f) = f a := rfl

theorem GridConfig.read_entries (c : GridConfig) (origin : Origin) :
    GridConfig.read (.table origin c.entries) = .ok c := by
  simp [GridConfig.read, Field.readSection, Field.readTable, entries, fields, readSide_toNat]

theorem MomentsConfig.read_entries (c : MomentsConfig) (origin : Origin) :
    MomentsConfig.read (.table origin c.entries) = .ok c := by
  simp [MomentsConfig.read, Field.readSection, Field.readTable, entries, fields, readDoubles_real]

theorem ScalerConfig.read_entries (c : ScalerConfig) (origin : Origin) :
    ScalerConfig.read (.table origin c.entries) = .ok c := by
  simp [ScalerConfig.read, Field.readSection, Field.readTable, entries, fields, readInt32_toInt,
    readDouble, readSingle_widen, readInt16_toInt]

theorem BranchConfig.read_entries (c : BranchConfig) (origin : Origin) :
    BranchConfig.read (.table origin c.entries) = .ok c := by
  simp [BranchConfig.read, Field.readSection, Field.readTable, entries, fields, readInt64_toInt]

theorem FeaturesConfig.read_entries (c : FeaturesConfig) (origin : Origin) :
    FeaturesConfig.read (.table origin c.entries) = .ok c := by
  obtain ⟨format, _ | output⟩ := c <;>
    simp [FeaturesConfig.read, Field.readSection, Field.readTable, entries, fields, readFormat_name,
      readText]

/-- Every section replaces its defaults. -/
theorem Config.ofEntries_sections (c : Config) :
    ofEntries (c.sections.map fun w => (w.1, .table .heading w.2)) = .ok c := by
  simp [ofEntries, Field.readTable, sections, fields, GridConfig.read_entries,
    MomentsConfig.read_entries, ScalerConfig.read_entries, BranchConfig.read_entries,
    FeaturesConfig.read_entries]

/-! Writing them. -/

theorem holds_integer {key : String} (bare : Bare key) {n : Int} (fits : (Word.ofInt? n).isSome) :
    Holds (key, writeInteger n) (key, .integer n) :=
  ⟨rfl, bare, reads_writeInteger _ fits⟩

theorem holds_real {key : String} (bare : Bare key) (x : Float) :
    Holds (key, writeReal x) (key, .real x) :=
  ⟨rfl, bare, reads_writeReal _ x⟩

theorem holds_text {key : String} (bare : Bare key) (text : String) :
    Holds (key, quote text.toList) (key, .text text) :=
  ⟨rfl, bare, by simpa using reads_quote _ text.toList⟩

theorem holds_reals {key : String} (bare : Bare key) (samples : List Float) :
    Holds (key, writeArray (samples.map writeReal)) (key, .array (samples.map .real)) := by
  refine ⟨rfl, bare, reads_writeArray ?_⟩
  rw [List.forall₂_map_left_iff, List.forall₂_map_right_iff, List.forall₂_same]
  exact fun x _ => reads_writeReal _ x

/-- The names in a written configuration need no quotes. -/
theorem bare_names : ∀ name ∈ ["grid", "rows", "cols", "moments", "samples", "scaler", "int_value",
    "double_value", "float_value", "short_value", "branch", "x", "y", "features", "format",
    "output"], Bare name := by
  intro name mem
  fin_cases mem <;> simp [Bare, isBare]

theorem isSome_ofInt?_toInt (w : Int64) : (Word.ofInt? w.toInt).isSome :=
  Option.isSome_iff_exists.mpr ⟨w, Word.ofInt?_eq_some_iff.mpr rfl⟩

theorem holdsTable {name : String} (bare : Bare name) {entries : List (String × List Char)}
    {ws : Entries} (each : List.Forall₂ Holds entries ws) (fresh : (ws.map (·.1)).Nodup) :
    HoldsTable (name, entries) (name, ws) :=
  ⟨rfl, bare, each, fresh⟩

theorem GridConfig.holds {c : GridConfig} (rows : (Word.ofInt? c.rows.toNat).isSome)
    (cols : (Word.ofInt? c.cols.toNat).isSome) :
    List.Forall₂ Holds c.written c.entries :=
  .cons (holds_integer (bare_names _ (by simp)) rows)
    (.cons (holds_integer (bare_names _ (by simp)) cols) .nil)

theorem MomentsConfig.holds (c : MomentsConfig) : List.Forall₂ Holds c.written c.entries :=
  .cons (holds_reals (bare_names _ (by simp)) c.samples) .nil

theorem ScalerConfig.holds (c : ScalerConfig) : List.Forall₂ Holds c.written c.entries := by
  have int : (Word.ofInt? c.intValue.toInt).isSome := by
    simpa using isSome_ofInt?_toInt c.intValue.toInt64
  have short : (Word.ofInt? c.shortValue.toInt).isSome := by
    simpa using isSome_ofInt?_toInt c.shortValue.toInt64
  exact .cons (holds_integer (bare_names _ (by simp)) int)
    (.cons (holds_real (bare_names _ (by simp)) _)
      (.cons (holds_real (bare_names _ (by simp)) _)
        (.cons (holds_integer (bare_names _ (by simp)) short) .nil)))

theorem BranchConfig.holds (c : BranchConfig) : List.Forall₂ Holds c.written c.entries :=
  .cons (holds_integer (bare_names _ (by simp)) (isSome_ofInt?_toInt c.x))
    (.cons (holds_integer (bare_names _ (by simp)) (isSome_ofInt?_toInt c.y)) .nil)

theorem FeaturesConfig.holds (c : FeaturesConfig) : List.Forall₂ Holds c.written c.entries := by
  obtain ⟨format, _ | output⟩ := c
  · exact .cons (holds_text (bare_names _ (by simp)) format.name) .nil
  · exact .cons (holds_text (bare_names _ (by simp)) format.name)
      (.cons (holds_text (bare_names _ (by simp)) output) .nil)

namespace Config

theorem holds {c : Config} (writable : c.isWritable) :
    List.Forall₂ HoldsTable c.tables c.sections := by
  rw [isWritable, Bool.and_eq_true] at writable
  have grid := GridConfig.holds writable.1 writable.2
  refine .cons (holdsTable (bare_names _ (by simp)) grid (by simp [GridConfig.entries]))
    (.cons (holdsTable (bare_names _ (by simp)) c.moments.holds (by simp [MomentsConfig.entries]))
      (.cons (holdsTable (bare_names _ (by simp)) c.scaler.holds (by simp [ScalerConfig.entries]))
        (.cons (holdsTable (bare_names _ (by simp)) c.branch.holds (by simp [BranchConfig.entries]))
          (.cons (holdsTable (bare_names _ (by simp)) c.features.holds ?_) .nil))))
  cases output : c.features.output <;> simp [FeaturesConfig.entries, output]

/-- What is written of a configuration is read as the same one. -/
theorem ofText_of_written? {c : Config} {text : String} (written : c.written? = some text) :
    ofText text = .ok c := by
  rw [written?] at written
  split at written
  · next writable =>
    obtain rfl := Option.some.inj written
    rw [ofText, String.toList_ofList, parse?_writeTables (holds writable) (by simp [sections])]
    simp [ofEntries_sections, Except.mapError]
  · cases written

end Config
end CallStudy
