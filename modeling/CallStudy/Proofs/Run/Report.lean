import CallStudy.Feature.FromJson
import CallStudy.Proofs.Text.Json
import CallStudy.Run.Report

/-!
Reading a report from its JSON text. Everything but a real that is not finite has a form that reads
back, so a text gives a report exactly when all reals of its report are numbers.
-/

set_option autoImplicit false

namespace CallStudy

namespace Json

def bool? : Json → Option Bool
  | bool b => some b
  | _ => none

/-- A real, or an integer in its place. -/
def real? : Json → Option Float
  | real x => some x
  | integer n => some (.ofInt n)
  | _ => none

def word? : Json → Option Int64
  | integer n => Word.ofInt? n
  | _ => none

def size? (j : Json) : Option UInt64 := (j.naturalBelow? UInt64.size).map .ofNat

def items? : Json → Option (List Json)
  | array items => some items
  | _ => none

@[simp] theorem word?_toInt (w : Int64) : word? (.integer w.toInt) = some w :=
  Word.ofInt?_eq_some_iff.mpr rfl

@[simp] theorem size?_toNat (n : UInt64) : size? (.integer n.toNat) = some n := by
  have small : n.toNat < UInt64.size := n.toNat_lt
  rw [size?, naturalBelow?_integer small, Option.map_some, UInt64.ofNat_toNat]

@[simp] theorem real?_nulled (x : Float) :
    (nulled (.real x)).real? = if x.isFinite then some x else none := by
  rw [nulled]
  split <;> rfl

variable {room : Nat}

theorem readable_word (w : Int64) : Readable room (.integer w.toInt) := by
  have low := w.le_toInt
  have high := w.toInt_lt
  exact .integer low (by omega)

theorem readable_natural {n : Nat} (small : n < UInt64.size) : Readable room (.integer n) := by
  have bound : n < 2 ^ 64 := small
  exact .integer (by omega) (by omega)

theorem readable_nulled_real (x : Float) : Readable room (nulled (.real x)) := by
  rw [nulled]
  split
  · next finite => exact .real finite
  · exact .null

end Json

open Json

/-! The parts of a report, each from the values of its fields. -/

def BranchOutcome.ofValues? : List Json → Option BranchOutcome
  | [x, y, result] => do return ⟨← x.word?, ← y.word?, ← result.word?⟩
  | _ => none

def CallChain.ofValues? : List Json → Option CallChain
  | [first, second, chained] => do return ⟨← first.word?, ← second.word?, ← chained.word?⟩
  | _ => none

def VarianceOutcome.ofValues? : List Json → Option VarianceOutcome
  | [samples, mean, variance] => do
    return ⟨← samples.naturalBelow? UInt64.size, ← mean.real?, ← variance.real?⟩
  | _ => none

def GridOutcome.ofValues? : List Json → Option GridOutcome
  | [rows, cols, total] => do return ⟨⟨← rows.size?, ← cols.size?⟩, ← total.word?⟩
  | _ => none

def ScaleOutcome.ofValues? : List Json → Option ScaleOutcome
  | [typeName, unscaled, processed, isLarge] => do
    return ⟨← typeName.text?, ← unscaled.real?, ← processed.real?, ← isLarge.bool?⟩
  | _ => none

def BranchOutcome.ofJson? (j : Json) : Option BranchOutcome :=
  (j.members? ["x", "y", "result"]).bind ofValues?

def CallChain.ofJson? (j : Json) : Option CallChain :=
  (j.members? ["first", "second", "chained"]).bind ofValues?

def VarianceOutcome.ofJson? (j : Json) : Option VarianceOutcome :=
  (j.members? ["samples", "mean", "variance"]).bind ofValues?

def GridOutcome.ofJson? (j : Json) : Option GridOutcome :=
  (j.members? ["rows", "cols", "total"]).bind ofValues?

def ScaleOutcome.ofJson? (j : Json) : Option ScaleOutcome :=
  (j.members? ["type_name", "original", "processed", "is_large"]).bind ofValues?

def Report.ofValues? : List Json → Option Report
  | [branch, chain, variance, grid, scaled] => do
    return ⟨← BranchOutcome.ofJson? branch, ← CallChain.ofJson? chain,
      ← VarianceOutcome.ofJson? variance, ← GridOutcome.ofJson? grid,
      ← (← scaled.items?).mapM ScaleOutcome.ofJson?⟩
  | _ => none

def Report.ofJson? (j : Json) : Option Report :=
  (j.members? ["branch", "chain", "variance", "grid", "scaled"]).bind ofValues?

/-- The report that a text holds. -/
def Report.ofText? (text : String) : Option Report := (Json.read? text).bind ofJson?

def VarianceOutcome.reals (o : VarianceOutcome) : List Float := [o.mean, o.variance]

def ScaleOutcome.reals (o : ScaleOutcome) : List Float := [o.unscaled, o.processed]

/-- All reals of a report. -/
def Report.reals (r : Report) : List Float :=
  r.variance.reals ++ r.scaled.flatMap ScaleOutcome.reals

/-! Reading what was written. -/

theorem BranchOutcome.ofJson?_nulled (o : BranchOutcome) : ofJson? o.json.nulled = some o := by
  have members : members? ["x", "y", "result"] o.json.nulled =
      some [.integer o.x.toInt, .integer o.y.toInt, .integer o.result.toInt] :=
    members?_eq rfl (by decide) rfl
  rw [ofJson?, members, Option.bind_some, ofValues?, word?_toInt, word?_toInt, word?_toInt]
  rfl

theorem CallChain.ofJson?_nulled (o : CallChain) : ofJson? o.json.nulled = some o := by
  have members : members? ["first", "second", "chained"] o.json.nulled =
      some [.integer o.first.toInt, .integer o.second.toInt, .integer o.chained.toInt] :=
    members?_eq rfl (by decide) rfl
  rw [ofJson?, members, Option.bind_some, ofValues?, word?_toInt, word?_toInt, word?_toInt]
  rfl

theorem VarianceOutcome.ofJson?_nulled {o : VarianceOutcome} (few : o.samples < UInt64.size) :
    ofJson? o.json.nulled = if ∀ x ∈ o.reals, x.isFinite then some o else none := by
  have members : members? ["samples", "mean", "variance"] o.json.nulled =
      some [.integer o.samples, nulled (.real o.mean), nulled (.real o.variance)] :=
    members?_eq rfl (by decide) rfl
  rw [ofJson?, members, Option.bind_some, ofValues?, naturalBelow?_integer few, real?_nulled,
    real?_nulled]
  by_cases mean : o.mean.isFinite <;> by_cases variance : o.variance.isFinite <;>
    simp [reals, mean, variance]

theorem GridOutcome.ofJson?_nulled (o : GridOutcome) : ofJson? o.json.nulled = some o := by
  have members : members? ["rows", "cols", "total"] o.json.nulled =
      some [.integer o.bounds.rows.toNat, .integer o.bounds.cols.toNat,
        .integer o.total.toInt] := members?_eq rfl (by decide) rfl
  rw [ofJson?, members, Option.bind_some, ofValues?, size?_toNat, size?_toNat, word?_toInt]
  rfl

theorem ScaleOutcome.ofJson?_nulled (o : ScaleOutcome) :
    ofJson? o.json.nulled = if ∀ x ∈ o.reals, x.isFinite then some o else none := by
  have members : members? ["type_name", "original", "processed", "is_large"] o.json.nulled =
      some [.text o.typeName, nulled (.real o.unscaled), nulled (.real o.processed),
        .bool o.isLarge] := members?_eq rfl (by decide) rfl
  rw [ofJson?, members, Option.bind_some, ofValues?, real?_nulled, real?_nulled]
  by_cases unscaled : o.unscaled.isFinite <;> by_cases processed : o.processed.isFinite <;>
    simp [text?, bool?, reals, unscaled, processed]

theorem mapM_ofJson?_nulled (outcomes : List ScaleOutcome) :
    (outcomes.map fun o => o.json.nulled).mapM ScaleOutcome.ofJson? =
      if ∀ x ∈ outcomes.flatMap ScaleOutcome.reals, x.isFinite then some outcomes else none := by
  induction outcomes with
  | nil => rfl
  | cons o rest ih =>
    rw [List.map_cons, List.mapM_cons, ScaleOutcome.ofJson?_nulled, ih, List.flatMap_cons]
    simp only [List.forall_mem_append]
    by_cases first : ∀ x ∈ o.reals, x.isFinite
    · by_cases others : ∀ x ∈ rest.flatMap ScaleOutcome.reals, x.isFinite
      · rw [if_pos first, if_pos others, if_pos ⟨first, others⟩]
        rfl
      · rw [if_pos first, if_neg others, if_neg (not_and_of_not_right _ others)]
        rfl
    · rw [if_neg first, if_neg (not_and_of_not_left _ first)]
      rfl

theorem Report.ofJson?_nulled {r : Report} (few : r.variance.samples < UInt64.size) :
    ofJson? r.json.nulled = if ∀ x ∈ r.reals, x.isFinite then some r else none := by
  have scaled : nulledItems (r.scaled.map ScaleOutcome.json) =
      r.scaled.map fun o => o.json.nulled := by
    rw [nulledItems_eq, List.map_map]
    rfl
  have members : members? ["branch", "chain", "variance", "grid", "scaled"] r.json.nulled =
      some [r.branch.json.nulled, r.chain.json.nulled, r.variance.json.nulled, r.grid.json.nulled,
        .array (nulledItems (r.scaled.map ScaleOutcome.json))] := members?_eq rfl (by decide) rfl
  rw [ofJson?, members, Option.bind_some, ofValues?, BranchOutcome.ofJson?_nulled,
    CallChain.ofJson?_nulled, VarianceOutcome.ofJson?_nulled few, GridOutcome.ofJson?_nulled,
    scaled, items?]
  simp only [Option.bind_eq_bind, Option.bind_some, mapM_ofJson?_nulled, reals,
    List.forall_mem_append]
  by_cases moments : ∀ x ∈ r.variance.reals, x.isFinite
  · by_cases others : ∀ x ∈ r.scaled.flatMap ScaleOutcome.reals, x.isFinite
    · rw [if_pos moments, if_pos others, if_pos ⟨moments, others⟩]
      rfl
    · rw [if_pos moments, if_neg others, if_neg (not_and_of_not_right _ others)]
      rfl
  · rw [if_neg moments, if_neg (not_and_of_not_left _ moments)]
    rfl

/-! All of it can be written. -/

section Readable

variable {room : Nat}

theorem readable_nulled_fields {fields : List (String × Json)}
    (each : ∀ field ∈ nulledFields fields, Readable room field.2) :
    Readable (room + 1) (nulled (.object fields)) := .object each

theorem BranchOutcome.readable_nulled (o : BranchOutcome) :
    Readable (room + 1) o.json.nulled := by
  apply readable_nulled_fields
  simp only [nulledFields, nulled, List.forall_mem_cons]
  exact ⟨readable_word _, readable_word _, readable_word _, List.forall_mem_nil _⟩

theorem CallChain.readable_nulled (o : CallChain) : Readable (room + 1) o.json.nulled := by
  apply readable_nulled_fields
  simp only [nulledFields, nulled, List.forall_mem_cons]
  exact ⟨readable_word _, readable_word _, readable_word _, List.forall_mem_nil _⟩

theorem VarianceOutcome.readable_nulled {o : VarianceOutcome} (few : o.samples < UInt64.size) :
    Readable (room + 1) o.json.nulled := by
  apply readable_nulled_fields
  simp only [nulledFields, List.forall_mem_cons]
  exact ⟨readable_natural few, readable_nulled_real _, readable_nulled_real _,
    List.forall_mem_nil _⟩

theorem GridOutcome.readable_nulled (o : GridOutcome) : Readable (room + 1) o.json.nulled := by
  apply readable_nulled_fields
  simp only [nulledFields, nulled, List.forall_mem_cons]
  exact ⟨readable_natural (UInt64.toNat_lt _), readable_natural (UInt64.toNat_lt _),
    readable_word _, List.forall_mem_nil _⟩

theorem ScaleOutcome.readable_nulled (o : ScaleOutcome) : Readable (room + 1) o.json.nulled := by
  apply readable_nulled_fields
  simp only [nulledFields, List.forall_mem_cons]
  exact ⟨.text _, readable_nulled_real _, readable_nulled_real _, .bool _, List.forall_mem_nil _⟩

theorem Report.readable_nulled {r : Report} (few : r.variance.samples < UInt64.size) :
    Readable (room + 3) r.json.nulled := by
  have scaled : Readable (room + 2) (nulled (.array (r.scaled.map ScaleOutcome.json))) := by
    rw [nulled, nulledItems_eq]
    refine .array fun item mem => ?_
    rw [List.map_map] at mem
    obtain ⟨o, -, rfl⟩ := List.mem_map.mp mem
    exact o.readable_nulled
  apply readable_nulled_fields
  simp only [nulledFields, List.forall_mem_cons]
  exact ⟨r.branch.readable_nulled, r.chain.readable_nulled,
    VarianceOutcome.readable_nulled few, r.grid.readable_nulled, scaled, List.forall_mem_nil _⟩

end Readable

/-- The written forms of a report read back exactly when all its reals are finite. -/
theorem Report.ofText?_eq {r : Report} (few : r.variance.samples < UInt64.size) {text : String}
    (written : text = r.json.compact ∨ ∃ depth, text = r.json.indented depth) :
    ofText? text = if ∀ x ∈ r.reals, x.isFinite then some r else none := by
  have readable : Readable depthLimit r.json.nulled := Report.readable_nulled few
  have read : Json.read? text = some r.json.nulled := by
    rcases written with rfl | ⟨depth, rfl⟩
    · rw [← compact_nulled]
      exact read?_compact readable
    · rw [← indented_nulled]
      exact read?_indented readable depth
  rw [ofText?, read, Option.bind_some, ofJson?_nulled few]

end CallStudy
