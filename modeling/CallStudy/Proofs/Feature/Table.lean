import CallStudy.Feature.Table
import CallStudy.Proofs.Text.Csv
import Mathlib

/-!
What the feature table tells of its rows.
-/

set_option autoImplicit false

namespace CallStudy.FeatureRow

/-- A row is known from its fields. -/
theorem fields_injective : Function.Injective fields := by
  intro r s same
  have names : r.texts.map String.toList = s.texts.map String.toList :=
    List.append_inj_left same rfl
  have numerals : r.numbers.map (fun n => (Nat.repr n).toList) =
      s.numbers.map fun n => (Nat.repr n).toList := List.append_inj_right same rfl
  have texts : r.texts = s.texts :=
    List.map_injective_iff.mpr (fun _ _ => String.toList_injective) names
  have numbers : r.numbers = s.numbers := by
    refine List.map_injective_iff.mpr (fun n m numeral => ?_) numerals
    exact Nat.repr_injective (String.toList_injective numeral)
  cases r
  cases s
  simp only [FeatureRow.texts, FeatureRow.numbers, List.cons.injEq, and_true] at texts numbers
  simp only [texts, numbers]

theorem read?_csv (rows : List FeatureRow) :
    Csv.read? (csv rows).toList = some (columns.map String.toList :: rows.map fields) := by
  rw [csv, String.toList_ofList]
  refine Csv.read?_records (List.forall_mem_cons.mpr ⟨List.cons_ne_nil _ _, ?_⟩)
  intro row mem
  obtain ⟨r, -, rfl⟩ := List.mem_map.mp mem
  exact List.cons_ne_nil _ _

/-- A table reads back as the ten columns and one record for each row, with its names and the
decimal numerals of its numbers. So different rows have different tables. -/
theorem table_csv_reads_back :
    columns.length = 10 ∧
    (∀ rows : List FeatureRow, Csv.read? (table .csv rows).toList =
      some (columns.map String.toList :: rows.map fun r =>
        [r.functionName.toList, r.fileName.toList] ++
          [r.cyclomaticComplexity, r.parameterCount, r.localVariableCount, r.statementCount,
            r.tokenCount, r.isComplexReturn, r.isGeneric, r.callSiteCount].map
              fun n => (Nat.repr n).toList)) ∧
    Function.Injective (table .csv) := by
  refine ⟨rfl, read?_csv, fun rows others same => ?_⟩
  have read : Csv.read? (csv rows).toList = Csv.read? (csv others).toList := by
    rw [show csv rows = csv others from same]
  rw [read?_csv, read?_csv, Option.some.injEq, List.cons.injEq] at read
  exact List.map_injective_iff.mpr fields_injective read.2

end CallStudy.FeatureRow
