import CallStudy.Feature.FromJson
import CallStudy.Proofs.Feature.Table
import CallStudy.Proofs.Text.Json

/-!
The feature table as lines of JSON. No line has a break inside, so the breaks of the text are the
ends of its rows, and each line reads back as its row.
-/

set_option autoImplicit false

namespace CallStudy.FeatureRow

/-- A row with flags of 8 bits and other numbers of 32 bits. -/
structure Fits (r : FeatureRow) : Prop where
  cyclomaticComplexity : r.cyclomaticComplexity < UInt32.size
  parameterCount : r.parameterCount < UInt32.size
  localVariableCount : r.localVariableCount < UInt32.size
  statementCount : r.statementCount < UInt32.size
  tokenCount : r.tokenCount < UInt32.size
  isComplexReturn : r.isComplexReturn < UInt8.size
  isGeneric : r.isGeneric < UInt8.size
  callSiteCount : r.callSiteCount < UInt32.size

/-- The row of a line. -/
def ofLine? (line : String) : Option FeatureRow :=
  ((Json.read? line).bind (Json.members? columns)).bind ofValues?

/-- The values of the columns. -/
def values (r : FeatureRow) : List Json :=
  r.texts.map .text ++ r.numbers.map fun n => .integer n

theorem lt_of_mem_numbers {r : FeatureRow} (fits : r.Fits) : ∀ n ∈ r.numbers, n < UInt32.size := by
  have byte : UInt8.size ≤ UInt32.size := by decide
  simp only [numbers, List.forall_mem_cons]
  exact ⟨fits.cyclomaticComplexity, fits.parameterCount, fits.localVariableCount,
    fits.statementCount, fits.tokenCount, fits.isComplexReturn.trans_le byte,
    fits.isGeneric.trans_le byte, fits.callSiteCount, by simp⟩

theorem readable_json {r : FeatureRow} (fits : r.Fits) :
    Json.Readable Json.depthLimit r.json := by
  have values : ∀ v ∈ r.values, Json.Readable (Json.depthLimit - 1) v := by
    intro v mem
    rcases List.mem_append.mp mem with name | number
    · obtain ⟨s, -, rfl⟩ := List.mem_map.mp name
      exact .text s
    · obtain ⟨n, small, rfl⟩ := List.mem_map.mp number
      have bound : n < 2 ^ 32 := lt_of_mem_numbers fits n small
      exact .integer (by omega) (by omega)
  exact .object fun field mem => values _ (List.of_mem_zip mem).2

theorem ofValues?_values {r : FeatureRow} (fits : r.Fits) : ofValues? r.values = some r := by
  obtain ⟨complexity, parameters, locals, statements, tokens, complexReturn, generic, calls⟩ := fits
  simp only [values, texts, numbers, List.map_cons, List.map_nil, List.cons_append,
    List.nil_append, ofValues?, Json.text?, Json.naturalBelow?_integer complexity,
    Json.naturalBelow?_integer parameters, Json.naturalBelow?_integer locals,
    Json.naturalBelow?_integer statements, Json.naturalBelow?_integer tokens,
    Json.naturalBelow?_integer complexReturn, Json.naturalBelow?_integer generic,
    Json.naturalBelow?_integer calls]
  rfl

theorem members?_json (r : FeatureRow) : r.json.members? columns = some r.values :=
  Json.members?_eq rfl (by decide) rfl

theorem ofLine?_compact {r : FeatureRow} (fits : r.Fits) : ofLine? r.json.compact = some r := by
  have members := members?_json r
  have row := ofValues?_values fits
  rw [ofLine?, Json.read?_compact (readable_json fits), Option.bind_some, members,
    Option.bind_some, row]

theorem table_json (rows : List FeatureRow) :
    table .json rows = String.join ((rows.map fun r => r.json.compact).map (· ++ "\n")) := by
  rw [List.map_map]
  rfl

/-- Lines without breaks inside have as many breaks as there are lines. -/
theorem count_join {lines : List String} (unbroken : ∀ line ∈ lines, '\n' ∉ line.toList) :
    (String.join (lines.map (· ++ "\n"))).toList.count '\n' = lines.length := by
  induction lines with
  | nil => rfl
  | cons line rest ih =>
    obtain ⟨first, others⟩ := List.forall_mem_cons.mp unbroken
    have inside : line.toList.count '\n' = 0 := List.count_eq_zero.mpr first
    have ends : "\n".toList.count '\n' = 1 := by decide
    rw [List.map_cons, String.join_cons, String.toList_append, String.toList_append,
      List.count_append, List.count_append, inside, ends, ih others, List.length_cons]
    omega

/-- A table of JSON lines has a line feed for each row, behind it, and its lines read back as the
rows in their order: the same rows that the records of the comma-separated table hold. -/
theorem table_json_reads_back (rows : List FeatureRow) (fit : ∀ r ∈ rows, r.Fits) :
    (table .json rows).toList.count '\n' = rows.length ∧
    ∃ lines : List String,
      table .json rows = String.join (lines.map (· ++ "\n")) ∧
      (∀ line ∈ lines, '\n' ∉ line.toList) ∧
      lines.mapM ofLine? = some rows ∧
      Csv.read? (table .csv rows).toList = (lines.mapM ofLine?).map fun read =>
        columns.map String.toList :: read.map fields := by
  have unbroken : ∀ line ∈ rows.map fun r => r.json.compact, '\n' ∉ line.toList := by
    intro line mem
    obtain ⟨r, row, rfl⟩ := List.mem_map.mp mem
    exact Json.not_mem_compact (readable_json (fit r row))
  have decoded : (rows.map fun r => r.json.compact).mapM ofLine? = some rows := by
    have each : ∀ r ∈ rows, ofLine? r.json.compact = some (id r) :=
      fun r mem => ofLine?_compact (fit r mem)
    rw [Json.mapM_map_eq_some each, List.map_id]
  have count := count_join unbroken
  rw [← table_json, List.length_map] at count
  refine ⟨count, rows.map fun r => r.json.compact, table_json rows, unbroken, decoded, ?_⟩
  rw [decoded, Option.map_some]
  exact read?_csv rows

/-- Quotes, a backslash, breaks and a control character in the names of a row, and the greatest
numbers. -/
theorem table_json_reads_back_of_names :
    (table .json [⟨"a\"b\\c\n", "\r\t\x01漢", 4294967295, 0, 1, 2, 3, 255, 0, 4⟩,
      default]).toList.count '\n' = 2 :=
  (table_json_reads_back _ (by
    simp only [List.forall_mem_cons]
    refine ⟨⟨?_, ?_, ?_, ?_, ?_, ?_, ?_, ?_⟩, ⟨?_, ?_, ?_, ?_, ?_, ?_, ?_, ?_⟩, by simp⟩
    all_goals decide)).1

end CallStudy.FeatureRow
