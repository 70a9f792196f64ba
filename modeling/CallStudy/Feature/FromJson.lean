import CallStudy.Feature.Table

/-!
Reading a row from a JSON value: an object that has all columns, in any order and perhaps among
other fields, or an array of the values of exactly the columns.
-/

namespace CallStudy

namespace Json

/-- The value of a field. -/
def field? (name : String) : Json → Option Json
  | object fields => fields.lookup name
  | _ => none

def text? : Json → Option String
  | text s => some s
  | _ => none

/-- An integer below `bound`. -/
def naturalBelow? (bound : Nat) : Json → Option Nat
  | integer n => if 0 ≤ n ∧ n < bound then some n.toNat else none
  | _ => none

theorem naturalBelow?_integer {bound n : Nat} (small : n < bound) :
    naturalBelow? bound (integer n) = some n := by
  rw [naturalBelow?, if_pos ⟨by omega, by omega⟩]
  rfl

end Json

namespace FeatureRow

/-- The row of some values, one for every column. -/
def ofValues? : List Json → Option FeatureRow
  | [name, file, complexity, parameters, locals, statements, tokens, complexReturn, generic,
      calls] => do
    return {
      functionName := ← name.text?
      fileName := ← file.text?
      cyclomaticComplexity := ← complexity.naturalBelow? UInt32.size
      parameterCount := ← parameters.naturalBelow? UInt32.size
      localVariableCount := ← locals.naturalBelow? UInt32.size
      statementCount := ← statements.naturalBelow? UInt32.size
      tokenCount := ← tokens.naturalBelow? UInt32.size
      isComplexReturn := ← complexReturn.naturalBelow? UInt8.size
      isGeneric := ← generic.naturalBelow? UInt8.size
      callSiteCount := ← calls.naturalBelow? UInt32.size }
  | _ => none

def ofJson? : Json → Option FeatureRow
  | .array values => ofValues? values
  | value => (columns.mapM value.field?).bind ofValues?

/-- The rows in an array. -/
def rowsOfJson? : Json → Option (List FeatureRow)
  | .array rows => rows.mapM ofJson?
  | _ => none

end FeatureRow
end CallStudy
