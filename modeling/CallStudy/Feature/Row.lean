import CallStudy.Source.Metrics

/-!
A row of the feature table: what is measured of one function. All columns but the last depend on
the function alone; the last counts its calls in all functions of the same file.
-/

namespace CallStudy

structure FeatureRow where
  functionName : String
  fileName : String
  cyclomaticComplexity : Nat
  parameterCount : Nat
  localVariableCount : Nat
  statementCount : Nat
  tokenCount : Nat
  /-- One for a complex return type, else zero. -/
  isComplexReturn : Nat
  /-- One for a generic function, else zero. -/
  isGeneric : Nat
  callSiteCount : Nat
  deriving Repr, DecidableEq, Inhabited

namespace FeatureRow

/-- The names of the columns in their order. -/
def columns : List String :=
  ["function_name", "file_name", "cyclomatic_complexity", "parameter_count",
    "local_variable_count", "body_size_stmts", "token_count", "is_complex_return", "is_generic",
    "call_site_count"]

/-- The columns that hold names. -/
def texts (r : FeatureRow) : List String := [r.functionName, r.fileName]

/-- The columns that hold numbers. -/
def numbers (r : FeatureRow) : List Nat :=
  [r.cyclomaticComplexity, r.parameterCount, r.localVariableCount, r.statementCount,
    r.tokenCount, r.isComplexReturn, r.isGeneric, r.callSiteCount]

/-- The row of `f`, whose calls are counted in `functions`. -/
def ofFunction (fileName : String) (functions : List Source.Function) (f : Source.Function) :
    FeatureRow where
  functionName := f.name
  fileName := fileName
  cyclomaticComplexity := f.cyclomaticComplexity
  parameterCount := f.parameterCount
  localVariableCount := f.localVariableCount
  statementCount := f.statementCount
  tokenCount := f.tokenCount
  isComplexReturn := f.isComplexReturn.toNat
  isGeneric := f.isGeneric.toNat
  callSiteCount := (functions.map (Source.Function.callsOf f.bareName)).foldr (· + ·) 0

/-- The rows of the functions of one file. -/
def ofFunctions (fileName : String) (functions : List Source.Function) : List FeatureRow :=
  functions.map (ofFunction fileName functions)

/-- The rows of a source text, or `none` when it is no source file. -/
def ofSource? (fileName source : String) : Option (List FeatureRow) :=
  (Source.Function.ofSource? source).map (ofFunctions fileName)

end FeatureRow
end CallStudy
