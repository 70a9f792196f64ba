import CallStudy.Feature.Row
import CallStudy.Text.Csv
import CallStudy.Text.Json

/-!
The feature table as text: comma-separated with a heading, or one JSON object a line.
-/

namespace CallStudy

inductive TableFormat where
  | csv
  | json
  deriving Repr, DecidableEq, Inhabited

namespace TableFormat

def name : TableFormat → String
  | .csv => "csv"
  | .json => "json"

def ofName? : String → Option TableFormat
  | "csv" => some .csv
  | "json" => some .json
  | _ => none

end TableFormat

namespace FeatureRow

/-- The fields of a row as text. -/
def fields (r : FeatureRow) : List (List Char) :=
  r.texts.map String.toList ++ r.numbers.map fun n => (Nat.repr n).toList

def csv (rows : List FeatureRow) : String :=
  String.ofList (Csv.records (columns.map String.toList :: rows.map fields))

def json (r : FeatureRow) : Json :=
  .object (columns.zip (r.texts.map .text ++ r.numbers.map fun n => .integer n))

def jsonLines (rows : List FeatureRow) : String :=
  String.join (rows.map fun r => r.json.compact ++ "\n")

/-- The table in a format. -/
def table (format : TableFormat) (rows : List FeatureRow) : String :=
  match format with
  | .csv => csv rows
  | .json => jsonLines rows

end FeatureRow
end CallStudy
