/-!
Comma-separated records, one a line. A field that holds a comma, a quote or a line break is
enclosed in quotes, and a quote in it is written twice.
-/

namespace CallStudy.Csv

def isSpecial (c : Char) : Bool := c = ',' || c = '"' || c = '\n' || c = '\r'

/-- Writes every quote twice. -/
def doubled (text : List Char) : List Char :=
  text.flatMap fun c => if c = '"' then ['"', '"'] else [c]

def field (text : List Char) : List Char :=
  if text.any isSpecial then '"' :: doubled text ++ ['"'] else text

/-- Fields with commas between them. -/
def fields : List (List Char) → List Char
  | [] => []
  | [text] => field text
  | text :: rest => field text ++ ',' :: fields rest

def record (texts : List (List Char)) : List Char := fields texts ++ ['\n']

def records (rows : List (List (List Char))) : List Char := rows.flatMap record

end CallStudy.Csv
