import CallStudy.Number.Decimal

/-!
Reading numbers from text. An integer is a sign and digits; a real may have a point and an
exponent, or be one of the words for infinity and for what is no number, in any case.
-/

namespace CallStudy.Numeral

open Float.Model (UnpackedFloat Format)

def digitValue (c : Char) : Nat := c.toNat - '0'.toNat

/-- The value of digits. -/
def ofDigits (digits : List Char) : Nat := digits.foldl (fun n c => 10 * n + digitValue c) 0

/-- The value of at least one digit and nothing else. -/
def natural? (text : List Char) : Option Nat :=
  if text.isEmpty || !text.all Char.isDigit then none else some (ofDigits text)

/-- Digits, perhaps after a plus. -/
def unsigned? : List Char → Option Nat
  | '+' :: digits => natural? digits
  | digits => natural? digits

/-- Digits, perhaps after a sign. -/
def integer? : List Char → Option Int
  | '+' :: digits => (natural? digits).map Int.ofNat
  | '-' :: digits => (natural? digits).map fun n => -(n : Int)
  | digits => (natural? digits).map Int.ofNat

/-- An integer from `low` to `high`. -/
def integerIn? (low high : Int) (text : List Char) : Option Int :=
  (integer? text).filter fun n => low ≤ n ∧ n ≤ high

/-- The exponent that a text ends in. -/
def exponent? : List Char → Option Int
  | [] => some 0
  | c :: text => if c = 'e' ∨ c = 'E' then integer? text else none

/-- Digits with at most one point and perhaps an exponent. -/
def decimal? (text : List Char) : Option Decimal :=
  let (whole, rest) := text.span Char.isDigit
  let (fraction, rest) :=
    match rest with
    | '.' :: rest => rest.span Char.isDigit
    | rest => ([], rest)
  if whole.isEmpty && fraction.isEmpty then none
  else
    (exponent? rest).map fun e => ⟨ofDigits (whole ++ fraction), e - fraction.length⟩

/-- A real without a sign, rounded to a format. -/
def magnitude? (format : Format) (text : List Char) : Option UnpackedFloat :=
  let word := text.map Char.toLower
  if word = "inf".toList ∨ word = "infinity".toList then some (.infinity .positive)
  else if word = "nan".toList then some .notANumber
  else (decimal? text).map fun d => UnpackedFloat.ofScientific format d.digits d.exponent

/-- A real, perhaps with a sign. -/
def real? (format : Format) : List Char → Option UnpackedFloat
  | '+' :: text => magnitude? format text
  | '-' :: text => (magnitude? format text).map UnpackedFloat.neg
  | text => magnitude? format text

def double? (text : List Char) : Option Float :=
  (real? .binary64 text).map fun x => .ofModel (.pack x)

def single? (text : List Char) : Option Float32 :=
  (real? .binary32 text).map fun x => .ofModel (.pack x)

end CallStudy.Numeral
