import CallStudy.Number.Numeral
import CallStudy.Number.Word
import CallStudy.Toml.Value

/-!
Reading numbers, dates and truth values of a TOML document. A reader takes what it knows off the
front of a text; where several would do, the first that can read something wins.
-/

namespace CallStudy.Toml

/-- Takes a value off the front of a text. -/
abbrev Reader (α : Type) := List Char → Option (α × List Char)

namespace Reader

/-- Takes `word`. -/
def word : List Char → Reader Unit
  | [], text => some ((), text)
  | c :: rest, d :: text => if c = d then word rest text else none
  | _ :: _, [] => none

/-- Takes exactly `n` decimal digits. -/
def digits : Nat → Reader (List Char)
  | 0, text => some ([], text)
  | n + 1, c :: text =>
    if c.isDigit then (digits n text).map fun (ds, text) => (c :: ds, text) else none
  | _ + 1, [] => none

/-- Takes digits of a class, at least one, with single underscores between them, which are left
out. -/
def grouped (isDigit : Char → Bool) : Reader (List Char)
  | [] => none
  | c :: text => if isDigit c then some (more [c] text) else none
where
  more (found : List Char) : List Char → List Char × List Char
  | '_' :: c :: text => if isDigit c then more (c :: found) text else (found.reverse, '_' :: c :: text)
  | c :: text => if isDigit c then more (c :: found) text else (found.reverse, c :: text)
  | [] => (found.reverse, [])

/-- Takes a sign, if there is one. -/
def sign : List Char → List Char × List Char
  | '+' :: text => (['+'], text)
  | '-' :: text => (['-'], text)
  | text => ([], text)

/-- A decimal integer with its sign: zero alone, or digits that do not start with zero. -/
def decimal : Reader (List Char) := fun text =>
  let (s, text) := sign text
  match text with
  | '0' :: text => some (s ++ ['0'], text)
  | text => (grouped Char.isDigit text).map fun (ds, text) => (s ++ ds, text)

/-- The exponent of a real. -/
def exponent : Reader (List Char)
  | c :: text =>
    if c = 'e' ∨ c = 'E' then
      let (s, text) := sign text
      (grouped Char.isDigit text).map fun (ds, text) => ('e' :: s ++ ds, text)
    else none
  | [] => none

/-- What makes a number a real: a fraction, an exponent or both. -/
def fraction : Reader (List Char)
  | '.' :: text => do
    let (ds, text) ← grouped Char.isDigit text
    match exponent text with
    | some (e, text) => some ('.' :: ds ++ e, text)
    | none => some ('.' :: ds, text)
  | text => exponent text

/-- The words for infinity and for what is no number, with a sign. -/
def special : Reader Float := fun text =>
  let (s, text) := sign text
  match text with
  | 'i' :: 'n' :: 'f' :: text => (Numeral.double? (s ++ ['i', 'n', 'f'])).map (·, text)
  | 'n' :: 'a' :: 'n' :: text => (Numeral.double? (s ++ ['n', 'a', 'n'])).map (·, text)
  | _ => none

def infinite : Float := .ofModel (.pack (.infinity .positive))

/-- A real. Digits that exceed every finite number are refused, unless they are negative. -/
def real : Reader Float := fun text =>
  match decimal text with
  | some (whole, rest) =>
    match fraction rest with
    | some (more, rest) =>
      (Numeral.double? (whole ++ more)).bind fun x =>
        if x == infinite then none else some (x, rest)
    | none => special text
  | none => special text

def isOctal (c : Char) : Bool := '0' ≤ c && c ≤ '7'

def isBinary (c : Char) : Bool := c = '0' || c = '1'

def isHexadecimal (c : Char) : Bool :=
  c.isDigit || ('a' ≤ c && c ≤ 'f') || ('A' ≤ c && c ≤ 'F')

def hexadecimalValue (c : Char) : Nat :=
  if c.isDigit then c.toNat - 48 else if 'a' ≤ c then c.toNat - 87 else c.toNat - 55

/-- The value of digits to a base. -/
def ofDigits (base : Nat) (digits : List Char) : Nat :=
  digits.foldl (fun n c => base * n + hexadecimalValue c) 0

/-- A number without a sign to another base than ten. -/
def based (base : Nat) (isDigit : Char → Bool) : Reader Int := fun text =>
  (grouped isDigit text).map fun (ds, text) => (ofDigits base ds, text)

/-- An integer of any size. -/
def unbounded : Reader Int
  | '0' :: 'x' :: text => based 16 isHexadecimal text
  | '0' :: 'o' :: text => based 8 isOctal text
  | '0' :: 'b' :: text => based 2 isBinary text
  | text => (decimal text).bind fun (ds, text) => (Numeral.integer? ds).map (·, text)

/-- An integer that fits in a word. -/
def integer : Reader Int := fun text =>
  (unbounded text).filter fun (n, _) => (Word.ofInt? n).isSome

/-- A number of two digits from `low` to `high`. -/
def pair (low high : Nat) : Reader Nat := fun text =>
  ((digits 2 text).map fun (ds, text) => (Numeral.ofDigits ds, text)).filter
    fun (n, _) => low ≤ n ∧ n ≤ high

def isLeap (year : Nat) : Bool := year % 4 = 0 && (year % 100 ≠ 0 || year % 400 = 0)

def daysIn (year month : Nat) : Nat :=
  if month = 2 then if isLeap year then 29 else 28
  else if month = 4 ∨ month = 6 ∨ month = 9 ∨ month = 11 then 30
  else 31

def date : Reader Unit := fun text => do
  let (year, text) ← digits 4 text
  let (_, text) ← word ['-'] text
  let (month, text) ← pair 1 12 text
  let (_, text) ← word ['-'] text
  let (_, text) ← pair 1 (daysIn (Numeral.ofDigits year) month) text
  return ((), text)

def time : Reader Unit := fun text => do
  let (_, text) ← pair 0 23 text
  let (_, text) ← word [':'] text
  let (_, text) ← pair 0 59 text
  let (_, text) ← word [':'] text
  let (_, text) ← pair 0 60 text
  match text with
  | '.' :: c :: rest => if c.isDigit then return ((), rest.dropWhile Char.isDigit) else return ((), text)
  | _ => return ((), text)

/-- The distance from universal time. -/
def offset : Reader Unit
  | [] => none
  | c :: text =>
    if c = 'Z' ∨ c = 'z' then some ((), text)
    else if c = '+' ∨ c = '-' then do
      let (_, text) ← pair 0 23 text
      let (_, text) ← word [':'] text
      let (_, text) ← pair 0 59 text
      return ((), text)
    else none

/-- The time behind a date, if there is one. -/
def timeOfDay (text : List Char) : List Char :=
  match text with
  | c :: rest =>
    if c = 'T' ∨ c = 't' ∨ c = ' ' then
      match time rest with
      | some (_, rest) =>
        match offset rest with
        | some (_, rest) => rest
        | none => rest
      | none => text
    else text
  | [] => text

/-- A date, a time or both. -/
def datetime : Reader Unit := fun text =>
  match date text with
  | some (_, text) => some ((), timeOfDay text)
  | none => time text

def boolean : Reader Bool
  | 't' :: 'r' :: 'u' :: 'e' :: text => some (true, text)
  | 'f' :: 'a' :: 'l' :: 's' :: 'e' :: text => some (false, text)
  | _ => none

/-- A value other than a text, an array or a table. -/
def scalar : Reader Value := fun text =>
  match datetime text with
  | some (_, text) => some (.datetime, text)
  | none =>
    match real text with
    | some (x, text) => some (.real x, text)
    | none =>
      match integer text with
      | some (n, text) => some (.integer n, text)
      | none => (boolean text).map fun (b, text) => (.boolean b, text)

end Reader
end CallStudy.Toml
