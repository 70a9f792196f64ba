import CallStudy.Source.CharClass

/-!
Literals. Every scanner takes the remaining characters and answers what is left after the literal,
or `none` when no literal of its kind starts here. A suffix, such as the `u8` of `1u8`, belongs to
the literal.
-/

namespace CallStudy.Source.Literal

open CharClass

/-- A name without the raw mark, and what follows it. -/
def name? : List Char → Option (List Char × List Char)
  | [] => none
  | c :: rest =>
    if isIdentStart c then
      some (c :: rest.takeWhile isIdentContinue, rest.dropWhile isIdentContinue)
    else none

def dropSuffix (s : List Char) : List Char :=
  match name? s with
  | some (_, rest) => rest
  | none => s

/-- What a quoted literal may hold: any text, ASCII bytes, or text without a zero character. -/
inductive Content where
  | text
  | bytes
  | nonzero
  deriving Repr, DecidableEq

def Content.admits : Content → Char → Bool
  | text, _ => true
  | bytes, c => c.toNat < 128
  | nonzero, c => c.toNat != 0

def hexValue? (c : Char) : Option Nat :=
  if '0' ≤ c ∧ c ≤ '9' then some (c.toNat - '0'.toNat)
  else if 'a' ≤ c ∧ c ≤ 'f' then some (10 + c.toNat - 'a'.toNat)
  else if 'A' ≤ c ∧ c ≤ 'F' then some (10 + c.toNat - 'A'.toNat)
  else none

/-- The two digits of `\x`: below 128 in text, any byte in bytes, not zero where zero is barred. -/
def hexEscape (content : Content) : List Char → Option (List Char)
  | a :: b :: rest =>
    match hexValue? a, hexValue? b with
    | some x, some y =>
      let ok : Bool := match content with
        | .text => x < 8
        | .bytes => true
        | .nonzero => x + y != 0
      if ok then some rest else none
    | _, _ => none
  | _ => none

def isScalarValue (n : Nat) : Bool :=
  n < 0xd800 || (0xdfff < n && n < 0x110000)

/-- The digits of a `\u` escape up to its closing brace: the value and the rest. -/
def unicodeDigits (value count : Nat) : List Char → Option (Nat × List Char)
  | [] => none
  | c :: rest =>
    match hexValue? c with
    | some d => if count = 6 then none else unicodeDigits (16 * value + d) (count + 1) rest
    | none =>
      if count = 0 then none
      else if c = '_' then unicodeDigits value count rest
      else if c = '}' ∧ isScalarValue value then some (value, rest)
      else none

def unicodeEscape (content : Content) : List Char → Option (List Char)
  | '{' :: rest =>
    match unicodeDigits 0 0 rest with
    | some (value, rest) => if content = .nonzero ∧ value = 0 then none else some rest
    | none => none
  | _ => none

/-- The escapes that stand for one character, given what follows the backslash. -/
def charEscape (content : Content) : List Char → Option (List Char)
  | 'x' :: rest => hexEscape content rest
  | 'u' :: rest => if content = .bytes then none else unicodeEscape content rest
  | '0' :: rest => if content = .nonzero then none else some rest
  | c :: rest => if c ∈ ['n', 'r', 't', '\\', '\'', '"'] then some rest else none
  | [] => none

/-- The blank run after a backslash at a line's end; `last` is the line break just read. A
carriage return must be followed by a line feed, and something must follow the run. -/
def lineContinuation : Nat → Char → List Char → Option (List Char)
  | 0, _, _ => none
  | fuel + 1, last, s =>
    let next := match last, s with
      | '\r', '\n' :: rest => some rest
      | '\r', _ => none
      | _, s => some s
    match next with
    | none => none
    | some [] => none
    | some (c :: rest) =>
      if c ∈ [' ', '\t', '\n', '\r'] then lineContinuation fuel c rest else some (c :: rest)

/-- The inside of a quoted literal from after the opening quote. -/
def quotedBody (content : Content) : Nat → List Char → Option (List Char)
  | 0, _ => none
  | fuel + 1, s =>
    match s with
    | [] => none
    | '"' :: rest => some (dropSuffix rest)
    | '\r' :: '\n' :: rest => quotedBody content fuel rest
    | '\r' :: _ => none
    | '\\' :: c :: rest =>
      if c = '\n' ∨ c = '\r' then
        match lineContinuation (rest.length + 1) c rest with
        | some rest => quotedBody content fuel rest
        | none => none
      else
        match charEscape content (c :: rest) with
        | some rest => quotedBody content fuel rest
        | none => none
    | ['\\'] => none
    | c :: rest => if content.admits c then quotedBody content fuel rest else none

def quoted (content : Content) (s : List Char) : Option (List Char) :=
  quotedBody content (s.length + 1) s

/-- The inside of a raw literal: it ends at a quote followed by as many `#` as opened it. -/
def rawBody (content : Content) (hashes : Nat) : List Char → Option (List Char)
  | [] => none
  | '"' :: rest =>
    if (List.replicate hashes '#').isPrefixOf rest then some (dropSuffix (rest.drop hashes))
    else rawBody content hashes rest
  | '\r' :: '\n' :: rest => rawBody content hashes rest
  | '\r' :: _ => none
  | c :: rest => if content.admits c then rawBody content hashes rest else none

/-- A raw literal from after its letters: at most 255 marks, then the quote. -/
def raw (content : Content) (s : List Char) : Option (List Char) :=
  let hashes := (s.takeWhile (· == '#')).length
  match s.drop hashes with
  | '"' :: rest => if hashes ≤ 255 then rawBody content hashes rest else none
  | _ => none

/-- One character or escape and the closing mark, from after the opening one. -/
def singleBody (content : Content) (s : List Char) : Option (List Char) :=
  let afterChar := match s with
    | '\\' :: rest => charEscape content rest
    | c :: rest => if content.admits c then some rest else none
    | [] => none
  match afterChar with
  | some ('\'' :: rest) => some (dropSuffix rest)
  | _ => none

def isDigit (c : Char) : Bool := '0' ≤ c && c ≤ '9'

/-- Digits, underscores and at most one point: the rest, whether a point was read, and the text
from the exponent letter on, if the run ended at one. A point before another point or a name is
no part of a number. -/
def mantissa : List Char → Bool → Option (List Char × Bool × Bool)
  | [], hasDot => some ([], hasDot, false)
  | c :: rest, hasDot =>
    if isDigit c || c == '_' then mantissa rest hasDot
    else if c = '.' then
      if hasDot then some (c :: rest, hasDot, false)
      else
        match rest with
        | next :: _ => if next = '.' || isIdentStart next then none else mantissa rest true
        | [] => some ([], true, false)
    else some (c :: rest, hasDot, c == 'e' || c == 'E')

/-- The sign and digits of an exponent; `none` when it has no digit. -/
def exponent : List Char → Bool → Bool → Option (List Char)
  | [], _, hasDigit => if hasDigit then some [] else none
  | c :: rest, hasSign, hasDigit =>
    if c = '+' ∨ c = '-' then
      if hasDigit then some (c :: rest)
      else if hasSign then none
      else exponent rest true false
    else if isDigit c then exponent rest hasSign true
    else if c = '_' then exponent rest hasSign hasDigit
    else if hasDigit then some (c :: rest) else none

/-- A number's end: an attached name is its suffix, and no name character may follow that. -/
def numberEnd (s : List Char) : Option (List Char) :=
  match dropSuffix s with
  | c :: rest => if isIdentContinue c then none else some (c :: rest)
  | [] => some []

/-- A number with a point or an exponent. An exponent without digits is left to the suffix when
a point was read. -/
def float (s : List Char) : Option (List Char) :=
  match s with
  | c :: rest =>
    if isDigit c then
      match mantissa rest false with
      | none => none
      | some (rest, hasDot, hasExponent) =>
        if hasExponent then
          match exponent (rest.drop 1) false false with
          | some rest => numberEnd rest
          | none => if hasDot then numberEnd rest else none
        else if hasDot then numberEnd rest else none
    else none
  | [] => none

/-- Digits of a base with underscores; a digit too great for the base is refused, and in base
ten no underscore may come first. -/
def baseDigits (base : Nat) : List Char → Bool → Option (List Char)
  | [], empty => if empty then none else some []
  | c :: rest, empty =>
    if isDigit c then
      if base ≤ c.toNat - '0'.toNat then none else baseDigits base rest false
    else if c = '_' then
      if empty ∧ base = 10 then none else baseDigits base rest empty
    else
      match hexValue? c with
      | some d =>
        if d < base then baseDigits base rest false
        else if empty then none else some (c :: rest)
      | none => if empty then none else some (c :: rest)

def integer (s : List Char) : Option (List Char) :=
  let digits := match s with
    | '0' :: 'x' :: rest => baseDigits 16 rest true
    | '0' :: 'o' :: rest => baseDigits 8 rest true
    | '0' :: 'b' :: rest => baseDigits 2 rest true
    | s => baseDigits 10 s true
  match digits with
  | some rest => numberEnd rest
  | none => none

/-- What is left after a literal of any kind. -/
def scan (s : List Char) : Option (List Char) :=
  let quotedForm := match s with
    | '"' :: rest => quoted .text rest
    | 'r' :: rest => raw .text rest
    | 'b' :: '"' :: rest => quoted .bytes rest
    | 'b' :: 'r' :: rest => raw .bytes rest
    | 'b' :: '\'' :: rest => singleBody .bytes rest
    | 'c' :: '"' :: rest => quoted .nonzero rest
    | 'c' :: 'r' :: rest => raw .nonzero rest
    | '\'' :: rest => singleBody .text rest
    | _ => none
  match quotedForm with
  | some rest => some rest
  | none =>
    match float s with
    | some rest => some rest
    | none => integer s

/-- An integer literal's value and suffix; `none` for every other literal. -/
def integerParts? (text : String) : Option (Nat × String) :=
  let s := text.toList
  let (base, digits) := match s with
    | '0' :: 'x' :: rest => (16, rest)
    | '0' :: 'o' :: rest => (8, rest)
    | '0' :: 'b' :: rest => (2, rest)
    | s => (10, s)
  let rec go (value : Nat) (seen : Bool) : List Char → Option (Nat × String)
    | [] => if seen then some (value, "") else none
    | c :: rest =>
      if c = '_' then go value seen rest
      else if base = 10 ∧ c = '.' then none
      else if base = 10 ∧ (c = 'e' ∨ c = 'E') ∧ startsExponent rest then none
      else
        match (hexValue? c).filter (fun d => isDigit c || (base = 16 && d < 16)) with
        | some d => if d < base then go (base * value + d) true rest else none
        | none => if seen && isIdentStart c then some (value, String.ofList (c :: rest)) else none
  go 0 false digits
where
  /-- Whether the text after an exponent letter has a sign or a digit before anything else. -/
  startsExponent : List Char → Bool
    | [] => false
    | c :: rest => if c = '_' then startsExponent rest else c = '+' || c = '-' || isDigit c

/-- Whether a literal is a number with a point or an exponent. -/
def isFloat (text : String) : Bool :=
  match text.toList with
  | c :: _ => isDigit c && (integerParts? text).isNone
  | [] => false

end CallStudy.Source.Literal
