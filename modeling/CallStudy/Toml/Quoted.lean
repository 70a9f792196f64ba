import CallStudy.Toml.Scalar

/-!
Text in quotes. Between double quotes a backslash starts an escape, between single quotes every
character stands for itself; three quotes let a text span lines. A text is written in the first
style that needs no escapes, plain quotes before triple ones.
-/

namespace CallStudy.Toml

/-- Characters that a document may hold as they are, on one line. -/
def isPlain (c : Char) : Bool := c = '\t' || (32 ≤ c.toNat && c.toNat ≠ 127)

def isBlank (c : Char) : Bool := c = ' ' || c = '\t'

namespace Reader

/-- The character of a code in hexadecimal digits. -/
def ofCode (digits : List Char) : Option Char :=
  if digits.all isHexadecimal && (ofDigits 16 digits).isValidChar then
    some (.ofNat (ofDigits 16 digits))
  else none

/-- The character that a letter behind a backslash stands for. -/
def unescaped : Char → Option Char
  | 'b' => some '\x08'
  | 't' => some '\t'
  | 'n' => some '\n'
  | 'f' => some '\x0c'
  | 'r' => some '\r'
  | '"' => some '"'
  | '\\' => some '\\'
  | _ => none

/-- Puts a character before what was read. -/
def cons (c : Char) : Option (List Char × List Char) → Option (List Char × List Char) :=
  Option.map fun (cs, text) => (c :: cs, text)

/-- A text up to a double quote. -/
def basic : Reader (List Char)
  | [] => none
  | '"' :: text => some ([], text)
  | '\\' :: 'u' :: a :: b :: c :: d :: text =>
    (ofCode [a, b, c, d]).bind fun x => cons x (basic text)
  | '\\' :: 'U' :: a :: b :: c :: d :: e :: f :: g :: h :: text =>
    (ofCode [a, b, c, d, e, f, g, h]).bind fun x => cons x (basic text)
  | '\\' :: c :: text => (unescaped c).bind fun x => cons x (basic text)
  | c :: text => if isPlain c then cons c (basic text) else none

/-- A text up to a single quote. -/
def literal : Reader (List Char)
  | [] => none
  | '\'' :: text => some ([], text)
  | c :: text => if isPlain c then cons c (literal text) else none

/-- Whether a line ends here. -/
def isLineEnd : List Char → Bool
  | '\n' :: _ => true
  | '\r' :: '\n' :: _ => true
  | _ => false

/-- A text up to three double quotes, which may follow two that belong to it. While `joining`, a
line break and blanks after a backslash are left out. -/
def basicLines (joining : Bool) : Reader (List Char)
  | [] => none
  | '"' :: '"' :: '"' :: '"' :: '"' :: text => some (['"', '"'], text)
  | '"' :: '"' :: '"' :: '"' :: text => some (['"'], text)
  | '"' :: '"' :: '"' :: text => some ([], text)
  | '\\' :: 'u' :: a :: b :: c :: d :: text =>
    (ofCode [a, b, c, d]).bind fun x => cons x (basicLines false text)
  | '\\' :: 'U' :: a :: b :: c :: d :: e :: f :: g :: h :: text =>
    (ofCode [a, b, c, d, e, f, g, h]).bind fun x => cons x (basicLines false text)
  | '\\' :: c :: text =>
    if isLineEnd ((c :: text).dropWhile isBlank) then basicLines true (c :: text)
    else (unescaped c).bind fun x => cons x (basicLines false text)
  | '\r' :: '\n' :: text =>
    if joining then basicLines true text else cons '\n' (basicLines false text)
  | '\n' :: text => if joining then basicLines true text else cons '\n' (basicLines false text)
  | c :: text =>
    if joining && isBlank c then basicLines true text
    else if isPlain c then cons c (basicLines false text)
    else none

/-- A text up to three single quotes, which may follow two that belong to it. -/
def literalLines : Reader (List Char)
  | [] => none
  | '\'' :: '\'' :: '\'' :: '\'' :: '\'' :: text => some (['\'', '\''], text)
  | '\'' :: '\'' :: '\'' :: '\'' :: text => some (['\''], text)
  | '\'' :: '\'' :: '\'' :: text => some ([], text)
  | '\r' :: '\n' :: text => cons '\n' (literalLines text)
  | '\n' :: text => cons '\n' (literalLines text)
  | c :: text => if isPlain c then cons c (literalLines text) else none

/-- A line break behind opening quotes does not belong to the text. -/
def dropLineEnd : List Char → List Char
  | '\n' :: text => text
  | '\r' :: '\n' :: text => text
  | text => text

/-- A text in quotes of any kind. -/
def quoted : Reader (List Char)
  | '"' :: '"' :: '"' :: text => basicLines false (dropLineEnd text)
  | '"' :: text => basic text
  | '\'' :: '\'' :: '\'' :: text => literalLines (dropLineEnd text)
  | '\'' :: text => literal text
  | _ => none

end Reader

/-- A way to write a text. -/
inductive Style where
  | basic
  | literal
  | basicLines
  | literalLines
  deriving Repr, DecidableEq

namespace Style

/-- The longest run of `quote` in a text, `run` of which stand before it. -/
def longestRun (quote : Char) (run : Nat) : List Char → Nat
  | [] => run
  | c :: text =>
    if c = quote then longestRun quote (run + 1) text else max run (longestRun quote 0 text)

/-- Control characters other than line breaks can only be written as escapes. -/
def needsEscape (c : Char) : Bool := (c.toNat < 32 || c.toNat = 127) && c ≠ '\n'

/-- The style for a text. -/
def choose (text : List Char) : Style :=
  let escapes := text.any needsEscape
  let backslash := text.contains '\\'
  let lines := text.contains '\n'
  let doubles := longestRun '"' 0 text
  let singles := longestRun '\'' 0 text
  if !escapes && !backslash && !lines && doubles = 0 then basic
  else if !escapes && !lines && singles = 0 then literal
  else if !escapes && !backslash && doubles ≤ 2 then basicLines
  else if !escapes && singles ≤ 2 then literalLines
  else if lines then basicLines
  else basic

def hexadecimalDigit (n : Nat) : Char := ((Nat.toDigits 16 n).headD '0').toUpper

/-- A character between double quotes, other than these themselves. -/
def escape (lines : Bool) (c : Char) : List Char :=
  if c.toNat = 8 then ['\\', 'b']
  else if c = '\t' then ['\\', 't']
  else if c = '\n' then if lines then [c] else ['\\', 'n']
  else if c.toNat = 12 then ['\\', 'f']
  else if c = '\r' then ['\\', 'r']
  else if c = '\\' then ['\\', '\\']
  else if c.toNat < 32 || c.toNat = 127 then
    ['\\', 'u', '0', '0', hexadecimalDigit (c.toNat / 16), hexadecimalDigit (c.toNat % 16)]
  else [c]

/-- A text with escapes. Double quotes are escaped, but among lines up to two in a row are not;
`run` of them stand before the text. -/
def escaped (lines : Bool) (run : Nat) : List Char → List Char
  | [] => []
  | c :: text =>
    if c = '"' then
      if run < (if lines then 2 else 0) then c :: escaped lines (run + 1) text
      else '\\' :: c :: escaped lines 0 text
    else escape lines c ++ escaped lines 0 text

/-- A text over lines starts on a line of its own if it has a line break. -/
def lineStart (text : List Char) : List Char := if text.contains '\n' then ['\n'] else []

def write (text : List Char) : Style → List Char
  | basic => '"' :: escaped false 0 text ++ ['"']
  | literal => '\'' :: text ++ ['\'']
  | basicLines => '"' :: '"' :: '"' :: lineStart text ++ escaped true 0 text ++ ['"', '"', '"']
  | literalLines => '\'' :: '\'' :: '\'' :: lineStart text ++ text ++ ['\'', '\'', '\'']

end Style

/-- A text as a document holds it. -/
def quote (text : List Char) : List Char := Style.write text (.choose text)

end CallStudy.Toml
