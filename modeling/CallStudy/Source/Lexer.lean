import CallStudy.Source.Literal
import CallStudy.Source.Token

/-!
From text to token trees. Blank space and ordinary comments separate tokens and leave no trace;
a documentation comment becomes the attribute that it stands for. A text has no token trees when
it holds a character, a quote or a bracket that no token accounts for.
-/

namespace CallStudy.Source.Lexer

open CharClass

def startsWith (s : List Char) (start : String) : Bool :=
  start.toList.isPrefixOf s

/-- The text of a line and what follows it; the line break is not part of the text, and of a
carriage return with line feed only the line feed is left over. -/
def line : List Char → List Char × List Char
  | [] => ([], [])
  | '\n' :: rest => ([], '\n' :: rest)
  | '\r' :: '\n' :: rest => ([], '\n' :: rest)
  | c :: rest => let (text, rest) := line rest; (c :: text, rest)

/-- What follows a block comment's closing mark; comments nest. `s` starts inside `depth` of them. -/
def afterBlock : Nat → List Char → Option (List Char)
  | _, [] => none
  | depth, '/' :: '*' :: rest => afterBlock (depth + 1) rest
  | depth, '*' :: '/' :: rest => if depth ≤ 1 then some rest else afterBlock (depth - 1) rest
  | depth, _ :: rest => afterBlock depth rest

/-- A line comment that documents nothing. -/
def isPlainLine (s : List Char) : Bool :=
  startsWith s "//" && (!startsWith s "///" || startsWith s "////") && !startsWith s "//!"

/-- A block comment that documents nothing. -/
def isPlainBlock (s : List Char) : Bool :=
  startsWith s "/*" && (!startsWith s "/**" || startsWith s "/***") && !startsWith s "/*!"

/-- Drops blank characters and plain comments. -/
def skipBlank : Nat → List Char → List Char
  | 0, s => s
  | fuel + 1, s =>
    if isPlainLine s then skipBlank fuel (line s).2
    else if startsWith s "/**/" then skipBlank fuel (s.drop 4)
    else if isPlainBlock s then
      match afterBlock 1 (s.drop 2) with
      | some rest => skipBlank fuel rest
      | none => s
    else
      match s with
      | c :: rest => if isBlank c then skipBlank fuel rest else s
      | [] => []

/-- The text between `s` and its tail `rest`. -/
def textBefore (s rest : List Char) : List Char :=
  s.take (s.length - rest.length)

/-- A documentation comment's text, whether it documents what encloses it, and the rest. -/
def docComment? (s : List Char) : Option (List Char × Bool × List Char) :=
  let block (inner : Bool) :=
    match afterBlock 1 (s.drop 2) with
    | some rest =>
      let text := textBefore s rest
      some ((text.drop 3).take (text.length - 5), inner, rest)
    | none => none
  if startsWith s "//!" then
    let (text, rest) := line (s.drop 3)
    some (text, true, rest)
  else if startsWith s "/*!" then block true
  else if startsWith s "///" && !startsWith s "////" then
    let (text, rest) := line (s.drop 3)
    some (text, false, rest)
  else if startsWith s "/**" && !startsWith s "/***" then block false
  else none

/-- A carriage return may only stand before a line feed. -/
def hasLoneReturn : List Char → Bool
  | [] => false
  | '\r' :: '\n' :: rest => hasLoneReturn rest
  | '\r' :: _ => true
  | _ :: rest => hasLoneReturn rest

def quoteChar (c : Char) : List Char :=
  if c = '"' then ['\\', '"']
  else if c = '\\' then ['\\', '\\']
  else if c = '\n' then ['\\', 'n']
  else if c = '\r' then ['\\', 'r']
  else if c = '\t' then ['\\', 't']
  else if c = '\x00' then ['\\', '0']
  else [c]

/-- The attribute that a documentation comment stands for. -/
def docAttribute (text : List Char) (inner : Bool) : List Token :=
  let value := String.ofList (['"'] ++ text.flatMap quoteChar ++ ['"'])
  let content := [.ident "doc", .punct '=' false, .literal value]
  let mark := if inner then [.punct '#' false, .punct '!' false] else [.punct '#' false]
  mark ++ [.group .bracket content]

def isPunctChar (c : Char) : Bool :=
  c ∈ ['~', '!', '@', '#', '$', '%', '^', '&', '*', '-', '=', '+', '|', ';', ':', ',', '<', '.',
    '>', '/', '?', '\'']

/-- Whether a punctuation character stands here; the start of a comment is none. -/
def startsPunct (s : List Char) : Bool :=
  !startsWith s "//" && !startsWith s "/*" &&
    match s with
    | c :: _ => isPunctChar c
    | [] => false

/-- A name, with its raw mark if it has one; the words of paths cannot be raw. -/
def anyName? (s : List Char) : Option (List Char × List Char) :=
  if startsWith s "r#" then
    match Literal.name? (s.drop 2) with
    | some (name, rest) =>
      if String.ofList name ∈ ["_", "super", "self", "Self", "crate"] then none
      else some ('r' :: '#' :: name, rest)
    | none => none
  else Literal.name? s

/-- Starts that are reserved for literals, so that no name begins with them. -/
def startsLiteral (s : List Char) : Bool :=
  ["r\"", "r#\"", "r##", "b\"", "b'", "br\"", "br#", "c\"", "cr\"", "cr#"].any (startsWith s)

def lifetime? (s : List Char) : Option (Token × List Char) :=
  match s with
  | '\'' :: rest =>
    match anyName? rest with
    | some (name, after) =>
      if startsWith after "'" || (startsWith after "#" && !startsWith rest "r#") then none
      else if startsLiteral rest || (Literal.scan rest).isSome then
        some (.punct '\'' true, rest)
      else some (.lifetime (String.ofList ('\'' :: name)), after)
    | none => none
  | _ => none

/-- Stands for text that could not be read; it is one literal in spite of its parentheses. -/
def errorMark : String := "(/*ERROR*/)"

/-- One token that is not a group. -/
def leaf? (s : List Char) : Option (Token × List Char) :=
  if startsWith s errorMark then some (.literal errorMark, s.drop errorMark.length)
  else match Literal.scan s with
  | some rest => some (.literal (String.ofList (textBefore s rest)), rest)
  | none =>
    if startsPunct s then
      match s with
      | '\'' :: _ => lifetime? s
      | c :: rest => some (.punct c (startsPunct rest), rest)
      | [] => none
    else if startsLiteral s then none
    else
      match anyName? s with
      | some (name, rest) => some (.ident (String.ofList name), rest)
      | none => none

/-- Token trees up to the end of the text or a closing bracket, which is left over. -/
def trees : Nat → List Char → Option (List Token × List Char)
  | 0, _ => none
  | fuel + 1, s =>
    let s := skipBlank (s.length + 1) s
    match docComment? s with
    | some (text, inner, rest) =>
      if hasLoneReturn text then none
      else
        match trees fuel rest with
        | some (more, rest) => some (docAttribute text inner ++ more, rest)
        | none => none
    | none =>
      match s with
      | [] => some ([], [])
      | c :: after =>
        match (Delimiter.ofOpening? c).filter fun _ => !startsWith s errorMark with
        | some delimiter =>
          match trees fuel after with
          | some (content, close :: rest) =>
            if Delimiter.ofClosing? close = some delimiter then
              match trees fuel rest with
              | some (more, rest) => some (.group delimiter content :: more, rest)
              | none => none
            else none
          | _ => none
        | none =>
          if (Delimiter.ofClosing? c).isSome then some ([], c :: after)
          else
            match leaf? (c :: after) with
            | some (token, rest) =>
              match trees fuel rest with
              | some (more, rest) => some (token :: more, rest)
              | none => none
            | none => none

def dropByteOrderMark : List Char → List Char
  | '\uFEFF' :: rest => rest
  | s => s

/-- The token trees of a whole text; one byte order mark at its start is skipped. -/
def tokens? (s : List Char) : Option (List Token) :=
  let s := dropByteOrderMark s
  match trees (s.length + 1) s with
  | some (tokens, []) => some tokens
  | _ => none

/-- Drops a first line that names an interpreter: it starts with `#!` and no attribute follows. -/
def dropInterpreterLine (s : List Char) : List Char :=
  if startsWith s "#!" then
    match skipBlank (s.length + 1) (s.drop 2) with
    | '[' :: _ => s
    | _ => s.dropWhile (· != '\n')
  else s

/-- The token trees of a source file's text. -/
def fileTokens? (text : String) : Option (List Token) :=
  tokens? (dropInterpreterLine (dropByteOrderMark text.toList))

end CallStudy.Source.Lexer
