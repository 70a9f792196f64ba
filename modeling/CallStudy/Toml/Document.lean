import CallStudy.Toml.Quoted

/-!
Reading a TOML document: lines that are blank, a heading, or a key with a value. Arrays and tables
in braces nest to a bounded depth.
-/

namespace CallStudy.Toml

namespace Reader

/-- Goes over blanks, comments and line breaks. -/
def skip (inComment : Bool) : List Char → Option (List Char)
  | [] => some []
  | '\r' :: '\n' :: text => skip false text
  | '\n' :: text => skip false text
  | c :: text =>
    if inComment then if isPlain c then skip true text else none
    else if c = '#' then skip true text
    else if isBlank c then skip false text
    else some (c :: text)

/-- Goes over the blank rest of a line and its comment. -/
def lineEnd (inComment : Bool) : List Char → Option (List Char)
  | [] => some []
  | '\r' :: '\n' :: text => some text
  | '\n' :: text => some text
  | c :: text =>
    if inComment then if isPlain c then lineEnd true text else none
    else if c = '#' then lineEnd true text
    else if isBlank c then lineEnd false text
    else none

def isBare (c : Char) : Bool := c.isAlphanum || c = '-' || c = '_'

/-- One step of a key: a bare word, or a text in single or double quotes. -/
def keyStep : Reader String
  | '"' :: text => (basic text).map fun (cs, text) => (.ofList cs, text)
  | '\'' :: text => (literal text).map fun (cs, text) => (.ofList cs, text)
  | text =>
    let word := text.takeWhile isBare
    if word.isEmpty then none else some (.ofList word, text.dropWhile isBare)

/-- A key: steps with dots between them, and blanks around these. -/
def keySteps : Nat → Reader (List String)
  | 0, _ => none
  | fuel + 1, text => do
    let (step, text) ← keyStep (text.dropWhile isBlank)
    match text.dropWhile isBlank with
    | '.' :: text => (keySteps fuel text).map fun (steps, text) => (step :: steps, text)
    | text => some ([step], text)

/-- Arrays, tables and keys nest less than this deep. -/
def depthLimit : Nat := 80

/-- A key, split into the path before its last step and that step. -/
def key : Reader (List String × String) := fun text => do
  let (steps, text) ← keySteps (text.length + 1) text
  if depthLimit ≤ steps.length then none
  else
    let last ← steps.getLast?
    some ((steps.dropLast, last), text)

/-- The items of an array up to its bracket; a comma may follow the last. -/
def items (item : Reader Value) : Nat → Reader (List Value)
  | 0, _ => none
  | fuel + 1, text => do
    match ← skip false text with
    | ']' :: text => some ([], text)
    | text =>
      let (value, text) ← item text
      match ← skip false text with
      | ',' :: text => (items item fuel text).map fun (values, text) => (value :: values, text)
      | ']' :: text => some ([value], text)
      | _ => none

/-- A key with a value of its own. -/
def keyed (item : Reader Value) : Reader ((List String × String) × Value) := fun text => do
  let (k, text) ← key text
  match text with
  | '=' :: text =>
    let (value, text) ← item (text.dropWhile isBlank)
    some ((k, value), text)
  | _ => none

/-- The pairs of a table up to its brace, added to `entries`. -/
def pairs (item : Reader Value) : Nat → Entries → Reader Entries
  | 0, _, _ => none
  | fuel + 1, entries, text => do
    let (((path, last), value), text) ← keyed item text
    let entries ← entries.insert value last path
    match text.dropWhile isBlank with
    | ',' :: text => pairs item fuel entries text
    | '\x7d' :: text => some (entries, text)
    | _ => none

/-- A table behind its opening brace. -/
def braced (item : Reader Value) : Reader Entries := fun text =>
  match text.dropWhile isBlank with
  | '\x7d' :: text => some ([], text)
  | text => pairs item (text.length + 1) [] text

/-- A value with at most `depth` brackets around one another. -/
def value (depth : Nat) : Reader Value := fun text =>
  match text, depth with
  | '[' :: text, depth + 1 =>
    (items (value depth) (text.length + 1) text).map fun (vs, text) => (.array vs, text)
  | '\x7b' :: text, depth + 1 =>
    (braced (value depth) text).map fun (es, text) => (.table .inline es, text)
  | text, _ =>
    match quoted text with
    | some (cs, text) => some (.text (.ofList cs), text)
    | none => scalar text

/-- A heading behind its opening brackets. -/
def heading (closing : List Char) : Reader (List String) := fun text => do
  let ((path, last), text) ← key text
  let (_, text) ← word closing text
  let text ← lineEnd false text
  return (path ++ [last], text)

end Reader

namespace Draft

open Reader

/-- The draft after all lines of a text. -/
def lines : Nat → Draft → List Char → Option Draft
  | 0, _, _ => none
  | fuel + 1, d, text => do
    match ← skip false text with
    | [] => some d
    | '[' :: '[' :: text =>
      let (path, text) ← heading [']', ']'] text
      lines fuel (← d.openTable path true) text
    | '[' :: text =>
      let (path, text) ← heading [']'] text
      lines fuel (← d.openTable path false) text
    | text =>
      let (((path, last), value), text) ← keyed (value (depthLimit - 1)) text
      let text ← lineEnd false text
      lines fuel (← d.insert path last value) text

end Draft

/-- The entries of a document, or `none` when the text is no document. A byte order mark in front
is left out. -/
def parse? (text : List Char) : Option Entries :=
  let text :=
    match text with
    | '\ufeff' :: rest => rest
    | text => text
  (Draft.lines (text.length + 1) {} text).bind Draft.close

end CallStudy.Toml
