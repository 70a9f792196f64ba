import CallStudy.Source.Grammar
import CallStudy.Source.Literal

/-!
What stands ahead in a list of tokens, and the words that grammars read. Operators are runs of
punctuation characters: all but the last of a run must be joint.
-/

namespace CallStudy.Source

namespace Ahead

def atEnd (ts : List Token) : Bool := ts.isEmpty

def spells : List Char → List Token → Bool
  | [], _ => false
  | [c], .punct d _ :: _ => c == d
  | c :: cs, .punct d joint :: rest => c == d && joint && spells cs rest
  | _ :: _, _ => false

/-- The operator `text` stands ahead, perhaps as the start of a longer one. -/
def operator (text : String) (ts : List Token) : Bool := spells text.toList ts

def keyword (text : String) : List Token → Bool
  | .ident t :: _ => t == text
  | _ => false

def anyIdent : List Token → Bool
  | .ident _ :: _ => true
  | _ => false

/-- Words that no item, variable or field can be called. -/
def reserved : List String :=
  ["_", "abstract", "as", "async", "await", "become", "box", "break", "const", "continue",
    "crate", "do", "dyn", "else", "enum", "extern", "false", "final", "fn", "for", "if", "impl",
    "in", "let", "loop", "macro", "match", "mod", "move", "mut", "override", "priv", "pub", "ref",
    "return", "Self", "self", "static", "struct", "super", "trait", "true", "try", "type",
    "typeof", "unsafe", "unsized", "use", "virtual", "where", "while", "yield"]

def ident : List Token → Bool
  | .ident t :: _ => !reserved.contains t
  | _ => false

def lifetime : List Token → Bool
  | .lifetime _ :: _ => true
  | _ => false

def literalToken : List Token → Bool
  | .literal _ :: _ => true
  | _ => false

def quotedLiteral : List Token → Bool
  | .literal t :: _ => t.startsWith "\"" || t.startsWith "r"
  | _ => false

def group (delimiter : Delimiter) : List Token → Bool
  | .group d _ :: _ => d == delimiter
  | _ => false

def paren : List Token → Bool := group .parenthesis
def bracket : List Token → Bool := group .bracket
def brace : List Token → Bool := group .brace

def number : List Token → Bool
  | .literal t :: _ => match t.toList with
    | c :: _ => Literal.isDigit c
    | [] => false
  | _ => false

/-- A literal, a truth value or a negated number. -/
def literal (ts : List Token) : Bool :=
  literalToken ts || keyword "true" ts || keyword "false" ts ||
    (operator "-" ts && number (ts.drop 1))

def second (look : List Token → Bool) (ts : List Token) : Bool := look (ts.drop 1)

def third (look : List Token → Bool) (ts : List Token) : Bool := look (ts.drop 2)

/-- A word that a plain path may consist of. -/
def pathWord (ts : List Token) : Bool :=
  ident ts || keyword "super" ts || keyword "self" ts || keyword "Self" ts || keyword "crate" ts

/-- The tokens after a path without arguments, from its first word on. -/
def afterPathWords : Nat → List Token → Option (List Token)
  | 0, _ => none
  | fuel + 1, ts =>
    if pathWord ts then
      if operator "::" (ts.drop 1) then afterPathWords fuel (ts.drop 3) else some (ts.drop 1)
    else none

/-- The tokens after a path without arguments. -/
def afterPlainPath (ts : List Token) : Option (List Token) :=
  let ts := if operator "::" ts then ts.drop 2 else ts
  afterPathWords (ts.length + 1) ts

/-- Whether `pub` is followed by a bracketed restriction of the visibility. -/
def restriction : List Token → Bool
  | .group .parenthesis content :: _ =>
    keyword "in" content ||
      ((keyword "crate" content || keyword "self" content || keyword "super" content) &&
        content.length == 1)
  | _ => false

def afterVisibility (ts : List Token) : List Token :=
  if keyword "pub" ts then
    if restriction (ts.drop 1) then ts.drop 2 else ts.drop 1
  else ts

def dropKeyword (text : String) (ts : List Token) : List Token :=
  if keyword text ts then ts.drop 1 else ts

/-- Whether an angle bracket begins generic parameters where a path that starts from a type could
stand as well. A single name between the brackets is taken for a parameter. -/
def parameterList (ts : List Token) : Bool :=
  operator "<" ts && (second (operator ">") ts || second (operator "#") ts ||
    second (keyword "const") ts ||
    ((second lifetime ts || second ident ts) &&
      (third (operator ">") ts || third (operator ",") ts || third (operator "=") ts ||
        (third (operator ":") ts && !third (operator "::") ts))))

/-- Whether a function's heading stands ahead; `safe` is a qualifier where `allowSafe` holds. -/
def signature (allowSafe : Bool) (ts : List Token) : Bool :=
  let ts := dropKeyword "async" (dropKeyword "const" ts)
  let ts := if allowSafe && keyword "safe" ts then ts.drop 1 else dropKeyword "unsafe" ts
  let ts := if keyword "extern" ts then
      if quotedLiteral (ts.drop 1) then ts.drop 2 else ts.drop 1
    else ts
  keyword "fn" ts

/-- A path, or the name of an invocation, from its first word or double colon. -/
def invocationPath (ts : List Token) : Bool :=
  ident ts || keyword "self" ts || keyword "super" ts || keyword "crate" ts || operator "::" ts

/-- Whether an expression can begin here. -/
def expression (ts : List Token) : Bool :=
  (anyIdent ts && !keyword "as" ts) || paren ts || bracket ts || brace ts || literal ts ||
    (operator "!" ts && !operator "!=" ts) ||
    (operator "-" ts && !operator "-=" ts && !operator "->" ts) ||
    (operator "*" ts && !operator "*=" ts) ||
    (operator "|" ts && !operator "|=" ts) ||
    (operator "&" ts && !operator "&=" ts) ||
    operator ".." ts ||
    (operator "<" ts && !operator "<=" ts && !operator "<<=" ts) ||
    operator "::" ts || lifetime ts || operator "#" ts

end Ahead

namespace Grammar

variable {ρ : Type}

def when (look : List Token → Bool) (yes no : Grammar ρ) : Grammar ρ :=
  decide fun _ ts => if look ts then yes else no

def optional (look : List Token → Bool) (g : Grammar ρ) : Grammar ρ := when look g empty

def inOrder : List (Grammar ρ) → Grammar ρ
  | [] => empty
  | [g] => g
  | g :: gs => seq g (inOrder gs)

/-- Goes on by the first case whose test holds, and is refused where none does. -/
def cases (alternatives : List ((List Token → Bool) × Grammar ρ)) : Grammar ρ :=
  decide fun _ ts =>
    match alternatives.find? (fun a => a.1 ts) with
    | some (_, g) => g
    | none => refuse

def single (look : List Token → Bool) : Grammar ρ :=
  word fun ts => if look ts then 1 else 0

def operator (text : String) : Grammar ρ :=
  word fun ts => if Ahead.operator text ts then text.length else 0

def keyword (text : String) : Grammar ρ := single (Ahead.keyword text)
def ident : Grammar ρ := single Ahead.ident
def anyIdent : Grammar ρ := single Ahead.anyIdent
def lifetime : Grammar ρ := single Ahead.lifetime
def literalToken : Grammar ρ := single Ahead.literalToken

def optionalKeyword (text : String) : Grammar ρ := optional (Ahead.keyword text) (keyword text)
def optionalOperator (text : String) : Grammar ρ := optional (Ahead.operator text) (operator text)

def paren (content : Grammar ρ) : Grammar ρ := group .parenthesis content
def bracket (content : Grammar ρ) : Grammar ρ := group .bracket content
def brace (content : Grammar ρ) : Grammar ρ := group .brace content

/-- A group of any brackets whose content is left unread. -/
def rawGroup : Grammar ρ :=
  cases [(Ahead.paren, paren remainder), (Ahead.bracket, bracket remainder),
    (Ahead.brace, brace remainder)]

/-- Turns everything built so far here into one node. -/
def become (kind : Kind) : Grammar ρ := enclose kind empty

end Grammar
end CallStudy.Source
