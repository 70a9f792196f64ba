import CallStudy.Source.Syntax.Rule

/-!
Attributes, paths and generic arguments. A path in an expression takes arguments only after a
double colon; a path in a type takes them directly.
-/

namespace CallStudy.Source.Syntax

open Grammar

/-- The words of a path without arguments, and no more. -/
def plainPath : Reading :=
  node .path (inOrder [optionalOperator "::", node .segment (single Ahead.pathWord),
    rule .plainPathRest])

def plainPathRest : Reading :=
  optional (Ahead.operator "::")
    (inOrder [operator "::", node .segment (single Ahead.pathWord), rule .plainPathRest])

/-- What an attribute's brackets hold: a path, then arguments, a value or nothing. -/
def attributeContent : Reading :=
  inOrder [
    cases [(Ahead.keyword "unsafe", node .path (node .segment anyIdent)),
      (fun _ => true, plainPath)],
    when (fun ts => Ahead.paren ts || Ahead.bracket ts || Ahead.brace ts) rawGroup
      (optional (Ahead.operator "=") (seq (operator "=") (decide fun _ ts =>
        if Ahead.literal ts && (ts.length == 1 || (Ahead.operator "-" ts && ts.length == 2)) then
          literal
        else if Ahead.operator "#" ts && Ahead.second Ahead.bracket ts then refuse
        else expr true)))]

def outerAttributes : Reading :=
  optional (Ahead.operator "#") (inOrder [
    node .outerAttribute (seq (operator "#") (bracket attributeContent)), rule .outerAttributes])

def innerAttributes : Reading :=
  optional (fun ts => Ahead.operator "#" ts && Ahead.second (Ahead.operator "!") ts) (inOrder [
    node .innerAttribute (inOrder [operator "#", operator "!", bracket attributeContent]),
    rule .innerAttributes])

def visibility : Reading :=
  optional (Ahead.keyword "pub") (node .visibility (seq (keyword "pub")
    (optional Ahead.restriction (paren (cases [
      (Ahead.keyword "in", seq (keyword "in") plainPath),
      (fun _ => true, anyIdent)])))))

/-- `::` and the arguments in angle brackets, as the tokens ahead have them. -/
def angleArguments : Reading :=
  node .genericArguments (inOrder [optionalOperator "::", operator "<", rule .genericArguments,
    operator ">"])

def turbofishArguments : Reading :=
  node .genericArguments (inOrder [operator "::", operator "<", rule .genericArguments,
    operator ">"])

def segment (turbofish : Bool) : Reading :=
  node .segment (decide fun _ ts =>
    if Ahead.keyword "super" ts || Ahead.keyword "self" ts || Ahead.keyword "crate" ts ||
        Ahead.keyword "try" ts then anyIdent
    else
      seq (if Ahead.keyword "Self" ts then anyIdent else ident)
        (optional (fun ts =>
          (!turbofish && Ahead.operator "<" ts && !Ahead.operator "<=" ts) ||
            (Ahead.operator "::" ts && Ahead.third (Ahead.operator "<") ts)) angleArguments))

def pathRest (turbofish : Bool) : Reading :=
  optional (fun ts => Ahead.operator "::" ts && !Ahead.third Ahead.paren ts)
    (inOrder [operator "::", segment turbofish, rule (.pathRest turbofish)])

def path (turbofish : Bool) : Reading :=
  node .path (inOrder [optionalOperator "::", segment turbofish, rule (.pathRest turbofish)])

def qualifiedRest (turbofish : Bool) : Reading :=
  seq (segment turbofish)
    (optional (Ahead.operator "::") (seq (operator "::") (rule (.qualifiedRest turbofish))))

/-- A path, or a path that starts from a type in angle brackets. -/
def qualifiedPath (turbofish : Bool) : Reading :=
  when (Ahead.operator "<")
    (node .qualifiedPath (inOrder [operator "<", type,
      optional (Ahead.keyword "as") (seq (keyword "as") (path false)),
      operator ">", operator "::", rule (.qualifiedRest turbofish)]))
    (path turbofish)

/-- Whether the latest tree is a path without arguments that starts from no type. -/
def isPlainPath : List Tree → Bool
  | .node .path parts :: _ => parts.all fun
    | .node .segment words => words.length == 1
    | _ => true
  | _ => false

/-- Whether an invocation's mark follows the path just read. -/
def invoked (built : List Tree) (ts : List Token) : Bool :=
  isPlainPath built && Ahead.operator "!" ts && !Ahead.operator "!=" ts

def invocationRest : Reading := enclose .invocation (seq (operator "!") rawGroup)

/-- Whether the type just read can name an associated type: one word, perhaps with arguments. -/
def namesAssociated : List Tree → Bool
  | .node .pathType [.node .path [.node .segment _]] :: _ => true
  | _ => false

def genericArgument : Reading :=
  when (fun ts => Ahead.lifetime ts && !Ahead.second (Ahead.operator "+") ts)
    (node .lifetimeArgument lifetime)
    (node .otherArgument (when (fun ts => Ahead.literal ts || Ahead.brace ts) constArgument
      (seq type (decide fun built ts =>
        if namesAssociated built && Ahead.operator "=" ts then
          seq (operator "=")
            (when (fun ts => Ahead.literal ts || Ahead.brace ts) constArgument type)
        else if namesAssociated built && Ahead.operator ":" ts then
          node .requiredBounds (seq (operator ":") (rule (.bounds .argument)))
        else empty))))

def genericArguments : Reading :=
  optional (! Ahead.operator ">" ·) (seq genericArgument
    (optional (! Ahead.operator ">" ·) (seq (operator ",") (rule .genericArguments))))

/-- The argument types of a callable trait and the type it returns. -/
def parenthesizedArguments : Reading :=
  node .parenthesizedArguments (seq (paren (rule (.commaList (.type true))))
    (optional (Ahead.operator "->")
      (node .returnType (seq (operator "->") typeWithoutPlus))))

end CallStudy.Source.Syntax
