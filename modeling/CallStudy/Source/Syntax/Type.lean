import CallStudy.Source.Syntax.Generics

/-!
Types. Where a plus sign may follow, a path with further bounds is a trait object.
-/

namespace CallStudy.Source.Syntax

open Grammar

def returnType (plus : Bool) : Reading :=
  optional (Ahead.operator "->")
    (node .returnType (seq (operator "->") (rule (.type plus))))

/-- `extern` and the name of a calling convention, if any. -/
def convention : Reading :=
  optional (Ahead.keyword "extern")
    (seq (keyword "extern") (optional Ahead.quotedLiteral literalToken))

/-- What may begin a bound after a plus sign; `all` admits constness too. -/
def continuesBounds (all : Bool) (ts : List Token) : Bool :=
  Ahead.anyIdent ts || Ahead.operator "::" ts || Ahead.operator "?" ts || Ahead.lifetime ts ||
    Ahead.paren ts || (all && (Ahead.bracket ts || Ahead.keyword "const" ts))

/-- Bounds of a type that is made of them. -/
def typeBounds (plus captures constAllowed : Bool) : Reading :=
  seq (bound captures constAllowed)
    (optional (fun ts => plus && Ahead.operator "+" ts) (seq (operator "+")
      (optional (continuesBounds constAllowed) (rule (.typeBounds plus captures constAllowed)))))

/-- Plus signs with bounds after a first bound; `all` requires a bound after each sign. -/
def moreBounds (all : Bool) : Reading :=
  optional (Ahead.operator "+") (seq (operator "+") (decide fun _ ts =>
    if all || continuesBounds false ts then seq (bound false false) (rule (.moreBounds all))
    else empty))

/-- Refused unless some bound read here is a trait. -/
def needsTrait (kind : Kind) : Reading :=
  decide fun built _ => if hasNode .bound built then become kind else refuse

def functionTypeParameter (first : Bool) : Reading :=
  decide fun _ ts =>
    let isName := Ahead.ident ts || Ahead.keyword "_" ts || (first && Ahead.keyword "self" ts)
    if first && Ahead.keyword "mut" ts && Ahead.second (Ahead.keyword "self") ts then
      node .asWritten (inOrder [keyword "mut", keyword "self",
        optional (Ahead.operator ":") (seq (operator ":") type)])
    else if isName && Ahead.second (Ahead.operator ":") ts &&
        !Ahead.second (Ahead.operator "::") ts then
      inOrder [anyIdent, operator ":", type]
    else type

def functionTypeParameters (first : Bool) : Reading :=
  optional (! Ahead.atEnd ·) (seq (rule .outerAttributes) (decide fun _ ts =>
    let named := (Ahead.ident ts || Ahead.keyword "_" ts) && Ahead.second (Ahead.operator ":") ts &&
      Ahead.third (Ahead.operator "...") ts
    if Ahead.operator "..." ts || named then
      inOrder [if named then seq anyIdent (operator ":") else empty, operator "...",
        optionalOperator ","]
    else
      seq (functionTypeParameter first) (optional (! Ahead.atEnd ·)
        (seq (operator ",") (rule (.functionTypeParameters false))))))

def functionType : Reading :=
  enclose .functionType (inOrder [optionalKeyword "unsafe", convention, keyword "fn",
    paren (rule (.functionTypeParameters true)), returnType false])

/-- What stands between the parentheses of a type. -/
def parenthesizedTypeContent : Reading :=
  decide fun _ ts =>
    if Ahead.atEnd ts then empty
    else if Ahead.operator "?" ts then node .bound (traitBound false)
    else if Ahead.lifetime ts then type
    else seq type (optional (Ahead.operator ",")
      (seq (operator ",") (rule (.commaList (.type true)))))

/-- A type that could be a bound when it stands alone in parentheses. -/
def couldBeBound : List Tree → Bool
  | [.node .pathType [.node .path _]] => true
  | [.node .objectType trees] => hasNode .bound trees && !hasOperator "+" trees &&
      !trees.any (fun t => t.wordText? == some "dyn")
  | _ => false

def afterParenthesizedType (plus : Bool) : Reading :=
  decide fun built ts =>
    let content := match built with
      | .group _ content :: _ => content
      | _ => []
    if content.isEmpty || hasOperator "," content then become .tupleType
    else if hasNode .bound content then seq (rule (.moreBounds true)) (become .objectType)
    else if plus && Ahead.operator "+" ts && couldBeBound content then
      seq (rule (.moreBounds true)) (become .objectType)
    else become .parenthesizedType

/-- A type that is a path or begins with one, after the binder if there is one. -/
def pathType (plus : Bool) : Reading :=
  decide fun before _ => seq (qualifiedPath false) (decide fun built ts =>
    match built with
    | .node .qualifiedPath _ :: _ => become .pathType
    | _ =>
      if before.isEmpty && invoked built ts then seq invocationRest (become .invocationType)
      else if !before.isEmpty || (plus && Ahead.operator "+" ts) then
        seq (become .bound)
          (seq (if plus then rule (.moreBounds false) else empty) (become .objectType))
      else become .pathType)

def startsPathType (ts : List Token) : Bool :=
  Ahead.ident ts || Ahead.keyword "super" ts || Ahead.keyword "self" ts ||
    Ahead.keyword "Self" ts || Ahead.keyword "crate" ts

def startsFunctionType (ts : List Token) : Bool :=
  Ahead.keyword "fn" ts || Ahead.keyword "unsafe" ts || Ahead.keyword "extern" ts

def bracketType : Reading :=
  seq (bracket (seq type (optional (Ahead.operator ";") (seq (operator ";") (expr true)))))
    (decide fun built _ =>
      match built with
      | .group _ [_] :: _ => become .sliceType
      | _ => become .arrayType)

/-- A type, read into trees of its own. -/
def typeRule (plus : Bool) : Reading :=
  cases [
    (Ahead.keyword "for", seq binder (cases [
      (startsFunctionType, functionType), (startsPathType, pathType plus)])),
    (Ahead.paren, seq (paren parenthesizedTypeContent) (afterParenthesizedType plus)),
    (startsFunctionType, functionType),
    (fun ts => startsPathType ts || Ahead.operator "::" ts || Ahead.operator "<" ts,
      pathType plus),
    (Ahead.keyword "dyn", inOrder [keyword "dyn", optionalOperator "*",
      rule (.typeBounds plus false false), decide fun built _ =>
        if hasOperator "*" built then needsTrait .asWritten else needsTrait .objectType]),
    (Ahead.bracket, bracketType),
    (Ahead.operator "*", enclose .pointerType (inOrder [operator "*",
      cases [(Ahead.keyword "const", keyword "const"), (Ahead.keyword "mut", keyword "mut")],
      typeWithoutPlus])),
    (Ahead.operator "&", enclose .referenceType (inOrder [operator "&",
      optional Ahead.lifetime lifetime, optionalKeyword "mut", typeWithoutPlus])),
    (Ahead.operator "!", enclose .neverType (operator "!")),
    (Ahead.keyword "impl", inOrder [keyword "impl", rule (.typeBounds plus true true),
      needsTrait .implType]),
    (Ahead.keyword "_", enclose .inferredType anyIdent),
    (Ahead.lifetime, seq (rule (.typeBounds true false false)) (needsTrait .objectType))]

end CallStudy.Source.Syntax
