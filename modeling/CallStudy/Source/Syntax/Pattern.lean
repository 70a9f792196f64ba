import CallStudy.Source.Syntax.Type

/-!
Patterns. Alternatives are joined by single bars; in a `let` without parentheses, in a closure
and behind `&` or `@` only one alternative is read.
-/

namespace CallStudy.Source.Syntax

open Grammar

def onePattern : Reading := rule .onePattern

/-- Alternatives of a pattern, the first of which may follow a bar. -/
def pattern : Reading := rule .pattern

/-- A single bar, not the start of another operator. -/
def isBar (ts : List Token) : Bool :=
  Ahead.operator "|" ts && !Ahead.operator "||" ts && !Ahead.operator "|=" ts

def moreAlternatives : Reading :=
  optional isBar (inOrder [operator "|", onePattern, rule .moreAlternatives])

def patternRule : Reading :=
  when (Ahead.operator "|")
    (inOrder [operator "|", onePattern, rule .moreAlternatives, become .orPattern])
    (seq onePattern (optional isBar (seq (rule .moreAlternatives) (become .orPattern))))

/-- What a range pattern's bound may not begin with. -/
def endsRange (ts : List Token) : Bool :=
  Ahead.atEnd ts || Ahead.operator "|" ts || Ahead.operator "=" ts ||
    (Ahead.operator ":" ts && !Ahead.operator "::" ts) || Ahead.operator "," ts ||
    Ahead.operator ";" ts || Ahead.keyword "if" ts

def startsQualifiedPath (ts : List Token) : Bool :=
  Ahead.ident ts || Ahead.operator "::" ts || Ahead.operator "<" ts || Ahead.keyword "self" ts ||
    Ahead.keyword "Self" ts || Ahead.keyword "super" ts || Ahead.keyword "crate" ts

def constBlock : Reading :=
  fresh (inOrder [keyword "const", attributedBlock, become .constBlock])

def rangeBound : Reading :=
  cases [(Ahead.literal, literal),
    (startsQualifiedPath, node .pathExpr (qualifiedPath true)),
    (Ahead.keyword "const", constBlock)]

/-- The limits of a range pattern and its upper bound, which only `..` can do without. -/
def rangeEnd (threeDots : Bool) : Reading :=
  decide fun _ ts =>
    if Ahead.operator "..=" ts then seq (operator "..=") rangeBound
    else if Ahead.operator "..." ts then
      if threeDots then seq (operator "...") rangeBound else refuse
    else seq (operator "..") (optional (! endsRange ·) rangeBound)

def pathPattern : Reading :=
  seq (qualifiedPath true) (decide fun built ts =>
    if invoked built ts then seq invocationRest (become .invocationPattern)
    else if Ahead.brace ts then
      enclose .structPattern (brace (rule .structPatternFields))
    else if Ahead.paren ts then
      enclose .tupleStructPattern (paren (rule .tuplePatternFields))
    else if Ahead.operator ".." ts then
      inOrder [become .pathExpr, rangeEnd true, become .rangePattern]
    else become .pathPattern)

def identPattern : Reading :=
  enclose .identPattern (inOrder [optionalKeyword "ref", optionalKeyword "mut",
    when (Ahead.keyword "self") anyIdent ident,
    optional (Ahead.operator "@") (seq (operator "@") onePattern)])

/-- A pattern without alternatives, read into trees of its own. -/
def onePatternRule : Reading :=
  cases [
    (fun ts => (Ahead.ident ts && (Ahead.second (Ahead.operator "::") ts ||
        Ahead.second (Ahead.operator "!") ts || Ahead.second Ahead.brace ts ||
        Ahead.second Ahead.paren ts || Ahead.second (Ahead.operator "..") ts)) ||
      (Ahead.keyword "self" ts && Ahead.second (Ahead.operator "::") ts) ||
      Ahead.operator "::" ts || Ahead.operator "<" ts || Ahead.keyword "Self" ts ||
      Ahead.keyword "super" ts || Ahead.keyword "crate" ts, pathPattern),
    (Ahead.keyword "_", enclose .wildPattern anyIdent),
    (Ahead.keyword "box", enclose .asWritten (seq (keyword "box") onePattern)),
    (fun ts => Ahead.operator "-" ts || Ahead.literal ts || Ahead.keyword "const" ts,
      seq rangeBound (decide fun built ts =>
        if Ahead.operator ".." ts then seq (rangeEnd true) (become .rangePattern)
        else match built with
          | .node .constBlock _ :: _ => become .constPattern
          | .node .pathExpr _ :: _ => become .pathPattern
          | _ => become .literalPattern)),
    (fun ts => Ahead.keyword "ref" ts || Ahead.keyword "mut" ts || Ahead.keyword "self" ts ||
      Ahead.ident ts, identPattern),
    (Ahead.operator "&", enclose .referencePattern
      (inOrder [operator "&", optionalKeyword "mut", onePattern])),
    (Ahead.paren, seq (paren (rule .tuplePatternFields)) (decide fun built _ =>
      match built with
      | .group _ [one] :: _ =>
        if one.isNode .restPattern then become .tuplePattern else become .parenthesizedPattern
      | _ => become .tuplePattern)),
    (Ahead.bracket, enclose .slicePattern (bracket (rule .slicePatternFields))),
    (fun ts => Ahead.operator ".." ts && !Ahead.operator "..." ts,
      seq (rangeEnd false) (decide fun built _ =>
        if built.length == 1 then become .restPattern else become .rangePattern))]

def tuplePatternFields : Reading :=
  optional (! Ahead.atEnd ·) (seq pattern
    (optional (! Ahead.atEnd ·) (seq (operator ",") (rule .tuplePatternFields))))

/-- Whether the latest tree is a range pattern that lacks one of its bounds. -/
def isHalfOpen : List Tree → Bool
  | .node .rangePattern parts :: _ => parts.length < 3
  | _ => false

/-- In a slice a range pattern with one bound needs parentheses. -/
def slicePatternFields : Reading :=
  optional (! Ahead.atEnd ·) (inOrder [pattern,
    decide fun built _ => if isHalfOpen built then refuse else empty,
    optional (! Ahead.atEnd ·) (seq (operator ",") (rule .slicePatternFields))])

/-- A field's name or its position. -/
def member : Reading :=
  cases [(Ahead.ident, node .name ident),
    (fun ts => match ts with
      | .literal text :: _ =>
        match Literal.integerParts? text with
        | some (value, suffix) => suffix == "" && value < UInt32.size
        | none => false
      | _ => false, literalToken)]

def fieldPattern : Reading :=
  fresh (seq (rule .outerAttributes) (decide fun _ ts =>
    if Ahead.operator ".." ts then enclose .restPattern (operator "..")
    else if Ahead.keyword "box" ts then
      enclose .fieldPattern (node .asWritten (inOrder [keyword "box", optionalKeyword "ref",
        optionalKeyword "mut", ident]))
    else if Ahead.keyword "ref" ts || Ahead.keyword "mut" ts ||
        (Ahead.ident ts && !Ahead.second (Ahead.operator ":") ts) then
      enclose .fieldPattern (node .identPattern (inOrder [optionalKeyword "ref",
        optionalKeyword "mut", ident]))
    else enclose .fieldPattern (inOrder [member, operator ":", pattern])))

/-- Nothing may follow the two dots that stand for the other fields. -/
def structPatternFields : Reading :=
  optional (! Ahead.atEnd ·) (seq fieldPattern (decide fun built ts =>
    match built with
    | .node .restPattern _ :: _ => empty
    | _ =>
      if Ahead.atEnd ts then empty else seq (operator ",") (rule .structPatternFields)))

end CallStudy.Source.Syntax
