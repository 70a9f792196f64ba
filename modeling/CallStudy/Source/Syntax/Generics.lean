import CallStudy.Source.Syntax.Path

/-!
Generic parameters, bounds and where clauses.
-/

namespace CallStudy.Source.Syntax

open Grammar

def binder : Reading :=
  node .binder (inOrder [keyword "for", operator "<", rule .binderParameters, operator ">"])

def optionalBinder : Reading := optional (Ahead.keyword "for") binder

def binderParameters : Reading :=
  optional (! Ahead.operator ">" ·) (inOrder [rule .outerAttributes, lifetime,
    optional (! Ahead.operator ">" ·) (seq (operator ",") (rule .binderParameters))])

/-- `[const]` or `const` before a bound. -/
def constness (allowed : Bool) : Reading :=
  decide fun _ ts =>
    if Ahead.bracket ts then if allowed then bracket (keyword "const") else refuse
    else if Ahead.keyword "const" ts then if allowed then keyword "const" else refuse
    else empty

/-- Whether the path just read ends in a word without arguments. -/
def endsBare : List Tree → Bool
  | .node .path parts :: _ =>
    match parts.getLast? with
    | some (.node .segment [_]) => true
    | some (.node .segment [_, .node .genericArguments arguments]) =>
      arguments.all fun
        | .word _ => true
        | _ => false
    | _ => false
  | _ => false

def hasNode (kind : Kind) (trees : List Tree) : Bool := trees.any (Tree.isNode kind)

def hasOperator (text : String) (trees : List Tree) : Bool := trees.any (Tree.isOperator text)

/-- A trait as a bound. A binder and a question mark exclude each other; a bound with constness is
kept as written. -/
def traitBound (constAllowed : Bool) : Reading :=
  fresh (inOrder [optionalBinder, constness constAllowed, decide fun before _ =>
    inOrder [optionalOperator "?",
      decide fun built _ =>
        if hasOperator "?" built && !hasNode .binder built then optionalBinder else empty,
      path false,
      decide fun built ts =>
        if endsBare built && Ahead.paren ts then parenthesizedArguments
        else if endsBare built && Ahead.operator "::" ts && Ahead.third Ahead.paren ts then
          seq (node .unprinted (operator "::")) parenthesizedArguments
        else empty,
      decide fun built _ =>
        if hasOperator "?" built && hasNode .binder built then refuse
        else if before.all (Tree.isNode .binder) then empty
        else become .asWritten]])

/-- `use<…>` as a bound. -/
def capture : Reading :=
  node .capturedParameters
    (inOrder [keyword "use", operator "<", rule .capturedParameters, operator ">"])

def capturedParameters : Reading :=
  optional (! Ahead.operator ">" ·) (inOrder [
    cases [(Ahead.lifetime, node .lifetimeParameter lifetime),
      (Ahead.ident, node .typeParameter ident),
      (Ahead.keyword "Self", node .typeParameter anyIdent)],
    optional (! Ahead.operator ">" ·) (seq (operator ",") (rule .capturedParameters))])

/-- One bound. Only a bound by a trait becomes a node of the kind `bound`. -/
def bound (captures constAllowed : Bool) : Reading :=
  cases [(Ahead.lifetime, lifetime),
    (Ahead.keyword "use", if captures then capture else refuse),
    (Ahead.paren, node .bound (paren (traitBound constAllowed))),
    (fun _ => true, node .bound (traitBound constAllowed))]

/-- Whether a list of bounds breaks off before the next bound. -/
def BoundsEnd.stops (stop : BoundsEnd) (ts : List Token) : Bool :=
  match stop with
  | parameter => Ahead.atEnd ts || Ahead.operator "," ts || Ahead.operator ">" ts ||
      Ahead.operator "=" ts
  | argument => Ahead.operator "," ts || Ahead.operator ">" ts
  | whereClause => Ahead.atEnd ts || Ahead.brace ts || Ahead.operator "," ts ||
      Ahead.operator ";" ts || (Ahead.operator ":" ts && !Ahead.operator "::" ts) ||
      Ahead.operator "=" ts
  | associatedType => Ahead.keyword "where" ts || Ahead.operator "=" ts || Ahead.operator ";" ts
  | trait => Ahead.keyword "where" ts || Ahead.brace ts
  | .alias => Ahead.keyword "where" ts || Ahead.operator ";" ts

/-- Whether a list of bounds needs a plus sign unless it breaks off after a bound. -/
def BoundsEnd.strict : BoundsEnd → Bool
  | parameter | argument | whereClause => false
  | associatedType | trait | .alias => true

def bounds (stop : BoundsEnd) : Reading :=
  optional (! stop.stops ·) (seq (bound false true) (decide fun _ ts =>
    if stop.strict then
      if stop.stops ts then empty else seq (operator "+") (rule (.bounds stop))
    else optional (Ahead.operator "+") (seq (operator "+") (rule (.bounds stop)))))

/-- Lifetimes joined by plus signs, after a parameter or in a where clause. -/
def lifetimeBounds (inWhere : Bool) : Reading :=
  optional (fun ts => !(if inWhere then
      BoundsEnd.whereClause.stops ts || Ahead.operator ":" ts
    else Ahead.atEnd ts || Ahead.operator "," ts || Ahead.operator ">" ts))
    (seq lifetime
      (optional (Ahead.operator "+") (seq (operator "+") (rule (.lifetimeBounds inWhere)))))

def genericParameter : Reading :=
  fresh (seq (rule .outerAttributes) (cases [
    (Ahead.lifetime, enclose .lifetimeParameter (seq lifetime
      (optional (Ahead.operator ":")
        (node .bounds (seq (operator ":") (rule (.lifetimeBounds false))))))),
    (Ahead.ident, enclose .typeParameter (inOrder [ident,
      optional (Ahead.operator ":")
        (node .bounds (seq (operator ":") (rule (.bounds .parameter)))),
      optional (Ahead.operator "=") (seq (operator "=") type)])),
    (Ahead.keyword "const", enclose .constParameter (inOrder [keyword "const", ident,
      operator ":", type,
      optional (Ahead.operator "=") (seq (operator "=") constArgument)])),
    (Ahead.keyword "_", enclose .typeParameter anyIdent)]))

def genericParameters : Reading :=
  optional (! Ahead.operator ">" ·) (seq genericParameter
    (optional (! Ahead.operator ">" ·) (seq (operator ",") (rule .genericParameters))))

def generics : Reading :=
  optional (Ahead.operator "<")
    (node .generics (inOrder [operator "<", rule .genericParameters, operator ">"]))

def predicate : Reading :=
  when (fun ts => Ahead.lifetime ts && Ahead.second (Ahead.operator ":") ts)
    (inOrder [lifetime,
      node .requiredBounds (seq (operator ":") (rule (.lifetimeBounds true)))])
    (inOrder [optionalBinder, type,
      node .requiredBounds (seq (operator ":") (rule (.bounds .whereClause)))])

def predicates : Reading :=
  optional (! BoundsEnd.whereClause.stops ·) (seq predicate
    (optional (Ahead.operator ",") (seq (operator ",") (rule .predicates))))

/-- Conditions; generic parameters of their own are not allowed. -/
def whereClause : Reading :=
  optional (Ahead.keyword "where")
    (node .whereClause (seq (keyword "where")
      (when Ahead.parameterList refuse (rule .predicates))))

end CallStudy.Source.Syntax
