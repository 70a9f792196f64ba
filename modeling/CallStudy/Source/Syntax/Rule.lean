import CallStudy.Source.Ahead

/-!
The names of the rules that refer to one another. A rule is named where reading has to recur: for
nesting (types, patterns, expressions, items) and for lists of any length.
-/

namespace CallStudy.Source.Syntax

/-- How tightly an operator holds its operands, the loosest first. -/
inductive Level where
  | lowest
  | assignment
  | range
  | disjunction
  | conjunction
  | binding
  | comparison
  | bitOr
  | bitXor
  | bitAnd
  | shift
  | sum
  | product
  | cast
  deriving Repr, DecidableEq

namespace Level

def rank : Level → Nat
  | lowest => 0
  | assignment => 1
  | range => 2
  | disjunction => 3
  | conjunction => 4
  | binding => 5
  | comparison => 6
  | bitOr => 7
  | bitXor => 8
  | bitAnd => 9
  | shift => 10
  | sum => 11
  | product => 12
  | cast => 13

/-- Whether `a` holds no tighter than `b`. -/
def le (a b : Level) : Bool := a.rank ≤ b.rank

end Level

/-- Where a list of bounds may break off before a bound. -/
inductive BoundsEnd where
  /-- In the parameters of a generic item. -/
  | parameter
  /-- In an argument that constrains an associated type. -/
  | argument
  /-- In a where clause. -/
  | whereClause
  /-- After the name of an associated type. -/
  | associatedType
  /-- After the name of a trait. -/
  | trait
  /-- After the equals sign of a trait alias. -/
  | alias
  deriving Repr, DecidableEq

/-- Whose members are read. -/
inductive Owner where
  | implementation
  | trait
  | foreign
  deriving Repr, DecidableEq

/-- Rules of the grammar. `structs` says whether a path may be followed by a struct's fields. -/
inductive Rule where
  /-- Elements up to the end of a group, with commas between them and perhaps after the last. -/
  | commaList (element : Rule)
  /-- Elements up to the end of a group. -/
  | untilEnd (element : Rule)
  | outerAttributes
  | innerAttributes
  -- paths
  | pathRest (turbofish : Bool)
  | plainPathRest
  | qualifiedRest (turbofish : Bool)
  | genericArguments
  -- generics
  | genericParameters
  | binderParameters
  | capturedParameters
  | lifetimeBounds (inWhere : Bool)
  | bounds (stop : BoundsEnd)
  | predicates
  -- types
  | type (plus : Bool)
  | typeBounds (plus captures constness : Bool)
  | moreBounds (all : Bool)
  | functionTypeParameters (first : Bool)
  -- patterns
  | pattern
  | moreAlternatives
  | structPatternFields
  | tuplePatternFields
  | slicePatternFields
  | onePattern
  -- expressions
  | expression (structs : Bool)
  | operand (structs : Bool)
  | operators (structs : Bool) (base : Level)
  | tighterOperators (structs : Bool) (level : Level)
  | trailers
  | structFields
  | closureParameters
  | ifChain
  | arm
  | leadingExpression
  -- statements
  | statements
  -- items
  | item
  | useTree (crateRoot : Bool)
  | useTrees (crateRoot : Bool)
  | namedField
  | unnamedField
  | variant
  | parameters (first : Bool)
  | member (owner : Owner)
  | file
  deriving Repr

abbrev Reading := Grammar Rule

open Grammar

def commaList (element : Rule) : Reading :=
  optional (! Ahead.atEnd ·) (inOrder [rule element,
    optional (! Ahead.atEnd ·) (seq (operator ",") (rule (.commaList element)))])

def untilEnd (element : Rule) : Reading :=
  optional (! Ahead.atEnd ·) (seq (rule element) (rule (.untilEnd element)))

def expr (structs : Bool) : Reading := rule (.expression structs)

def type : Reading := rule (.type true)

/-- A type after which a plus sign is not part of it. -/
def typeWithoutPlus : Reading := rule (.type false)

/-- A literal, of which a minus sign is a word of its own. -/
def literal : Reading :=
  node .literal (cases [(Ahead.operator "-", seq (operator "-") literalToken),
    (Ahead.literalToken, literalToken), (Ahead.literal, anyIdent)])

def statements : Reading := rule .statements

def block : Reading := node .block (brace statements)

/-- A block that may begin with attributes of what it belongs to. -/
def attributedBlock : Reading := node .block (brace (seq (rule .innerAttributes) statements))

/-- The value of a const argument or of a const parameter: a literal, a name or a block. -/
def constArgument : Reading :=
  cases [(Ahead.literal, literal), (Ahead.ident, node .pathExpr (node .path (node .segment ident))),
    (Ahead.brace, node .blockExpr attributedBlock)]

end CallStudy.Source.Syntax
