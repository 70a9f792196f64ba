import CallStudy.Source.Token

/-!
Syntax trees that keep every token. A tree's words and groups, read from left to right, are the
tokens it was built from (`Tree.tokens`); nodes only say what a stretch of tokens is.
-/

namespace CallStudy.Source

/-- What a stretch of source is. -/
inductive Kind where
  -- attributes and visibility
  | outerAttribute | innerAttribute | visibility
  -- names and paths
  | name | segment | path | qualifiedPath | genericArguments | parenthesizedArguments
  | lifetimeArgument | otherArgument
  -- generics
  | generics | lifetimeParameter | typeParameter | constParameter | binder | capturedParameters
  | bounds | requiredBounds | bound | whereClause
  -- types
  | pathType | invocationType | tupleType | parenthesizedType | arrayType | sliceType | pointerType
  | referenceType | neverType | inferredType | functionType | implType | objectType | returnType
  -- patterns
  | identPattern | wildPattern | restPattern | literalPattern | rangePattern | pathPattern
  | invocationPattern | tupleStructPattern | structPattern | fieldPattern | tuplePattern
  | parenthesizedPattern | slicePattern | referencePattern | constPattern | orPattern
  | typedPattern
  -- expressions
  | literal | pathExpr | invocation | structExpr | fieldValue | parenthesized | tuple | array
  | repeated | call | methodCall | fieldAccess | tupleIndices | index | await | question
  | unary | reference | rawAddress | binary (comparison : Bool) | assignment | range | cast
  | closure | letCondition | ifExpr | matchExpr | arm | whileExpr | forExpr | loopExpr
  | blockExpr | unsafeBlock | constBlock | asyncBlock | tryBlock | label
  | breakExpr | continueExpr | returnExpr | yieldExpr | underscore
  -- statements
  | statement | localVariable | nestedItem | block
  -- items
  | functionItem | signature | parameters | receiver | parameter | typeOnlyParameter | variadic
  | implItem | traitItem | moduleItem | otherItem
  /-- Source kept as it was written, of which only the tokens matter. -/
  | asWritten
  /-- Source that is read and has no printed form. -/
  | unprinted
  deriving Repr, DecidableEq, Inhabited

inductive Tree where
  /-- One word of the language: a name, a literal, a lifetime or an operator. -/
  | word (tokens : List Token)
  /-- Tokens whose meaning is left open. -/
  | raw (tokens : List Token)
  | group (delimiter : Delimiter) (content : List Tree)
  | node (kind : Kind) (children : List Tree)
  deriving Repr, Inhabited

namespace Tree

mutual
/-- The tokens a tree was built from. -/
def tokens : Tree → List Token
  | word ts => ts
  | raw ts => ts
  | group d content => [.group d (tokensList content)]
  | node _ children => tokensList children

def tokensList : List Tree → List Token
  | [] => []
  | t :: ts => t.tokens ++ tokensList ts
end

@[simp] theorem tokensList_append (a b : List Tree) :
    tokensList (a ++ b) = tokensList a ++ tokensList b := by
  induction a with
  | nil => rfl
  | cons t ts ih => simp [tokensList, ih]

def isNode (kind : Kind) : Tree → Bool
  | node k _ => k == kind
  | _ => false

def children : Tree → List Tree
  | node _ children => children
  | group _ content => content
  | _ => []

/-- The text of a word that is a single token other than punctuation. -/
def wordText? : Tree → Option String
  | word [.ident text] => some text
  | word [.literal text] => some text
  | word [.lifetime text] => some text
  | _ => none

/-- Whether a word is the operator spelled `text`. -/
def isOperator (text : String) : Tree → Bool
  | word ts => ts.length == text.length && (ts.zip text.toList).all fun
      | (.punct c _, d) => c == d
      | _ => false
  | _ => false

mutual
/-- Whether two trees are the same. -/
def same : Tree → Tree → Bool
  | word ts, word ts' | raw ts, raw ts' => ts == ts'
  | group d content, group d' content' => d == d' && sameList content content'
  | node kind parts, node kind' parts' => kind == kind' && sameList parts parts'
  | _, _ => false

def sameList : List Tree → List Tree → Bool
  | [], [] => true
  | t :: ts, t' :: ts' => t.same t' && sameList ts ts'
  | _, _ => false
end

mutual
theorem same_iff (t t' : Tree) : t.same t' ↔ t = t' := by
  cases t with
  | group d content =>
    cases t' with
    | group d' content' => simp [same, sameList_iff content content']
    | _ => simp [same]
  | node kind parts =>
    cases t' with
    | node kind' parts' => simp [same, sameList_iff parts parts']
    | _ => simp [same]
  | _ => cases t' <;> simp [same]

theorem sameList_iff (ts ts' : List Tree) : sameList ts ts' ↔ ts = ts' := by
  match ts, ts' with
  | [], [] => simp [sameList]
  | t :: ts, t' :: ts' => simp [sameList, same_iff t t', sameList_iff ts ts']
  | [], _ :: _ => simp [sameList]
  | _ :: _, [] => simp [sameList]
end

instance : DecidableEq Tree := fun t t' => decidable_of_iff _ (same_iff t t')

end Tree
end CallStudy.Source
