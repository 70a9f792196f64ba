import CallStudy.Source.Function

/-!
Measures of a function's body. They are sums over the nodes of the body, those that an
invocation's arguments stand for included: the arguments are read as expressions with commas
between them, else as statements, else not at all. Items inside a body are left out.
-/

namespace CallStudy.Source

namespace Tree

mutual
/-- The tree with the arguments of its invocations read by `inside`. -/
def openWith (inside : List Token → List Tree) : Tree → Tree
  | node .invocation parts => node .invocation (openArguments inside parts)
  | node kind children => node kind (openEach inside children)
  | group d content => group d (openEach inside content)
  | t => t

def openArguments (inside : List Token → List Tree) : List Tree → List Tree
  | [] => []
  | group d [raw ts] :: rest => group d (inside ts) :: openArguments inside rest
  | t :: rest => t.openWith inside :: openArguments inside rest

def openEach (inside : List Token → List Tree) : List Tree → List Tree
  | [] => []
  | t :: ts => t.openWith inside :: openEach inside ts
end

/-- The parts of a statement in an invocation, which is itself the statement that counts. -/
def statementParts : Tree → List Tree
  | node .statement parts => parts
  | node .nestedItem _ => []
  | t => [t]

/-- The trees that the tokens of an invocation stand for. -/
def argumentTrees (tokens : List Token) : List Tree :=
  match Syntax.parseArguments? tokens with
  | some trees => trees
  | none =>
    match Syntax.parseStatements? tokens with
    | some trees => trees.flatMap statementParts
    | none => []

/-- Arguments with all invocations in them opened, at most `depth` inside one another. -/
def argumentsOpened : Nat → List Token → List Tree
  | 0, _ => []
  | depth + 1, tokens => openEach (argumentsOpened depth) (argumentTrees tokens)

/-- Trees with all their invocations opened. Each lies in fewer tokens than the one around it, so
the number of tokens bounds their depth. -/
def opened (trees : List Tree) : List Tree :=
  openEach (argumentsOpened (Token.sizeList (tokensList trees))) trees

mutual
/-- The sum of `f` over the nodes of a tree that are measured. -/
def total (f : Kind → List Tree → Nat) : Tree → Nat
  | node .nestedItem _ => 0
  | node .asWritten _ => 0
  | node kind children => f kind children + totalOf f children
  | group _ content => totalOf f content
  | _ => 0

def totalOf (f : Kind → List Tree → Nat) : List Tree → Nat
  | [] => 0
  | t :: ts => t.total f + totalOf f ts
end

mutual
/-- The nodes of identifier patterns in a pattern. Arguments of invocations do not count. -/
def bindings : Tree → Nat
  | node .invocation _ => 0
  | node .asWritten _ => 0
  | node kind children => (if kind = .identPattern then 1 else 0) + bindingsOf children
  | group _ content => bindingsOf content
  | _ => 0

def bindingsOf : List Tree → Nat
  | [] => 0
  | t :: ts => t.bindings + bindingsOf ts
end

/-- The arms between the braces of a `match`. -/
def arms (parts : List Tree) : List Tree :=
  match parts.getLast? with
  | some (group _ content) => content.filter (isNode .arm)
  | _ => []

/-- How many branches a node adds. -/
def branches (kind : Kind) (parts : List Tree) : Nat :=
  match kind with
  | .ifExpr | .forExpr | .whileExpr | .loopExpr => 1
  | .matchExpr => (arms parts).length - 1
  | _ => 0

/-- Whether a statement is a block and perhaps a semicolon. -/
def isBlockStatement (parts : List Tree) : Bool :=
  match parts.reverse with
  | node .blockExpr _ :: _ => true
  | word _ :: node .blockExpr _ :: _ => true
  | _ => false

def statementCount (kind : Kind) (parts : List Tree) : Nat :=
  if kind = .statement ∧ !isBlockStatement parts then 1 else 0

/-- What stands behind the word `text`. -/
def after (text : String) : List Tree → Option Tree
  | t :: next :: rest => if t.wordText? = some text then some next else after text (next :: rest)
  | _ => none

/-- The identifiers that a `let` or `for` binds. -/
def localCount (kind : Kind) (parts : List Tree) : Nat :=
  match kind with
  | .localVariable => ((after "let" parts).map bindings).getD 0
  | .forExpr => ((after "for" parts).map bindings).getD 0
  | _ => 0

/-- The name that a node calls: the last word of a path that is called, or a method. -/
def calledName? (kind : Kind) (parts : List Tree) : Option String :=
  match kind with
  | .call =>
    match parts.reverse with
    | _ :: node .pathExpr [path] :: _ => path.lastWord?
    | _ => none
  | .methodCall => some (nameOf parts)
  | _ => none

def callCount (name : String) (kind : Kind) (parts : List Tree) : Nat :=
  if calledName? kind parts = some name then 1 else 0

end Tree

/-- Types that a return value can have without being complex. -/
def primitiveTypes : List String :=
  ["bool", "char", "i8", "i16", "i32", "i64", "i128", "isize", "u8", "u16", "u32", "u64", "u128",
    "usize", "f32", "f64"]

namespace Function

/-- A function with its body, the invocations in which are opened. -/
def openedBody (f : Function) : List Tree := Tree.opened f.body

def cyclomaticComplexity (f : Function) : Nat := 1 + Tree.totalOf Tree.branches f.openedBody

def parameterCount (f : Function) : Nat := f.typedParameters.length

def localVariableCount (f : Function) : Nat := Tree.totalOf Tree.localCount f.openedBody

def statementCount (f : Function) : Nat := Tree.totalOf Tree.statementCount f.openedBody

/-- The words of the function as it is printed, its documentation left out. -/
def tokenCount (f : Function) : Nat :=
  Piece.countList (f.parts.flatMap Tree.printed)

/-- A return type is complex unless it is the unit type or the name of a primitive type. -/
def isComplexType : Tree → Bool
  | .node .tupleType [.group _ []] => false
  | .node .pathType [path] =>
    match path.soleWord? with
    | some word => !primitiveTypes.contains word
    | none => true
  | _ => true

def isComplexReturn (f : Function) : Bool := (f.returnType?.map isComplexType).getD false

/-- A type parameter, or a parameter whose type is an `impl` of bounds, makes it generic. -/
def isGeneric (f : Function) : Bool :=
  f.genericParameters.any (Tree.isNode .typeParameter) ||
    f.typedParameters.any fun p => ((parameterType? p).map (Tree.isNode .implType)).getD false

/-- The calls of `name` in a body, by path or as a method. -/
def callsOf (name : String) (f : Function) : Nat :=
  Tree.totalOf (Tree.callCount name) f.openedBody

end Function
end CallStudy.Source
