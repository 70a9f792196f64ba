import CallStudy.Source.Syntax.Pattern

/-!
Expressions and statements. Binary operators are read by their level: the operand after an
operator takes in every operator that holds tighter. A statement that begins with a block ends
with it.
-/

namespace CallStudy.Source.Syntax

open Grammar

/-- Binary operators, longer spellings first. -/
def binaryOperators : List (String × Level) :=
  [("+=", .assignment), ("-=", .assignment), ("*=", .assignment), ("/=", .assignment),
    ("%=", .assignment), ("^=", .assignment), ("&=", .assignment), ("|=", .assignment),
    ("<<=", .assignment), (">>=", .assignment), ("&&", .conjunction), ("||", .disjunction),
    ("<<", .shift), (">>", .shift), ("==", .comparison), ("<=", .comparison),
    ("!=", .comparison), (">=", .comparison), ("+", .sum), ("-", .sum), ("*", .product),
    ("/", .product), ("%", .product), ("^", .bitXor), ("&", .bitAnd), ("|", .bitOr),
    ("<", .comparison), (">", .comparison)]

def binaryOperator? (ts : List Token) : Option (String × Level) :=
  binaryOperators.find? fun o => Ahead.operator o.1 ts

/-- The level of the operator ahead, the lowest where there is none. -/
def levelAhead (ts : List Token) : Level :=
  match binaryOperator? ts with
  | some (_, level) => level
  | none =>
    if Ahead.operator "=" ts && !Ahead.operator "=>" ts then .assignment
    else if Ahead.operator ".." ts then .range
    else if Ahead.keyword "as" ts then .cast
    else .lowest

def headIs (kind : Kind) : List Tree → Bool
  | t :: _ => t.isNode kind
  | [] => false

/-- Expressions that end a statement without a semicolon and an arm without a comma. -/
def blockLike : List Tree → Bool
  | .node kind _ :: _ =>
    kind ∈ [.ifExpr, .matchExpr, .blockExpr, .unsafeBlock, .whileExpr, .loopExpr, .forExpr,
      .tryBlock, .constBlock]
  | _ => false

def rightOperand (structs : Bool) (level : Level) : Reading :=
  fresh (seq (rule (.operand structs)) (rule (.tighterOperators structs level)))

def tighterOperators (structs : Bool) (level : Level) : Reading :=
  decide fun built ts =>
    let next := levelAhead ts
    if headIs .range built then empty
    else if !next.le level || (next == level && level == .assignment) then
      seq (rule (.operators structs next)) (rule (.tighterOperators structs level))
    else empty

/-- What cannot begin the upper end of a range without one. -/
def endsOpenRange (structs : Bool) (ts : List Token) : Bool :=
  Ahead.atEnd ts || Ahead.operator "," ts || Ahead.operator ";" ts ||
    (Ahead.operator "." ts && !Ahead.operator ".." ts) || Ahead.operator "?" ts ||
    Ahead.operator "=>" ts || (!structs && Ahead.brace ts) || Ahead.operator "=" ts ||
    Ahead.operator "+" ts || Ahead.operator "/" ts || Ahead.operator "%" ts ||
    Ahead.operator "^" ts || Ahead.operator ">" ts || Ahead.operator "<=" ts ||
    Ahead.operator "!=" ts || Ahead.operator "-=" ts || Ahead.operator "*=" ts ||
    Ahead.operator "&=" ts || Ahead.operator "|=" ts || Ahead.operator "<<=" ts ||
    Ahead.keyword "as" ts

def rangeLimits (structs : Bool) : Reading :=
  decide fun _ ts =>
    if Ahead.operator "..=" ts then seq (operator "..=") (rightOperand structs .range)
    else if Ahead.operator "..." ts then refuse
    else seq (operator "..")
      (optional (! endsOpenRange structs ·) (rightOperand structs .range))

/-- A cast cannot be followed by a member, a question mark, an index or arguments. -/
def afterCast : Reading :=
  decide fun _ ts =>
    if (Ahead.operator "." ts && !Ahead.operator ".." ts) || Ahead.operator "?" ts ||
        Ahead.bracket ts || Ahead.paren ts then refuse
    else empty

/-- Operators of level `base` or tighter after the operand just read. Comparisons do not chain
and a range is no left operand. -/
def operators (structs : Bool) (base : Level) : Reading :=
  decide fun built ts =>
    let goOn := rule (.operators structs base)
    if headIs .range built then empty
    else
      match binaryOperator? ts with
      | some (spelling, level) =>
        if !base.le level then empty
        else if level == .comparison && headIs (.binary true) built then refuse
        else seq (enclose (.binary (level == .comparison))
          (seq (operator spelling) (rightOperand structs level))) goOn
      | none =>
        if base.le .assignment && Ahead.operator "=" ts && !Ahead.operator "=>" ts then
          seq (enclose .assignment (seq (operator "=") (rightOperand structs .assignment))) goOn
        else if base.le .range && Ahead.operator ".." ts then
          seq (enclose .range (rangeLimits structs)) goOn
        else if base.le .cast && Ahead.keyword "as" ts then
          seq (enclose .cast (inOrder [keyword "as", typeWithoutPlus, afterCast])) goOn
        else empty

def expression (structs : Bool) : Reading :=
  seq (rule (.operand structs)) (rule (.operators structs .lowest))

/-- Arguments of a call. -/
def callArguments : Reading := paren (rule (.commaList (.expression true)))

/-- Whether a number with points stands for positions: each part is a plain small integer. -/
def positions? (text : String) : Option (List String) :=
  let parts := text.splitOn "."
  let parts := if text.endsWith "." then parts.dropLast else parts
  if parts.all fun part => match Literal.integerParts? part with
      | some (value, suffix) => suffix == "" && value < UInt32.size
      | none => false
  then some parts else none

/-- A member after a point: a call where arguments or a turbofish follow a name, else a field. -/
def memberAfter (point : Reading) (ts : List Token) : Reading :=
  if Ahead.keyword "await" ts then enclose .await (seq point (keyword "await"))
  else if Ahead.ident ts then
    if Ahead.operator "::" (ts.drop 1) then
      enclose .methodCall (inOrder [point, node .name ident, turbofishArguments, callArguments])
    else if Ahead.paren (ts.drop 1) then
      enclose .methodCall (inOrder [point, node .name ident, callArguments])
    else enclose .fieldAccess (seq point member)
  else enclose .fieldAccess (seq point member)

/-- What follows a point. A number such as `0.1` is two positions; one that ends in a point is
followed by another member. -/
def pointMember : Reading :=
  decide fun _ ts =>
    match ts.drop 1 with
    | .literal text :: rest =>
      if Literal.isFloat text then
        match positions? text with
        | some _ =>
          seq (enclose .tupleIndices (seq (operator ".") literalToken))
            (if text.endsWith "." then memberAfter empty rest else empty)
        | none => refuse
      else memberAfter (operator ".") (ts.drop 1)
    | rest => memberAfter (operator ".") rest

/-- Calls, members, indices and question marks after an operand. -/
def trailers : Reading :=
  decide fun built ts =>
    let goOn := rule .trailers
    if Ahead.paren ts then seq (enclose .call callArguments) goOn
    else if Ahead.operator "." ts && !Ahead.operator ".." ts && !headIs .range built then
      seq pointMember goOn
    else if Ahead.bracket ts then seq (enclose .index (bracket (expr true))) goOn
    else if Ahead.operator "?" ts && !headIs .range built then
      seq (enclose .question (operator "?")) goOn
    else empty

/-- Attributes before an operand do not go with an open range. -/
def afterAttributed : Reading :=
  decide fun built _ =>
    if built.length == 1 then empty
    else if headIs .range built then refuse
    else if headIs .asWritten built then become .asWritten
    else empty

def fieldValue : Reading :=
  node .fieldValue (seq (rule .outerAttributes) (decide fun _ ts =>
    if Ahead.ident ts && !Ahead.second (Ahead.operator ":") ts then member
    else inOrder [member, operator ":", expr true]))

def structFields : Reading :=
  optional (! Ahead.atEnd ·) (decide fun _ ts =>
    if Ahead.operator ".." ts then
      seq (operator "..") (optional (! Ahead.atEnd ·) (expr true))
    else seq fieldValue
      (optional (! Ahead.atEnd ·) (seq (operator ",") (rule .structFields))))

def pathExpr (structs : Bool) : Reading :=
  fresh (seq (qualifiedPath true) (decide fun built ts =>
    if invoked built ts then invocationRest
    else if structs && Ahead.brace ts then enclose .structExpr (brace (rule .structFields))
    else become .pathExpr))

/-- Parentheses around one expression group it; with a comma or nothing they make a tuple. -/
def parenthesized : Reading :=
  fresh (seq (paren (rule (.commaList (.expression true)))) (decide fun built _ =>
    match built with
    | .group _ content :: _ =>
      if content.isEmpty || hasOperator "," content then become .tuple
      else become .parenthesized
    | _ => refuse))

def arrayContent : Reading :=
  optional (! Ahead.atEnd ·) (seq (expr true) (decide fun _ ts =>
    if Ahead.operator ";" ts then seq (operator ";") (expr true)
    else optional (! Ahead.atEnd ·)
      (seq (operator ",") (rule (.commaList (.expression true))))))

def array : Reading :=
  fresh (seq (bracket arrayContent) (decide fun built _ =>
    match built with
    | .group _ content :: _ =>
      if hasOperator ";" content then become .repeated else become .array
    | _ => refuse))

def closureParameter : Reading :=
  fresh (inOrder [rule .outerAttributes, onePattern,
    optional (Ahead.operator ":") (inOrder [operator ":", type, become .typedPattern])])

def closureParameters : Reading :=
  optional (! Ahead.operator "|" ·) (seq closureParameter
    (optional (! Ahead.operator "|" ·) (seq (operator ",") (rule .closureParameters))))

def closure (structs : Bool) : Reading :=
  node .closure (inOrder [optionalBinder, optionalKeyword "const", optionalKeyword "static",
    optionalKeyword "async", optionalKeyword "move", operator "|", rule .closureParameters,
    operator "|",
    when (Ahead.operator "->")
      (inOrder [node .returnType (seq (operator "->") type), node .blockExpr block])
      (expr structs)])

def letCondition (structs : Bool) : Reading :=
  node .letCondition (inOrder [keyword "let", pattern, operator "=",
    fresh (seq (rule (.operand structs)) (rule (.operators structs .comparison)))])

def ifChain : Reading :=
  node .ifExpr (inOrder [keyword "if", expr false, block,
    optional (Ahead.keyword "else") (seq (keyword "else") (cases [
      (Ahead.keyword "if", rule .ifChain), (Ahead.brace, node .blockExpr block)]))])

def whileWords : Reading := inOrder [keyword "while", expr false, attributedBlock]

def forWords : Reading :=
  inOrder [keyword "for", pattern, keyword "in", expr false, attributedBlock]

def loopWords : Reading := seq (keyword "loop") attributedBlock

def arm : Reading :=
  node .arm (inOrder [rule .outerAttributes, pattern,
    optional (Ahead.keyword "if") (seq (keyword "if") (expr true)),
    operator "=>", rule .leadingExpression,
    decide fun built _ =>
      if blockLike built then optionalOperator ","
      else optional (! Ahead.atEnd ·) (operator ",")])

def matchExpr : Reading :=
  node .matchExpr (inOrder [keyword "match", expr false,
    brace (seq (rule .innerAttributes) (rule (.untilEnd .arm)))])

def labeled : Reading :=
  fresh (seq (node .label (seq lifetime (operator ":"))) (cases [
    (Ahead.keyword "while", enclose .whileExpr whileWords),
    (Ahead.keyword "for", enclose .forExpr forWords),
    (Ahead.keyword "loop", enclose .loopExpr loopWords),
    (Ahead.brace, enclose .blockExpr attributedBlock)]))

/-- A label for `break` must not begin a labeled loop. -/
def breakExpr (structs : Bool) : Reading :=
  node .breakExpr (seq (keyword "break") (decide fun _ ts =>
    if Ahead.lifetime ts && Ahead.second (Ahead.operator ":") ts then refuse
    else seq (optional Ahead.lifetime lifetime)
      (optional (fun ts => Ahead.expression ts && (structs || !Ahead.brace ts)) (expr true))))

def builtinExpr : Reading :=
  node .asWritten (inOrder [keyword "builtin", operator "#", ident, paren remainder])

/-- Whether `for` begins the binder of a closure. -/
def isBinder (ts : List Token) : Bool :=
  Ahead.keyword "for" ts && Ahead.parameterList (ts.drop 1)

def startsClosure (ts : List Token) : Bool :=
  Ahead.operator "|" ts || Ahead.keyword "move" ts || isBinder ts ||
    (Ahead.keyword "const" ts && !Ahead.second Ahead.brace ts) || Ahead.keyword "static" ts ||
    (Ahead.keyword "async" ts &&
      (Ahead.second (Ahead.operator "|") ts || Ahead.second (Ahead.keyword "move") ts))

def startsPathExpr (ts : List Token) : Bool :=
  Ahead.ident ts || Ahead.operator "::" ts || Ahead.operator "<" ts || Ahead.keyword "self" ts ||
    Ahead.keyword "Self" ts || Ahead.keyword "super" ts || Ahead.keyword "crate" ts ||
    (Ahead.keyword "try" ts &&
      (Ahead.second (Ahead.operator "!") ts || Ahead.second (Ahead.operator "::") ts))

def atom (structs : Bool) : Reading :=
  cases [
    (Ahead.literal, literal),
    (fun ts => Ahead.keyword "async" ts && (Ahead.second Ahead.brace ts ||
        (Ahead.second (Ahead.keyword "move") ts && Ahead.third Ahead.brace ts)),
      node .asyncBlock (inOrder [keyword "async", optionalKeyword "move", block])),
    (fun ts => Ahead.keyword "try" ts && Ahead.second Ahead.brace ts,
      node .tryBlock (seq (keyword "try") block)),
    (startsClosure, closure structs),
    (fun ts => Ahead.keyword "builtin" ts && Ahead.second (Ahead.operator "#") ts, builtinExpr),
    (startsPathExpr, pathExpr structs),
    (Ahead.paren, parenthesized),
    (Ahead.keyword "break", breakExpr structs),
    (Ahead.keyword "continue", node .continueExpr
      (seq (keyword "continue") (optional Ahead.lifetime lifetime))),
    (Ahead.keyword "return", node .returnExpr
      (seq (keyword "return") (optional Ahead.expression (expr true)))),
    (Ahead.keyword "become", node .asWritten (seq (keyword "become") (expr true))),
    (Ahead.bracket, array),
    (Ahead.keyword "let", letCondition structs),
    (Ahead.keyword "if", rule .ifChain),
    (Ahead.keyword "while", node .whileExpr whileWords),
    (Ahead.keyword "for", node .forExpr forWords),
    (Ahead.keyword "loop", node .loopExpr loopWords),
    (Ahead.keyword "match", matchExpr),
    (Ahead.keyword "yield", node .yieldExpr
      (seq (keyword "yield") (optional Ahead.expression (expr true)))),
    (Ahead.keyword "unsafe", node .unsafeBlock (seq (keyword "unsafe") attributedBlock)),
    (Ahead.keyword "const", constBlock),
    (Ahead.brace, node .blockExpr attributedBlock),
    (Ahead.operator "..", node .range (rangeLimits structs)),
    (Ahead.keyword "_", node .underscore anyIdent),
    (Ahead.lifetime, labeled)]

/-- Whether `&` takes an address without making a reference. -/
def isRawAddress (ts : List Token) : Bool :=
  Ahead.keyword "raw" ts &&
    (Ahead.second (Ahead.keyword "mut") ts || Ahead.second (Ahead.keyword "const") ts)

/-- An operand with its attributes, its operators before it and its trailers. -/
def operand (structs : Bool) : Reading :=
  let inner := rule (.operand structs)
  seq (rule .outerAttributes) (decide fun _ ts =>
    if Ahead.operator "&" ts then
      if isRawAddress (ts.drop 1) then
        node .rawAddress (inOrder [operator "&", keyword "raw",
          when (Ahead.keyword "mut") (keyword "mut") (keyword "const"), inner])
      else node .reference (inOrder [operator "&", optionalKeyword "mut", inner])
    else if Ahead.operator "*" ts then node .unary (seq (operator "*") inner)
    else if Ahead.operator "!" ts then node .unary (seq (operator "!") inner)
    else if Ahead.operator "-" ts then node .unary (seq (operator "-") inner)
    else inOrder [atom structs, rule .trailers, afterAttributed])

/-- An expression at the start of a statement or as the body of an arm. -/
def leadingExpression : Reading :=
  inOrder [rule .outerAttributes,
    cases [
      (Ahead.keyword "if", rule .ifChain),
      (Ahead.keyword "while", node .whileExpr whileWords),
      (fun ts => Ahead.keyword "for" ts && !isBinder ts, node .forExpr forWords),
      (Ahead.keyword "loop", node .loopExpr loopWords),
      (Ahead.keyword "match", matchExpr),
      (fun ts => Ahead.keyword "try" ts && Ahead.second Ahead.brace ts,
        node .tryBlock (seq (keyword "try") block)),
      (Ahead.keyword "unsafe", node .unsafeBlock (seq (keyword "unsafe") attributedBlock)),
      (fun ts => Ahead.keyword "const" ts && Ahead.second Ahead.brace ts, constBlock),
      (Ahead.brace, node .blockExpr attributedBlock),
      (Ahead.lifetime, labeled),
      (fun _ => true, rule (.operand true))],
    decide fun built ts =>
      if !blockLike built then rule (.operators true .lowest)
      else if (Ahead.operator "." ts && !Ahead.operator ".." ts) || Ahead.operator "?" ts then
        seq (rule .trailers) (rule (.operators true .lowest))
      else empty]

/-- Whether the tokens just read end with a block. -/
def endsInBrace : List Tree → Bool
  | t :: _ =>
    match t.tokens.getLast? with
    | some (.group .brace _) => true
    | _ => false
  | [] => false

def localVariable : Reading :=
  node .localVariable (inOrder [keyword "let",
    fresh (seq onePattern (optional (Ahead.operator ":")
      (inOrder [operator ":", type, become .typedPattern]))),
    optional (Ahead.operator "=") (inOrder [operator "=", expr true,
      decide fun built ts =>
        if !endsInBrace built && Ahead.keyword "else" ts then
          seq (keyword "else") (node .blockExpr block)
        else empty]),
    operator ";"])

/-- Whether an item stands ahead, not an expression. -/
def startsItem (ts : List Token) : Bool :=
  let next := ts.drop 1
  let afterNext := ts.drop 2
  let invokesByName := match Ahead.afterPlainPath ts with
    | some rest => Ahead.operator "!" rest &&
        (Ahead.ident (rest.drop 1) || Ahead.keyword "try" (rest.drop 1))
    | none => false
  Ahead.keyword "pub" ts || (Ahead.keyword "crate" ts && !Ahead.operator "::" next) ||
    Ahead.keyword "extern" ts || Ahead.keyword "use" ts ||
    (Ahead.keyword "static" ts && (Ahead.keyword "mut" next || (Ahead.ident next &&
      !(Ahead.keyword "async" next &&
        (Ahead.keyword "move" afterNext || Ahead.operator "|" afterNext))))) ||
    (Ahead.keyword "const" ts && !(Ahead.brace next || Ahead.keyword "static" next ||
      (Ahead.keyword "async" next && !(Ahead.keyword "unsafe" afterNext ||
        Ahead.keyword "extern" afterNext || Ahead.keyword "fn" afterNext)) ||
      Ahead.keyword "move" next || Ahead.operator "|" next)) ||
    (Ahead.keyword "unsafe" ts && !Ahead.brace next) ||
    (Ahead.keyword "async" ts && (Ahead.keyword "unsafe" next || Ahead.keyword "extern" next ||
      Ahead.keyword "fn" next)) ||
    Ahead.keyword "fn" ts || Ahead.keyword "mod" ts || Ahead.keyword "type" ts ||
    Ahead.keyword "struct" ts || Ahead.keyword "enum" ts ||
    (Ahead.keyword "union" ts && Ahead.ident next) ||
    (Ahead.keyword "auto" ts && Ahead.keyword "trait" next) || Ahead.keyword "trait" ts ||
    (Ahead.keyword "default" ts &&
      (Ahead.keyword "unsafe" next || Ahead.keyword "impl" next)) ||
    Ahead.keyword "impl" ts || Ahead.keyword "macro" ts || invokesByName

/-- Whether an invocation in braces is a statement of its own. -/
def startsInvocationStatement (ts : List Token) : Bool :=
  match Ahead.afterPlainPath ts with
  | some rest =>
    let next := rest.drop 2
    Ahead.operator "!" rest && Ahead.brace (rest.drop 1) &&
      !((Ahead.operator "." next && !Ahead.operator ".." next) || Ahead.operator "?" next)
  | none => false

/-- A statement after its attributes; `item` reads an item. -/
def statementBody (item : Reading) : Reading :=
  decide fun _ ts =>
    if startsInvocationStatement ts then
      enclose .statement (seq
        (node .invocation (inOrder [plainPath, operator "!", rawGroup])) (optionalOperator ";"))
    else if Ahead.keyword "let" ts then enclose .statement localVariable
    else if startsItem ts then seq item (become .nestedItem)
    else enclose .statement (seq (rule .leadingExpression) (optionalOperator ";"))

/-- Whether the statement just read has to be the last one. -/
def mustBeLast : List Tree → Bool
  | .node .statement parts :: _ =>
    match parts.getLast? with
    | some (.node .localVariable _) => false
    | some (.node .invocation parts) => !endsInBrace parts.reverse
    | some (.word _) => false
    | some last => !blockLike [last]
    | none => false
  | _ => false

def statementsRule (item : Reading) : Reading :=
  optional (! Ahead.atEnd ·) (decide fun _ ts =>
    if Ahead.operator ";" ts then seq (node .statement (operator ";")) statements
    else seq (fresh (seq (rule .outerAttributes) (statementBody item)))
      (decide fun built ts =>
        if Ahead.atEnd ts then empty
        else if mustBeLast built then refuse
        else statements))

end CallStudy.Source.Syntax
