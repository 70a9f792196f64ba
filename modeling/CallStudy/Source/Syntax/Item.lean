import CallStudy.Source.Syntax.Expr

/-!
Items, their members and source files. Functions, implementations, traits and modules keep their
parts apart for later use; of all other items only the tokens matter.
-/

namespace CallStudy.Source.Syntax

open Grammar

def itemName : Reading := node .name ident

def keywordOr (text : String) (g : Reading) : Reading :=
  when (Ahead.keyword text) (keyword text) g

/-- A type, then a semicolon; each part before it as the tokens ahead have them. -/
def optionalValue : Reading :=
  optional (Ahead.operator "=") (seq (operator "=") (expr true))

/-- Whether `self` stands ahead as a method's receiver. -/
def isReceiver (ts : List Token) : Bool :=
  let byReference := Ahead.operator "&" ts
  let ts := if byReference then ts.drop 1 else ts
  let ts := if byReference && Ahead.lifetime ts then ts.drop 1 else ts
  let ts := Ahead.dropKeyword "mut" ts
  Ahead.keyword "self" ts && (byReference || !Ahead.operator "::" (ts.drop 1))

def receiver : Reading :=
  decide fun _ ts =>
    if Ahead.operator "&" ts then
      enclose .receiver (inOrder [operator "&", optional Ahead.lifetime lifetime,
        optionalKeyword "mut", keyword "self"])
    else
      enclose .receiver (inOrder [optionalKeyword "mut", keyword "self",
        optional (Ahead.operator ":") (seq (operator ":") type)])

def parameter (first : Bool) : Reading :=
  fresh (seq (rule .outerAttributes) (decide fun _ ts =>
    if Ahead.operator "..." ts then enclose .variadic (operator "...")
    else if isReceiver ts then if first then receiver else refuse
    else if Ahead.ident ts && Ahead.second (Ahead.operator "<") ts then
      enclose .typeOnlyParameter type
    else inOrder [onePattern, operator ":",
      when (Ahead.operator "...") (enclose .variadic (operator "..."))
        (enclose .parameter type)]))

/-- Parameters; nothing may follow a variadic one but a comma. -/
def parameters (first : Bool) : Reading :=
  optional (! Ahead.atEnd ·) (seq (parameter first) (decide fun built ts =>
    if Ahead.atEnd ts then empty
    else if headIs .variadic built then operator ","
    else seq (operator ",") (rule (.parameters false))))

def signature (allowSafe : Bool) : Reading :=
  node .signature (inOrder [optionalKeyword "const", optionalKeyword "async",
    if allowSafe then
      when (Ahead.keyword "safe") (keyword "safe") (optionalKeyword "unsafe")
    else optionalKeyword "unsafe",
    convention, keyword "fn", itemName, generics,
    node .parameters (paren (rule (.parameters true))), returnType true, whereClause])

/-- A body, or a semicolon in its place. -/
def bodyOrNone (without : Kind) : Reading :=
  when (Ahead.operator ";") (enclose without (operator ";"))
    (enclose .functionItem attributedBlock)

def externCrate : Reading :=
  enclose .otherItem (inOrder [visibility, keyword "extern", keyword "crate",
    keywordOr "self" ident,
    optional (Ahead.keyword "as") (seq (keyword "as") (keywordOr "_" ident)),
    operator ";"])

def foreignModule : Reading :=
  enclose .otherItem (inOrder [optionalKeyword "unsafe", keyword "extern",
    optional Ahead.quotedLiteral literalToken,
    brace (seq (rule .innerAttributes) (rule (.untilEnd (.member .foreign))))])

def useTree (crateRoot : Bool) : Reading :=
  cases [
    (fun ts => Ahead.ident ts || Ahead.keyword "self" ts || Ahead.keyword "super" ts ||
        Ahead.keyword "crate" ts || Ahead.keyword "try" ts,
      seq anyIdent (decide fun _ ts =>
        if Ahead.operator "::" ts then seq (operator "::") (rule (.useTree false))
        else optional (Ahead.keyword "as") (seq (keyword "as") (keywordOr "_" ident)))),
    (Ahead.operator "*", operator "*"),
    (Ahead.brace, brace (rule (.useTrees crateRoot)))]

def useTrees (crateRoot : Bool) : Reading :=
  optional (! Ahead.atEnd ·) (inOrder [
    decide fun _ ts =>
      if crateRoot && Ahead.operator "::" ts then seq (operator "::") (rule (.useTree false))
      else rule (.useTree crateRoot),
    optional (! Ahead.atEnd ·) (seq (operator ",") (rule (.useTrees crateRoot)))])

def useItem : Reading :=
  enclose .otherItem (inOrder [visibility, keyword "use", decide fun _ ts =>
    if Ahead.operator "::" ts then seq (operator "::") (rule (.useTree false))
    else rule (.useTree true), operator ";"])

def staticItem : Reading :=
  inOrder [visibility, keyword "static", optionalKeyword "mut", ident,
    when (Ahead.operator "=") (enclose .asWritten (seq optionalValue (operator ";")))
      (inOrder [operator ":", type, when (Ahead.operator ";") (enclose .asWritten (operator ";"))
        (enclose .otherItem (inOrder [operator "=", expr true, operator ";"]))])]

/-- A constant after what comes before `const`; with generics or conditions, or without a value
that it needs, it is kept as written. -/
def constItem (needsValue : Bool) : Reading :=
  inOrder [keyword "const", keywordOr "_" ident, generics, operator ":", type, optionalValue,
    whereClause, operator ";", decide fun built _ =>
      if (hasOperator "=" built || !needsValue) && !hasNode .generics built &&
          !hasNode .whereClause built then become .otherItem
      else become .asWritten]

/-- An associated or free type after its visibility. Conditions stand before the equals sign,
after it, or in either place. -/
def typeItem (before after : Bool) : Reading :=
  inOrder [keyword "type", ident, generics,
    optional (Ahead.operator ":") (node .bounds (seq (operator ":") (rule (.bounds .associatedType)))),
    if before then whereClause else empty,
    optional (Ahead.operator "=") (seq (operator "=") type),
    decide fun built _ =>
      if after && !hasNode .whereClause built then whereClause else empty,
    operator ";"]

/-- A type that has a definition and no bounds is an item like others. -/
def definedType : Reading :=
  decide fun built _ =>
    if hasOperator "=" built && !hasNode .bounds built then become .otherItem
    else become .asWritten

def namedField : Reading :=
  inOrder [rule .outerAttributes, visibility, when (Ahead.keyword "_")
    (inOrder [anyIdent, operator ":", decide fun _ ts =>
      if Ahead.keyword "struct" ts || (Ahead.keyword "union" ts && Ahead.second Ahead.brace ts) then
        node .asWritten (seq anyIdent (brace (rule (.commaList .namedField))))
      else type])
    (inOrder [ident, operator ":", type])]

def unnamedField : Reading := inOrder [rule .outerAttributes, visibility, type]

def namedFields : Reading := brace (rule (.commaList .namedField))

def unnamedFields : Reading := paren (rule (.commaList .unnamedField))

def structItem : Reading :=
  enclose .otherItem (inOrder [visibility, keyword "struct", ident, generics,
    decide fun _ ts =>
      if Ahead.paren ts then inOrder [unnamedFields, whereClause, operator ";"]
      else seq whereClause (when Ahead.brace namedFields (operator ";"))])

def variant : Reading :=
  inOrder [rule .outerAttributes, node .unprinted visibility, ident,
    decide fun _ ts =>
      if Ahead.brace ts then namedFields
      else if Ahead.paren ts then unnamedFields
      else empty,
    optionalValue]

def enumItem : Reading :=
  enclose .otherItem (inOrder [visibility, keyword "enum", ident, generics, whereClause,
    brace (rule (.commaList .variant))])

def unionItem : Reading :=
  enclose .otherItem (inOrder [visibility, keyword "union", ident, generics, whereClause,
    namedFields])

def moduleItem : Reading :=
  enclose .moduleItem (inOrder [visibility, optionalKeyword "unsafe", keyword "mod",
    keywordOr "try" ident,
    when (Ahead.operator ";") (operator ";")
      (brace (seq (rule .innerAttributes) (rule (.untilEnd .item))))])

def traitItem : Reading :=
  inOrder [visibility, optionalKeyword "unsafe", optionalKeyword "auto", keyword "trait",
    itemName, generics, decide fun built ts =>
      let isAlias := Ahead.operator "=" ts &&
        !built.any fun t => t.wordText? == some "unsafe" || t.wordText? == some "auto"
      if isAlias then
        enclose .otherItem (inOrder [operator "=", rule (.bounds .alias), whereClause,
          operator ";"])
      else
        enclose .traitItem (inOrder [
          optional (Ahead.operator ":") (node .bounds (seq (operator ":") (rule (.bounds .trait)))),
          whereClause,
          brace (seq (rule .innerAttributes) (rule (.untilEnd (.member .trait))))])]

def hasWord (text : String) (trees : List Tree) : Bool :=
  trees.any fun t => t.wordText? == some text

/-- Whether the tree read before the word `for` is a trait's path. -/
def implementsPath : List Tree → Bool
  | .word [.ident "for"] :: .node .pathType [.node .path _] :: _ => true
  | _ :: rest => implementsPath rest
  | [] => false

/-- The type that an implementation is for, or the trait when `for` and the type follow. A mark
before a type alone is kept with it. -/
def implementedType : Reading :=
  fresh (inOrder [
    optional (fun ts => Ahead.operator "!" ts && !Ahead.second Ahead.brace ts) (operator "!"),
    type, decide fun built ts =>
      if Ahead.keyword "for" ts then inOrder [keyword "for", type]
      else if hasOperator "!" built then become .asWritten
      else empty])

/-- Implementations that a heading makes unusual are kept as written. -/
def implItem : Reading :=
  inOrder [visibility, optionalKeyword "default", optionalKeyword "unsafe", keyword "impl",
    optional Ahead.parameterList generics,
    decide fun _ ts =>
      if Ahead.keyword "const" ts then keyword "const"
      else if Ahead.operator "?" ts && Ahead.second (Ahead.keyword "const") ts then
        seq (operator "?") (keyword "const")
      else empty,
    implementedType, whereClause,
    brace (seq (rule .innerAttributes) (rule (.untilEnd (.member .implementation)))),
    decide fun built _ =>
      if hasNode .visibility built || hasWord "const" built ||
          (hasWord "for" built && !implementsPath built) then become .asWritten
      else become .implItem]

/-- An invocation as an item or member; only one in braces needs no semicolon. -/
def invocationEnd : Reading :=
  cases [(Ahead.brace, rawGroup), (fun _ => true, seq rawGroup (operator ";"))]

def invocationItem : Reading :=
  enclose .otherItem (inOrder [plainPath, operator "!",
    when (Ahead.keyword "try") anyIdent (optional Ahead.ident ident), invocationEnd])

def invocationMember : Reading :=
  enclose .otherItem (inOrder [plainPath, operator "!", invocationEnd])

def declaredMacro : Reading :=
  enclose .asWritten (inOrder [visibility, keyword "macro", ident,
    optional Ahead.paren rawGroup, brace remainder])

/-- An item after its attributes. -/
def itemBody : Reading :=
  decide fun _ ts =>
    let after := Ahead.afterVisibility ts
    let next := after.drop 1
    if Ahead.signature false after then
      inOrder [visibility, signature false, bodyOrNone .asWritten]
    else if Ahead.keyword "extern" after then
      if Ahead.keyword "crate" next then externCrate else foreignModule
    else if Ahead.keyword "use" after then useItem
    else if Ahead.keyword "static" after then staticItem
    else if Ahead.keyword "const" after then seq visibility (constItem true)
    else if Ahead.keyword "unsafe" after then
      if Ahead.keyword "trait" next ||
          (Ahead.keyword "auto" next && Ahead.second (Ahead.keyword "trait") next) then traitItem
      else if Ahead.keyword "impl" next then implItem
      else if Ahead.keyword "extern" next then foreignModule
      else if Ahead.keyword "mod" next then moduleItem
      else refuse
    else if Ahead.keyword "mod" after then moduleItem
    else if Ahead.keyword "type" after then
      inOrder [visibility, typeItem true false, definedType]
    else if Ahead.keyword "struct" after then structItem
    else if Ahead.keyword "enum" after then enumItem
    else if Ahead.keyword "union" after && Ahead.ident next then unionItem
    else if Ahead.keyword "trait" after ||
        (Ahead.keyword "auto" after && Ahead.keyword "trait" next) then traitItem
    else if Ahead.keyword "impl" after ||
        (Ahead.keyword "default" after && !Ahead.operator "!" next) then implItem
    else if Ahead.keyword "macro" after then declaredMacro
    else if !Ahead.keyword "pub" ts && Ahead.invocationPath after then invocationItem
    else refuse

def item : Reading := fresh (seq (rule .outerAttributes) itemBody)

/-- A function with a body or another member of an implementation. -/
def implementationMember : Reading :=
  decide fun _ ts =>
    let afterVis := Ahead.afterVisibility ts
    let isDefault := Ahead.keyword "default" afterVis && !Ahead.second (Ahead.operator "!") afterVis
    let after := if isDefault then afterVis.drop 1 else afterVis
    let start := seq visibility (if isDefault then keyword "default" else empty)
    if Ahead.signature false after then
      inOrder [start, signature false, bodyOrNone .asWritten]
    else if Ahead.keyword "const" after then seq start (constItem true)
    else if Ahead.keyword "type" after then
      inOrder [start, typeItem false true, definedType]
    else if !Ahead.keyword "pub" ts && !isDefault && Ahead.invocationPath after then
      invocationMember
    else refuse

/-- A member of a trait; one with a visibility or a `default` is kept as written. -/
def traitMember : Reading :=
  inOrder [visibility, optionalKeyword "default", decide fun built ts =>
    let qualified := hasNode .visibility built || hasWord "default" built
    let whole := if qualified then become .asWritten else empty
    if Ahead.signature false ts then
      inOrder [signature false, bodyOrNone .otherItem, whole]
    else if Ahead.keyword "const" ts then seq (constItem false) whole
    else if Ahead.keyword "type" ts then
      inOrder [typeItem false true, become .otherItem, whole]
    else if !qualified && Ahead.invocationPath ts then invocationMember
    else refuse]

/-- A member of a foreign module; one that is declared safe, has a definition or constrains a type
is kept as written. -/
def foreignMember : Reading :=
  decide fun _ ts =>
    let after := Ahead.afterVisibility ts
    if Ahead.signature true after then
      inOrder [visibility, signature true, decide fun built ts =>
        let isSafe := built.any fun t => t.isNode .signature && hasWord "safe" t.children
        if Ahead.brace ts then enclose .asWritten attributedBlock
        else enclose (if isSafe then .asWritten else .otherItem) (operator ";")]
    else if Ahead.keyword "static" after ||
        ((Ahead.keyword "unsafe" after || Ahead.keyword "safe" after) &&
          Ahead.second (Ahead.keyword "static") after) then
      inOrder [visibility,
        when (Ahead.keyword "unsafe") (keyword "unsafe") (optionalKeyword "safe"),
        keyword "static", optionalKeyword "mut", itemName, operator ":", type, optionalValue,
        operator ";", decide fun built _ =>
          if hasWord "unsafe" built || hasWord "safe" built || hasOperator "=" built then
            become .asWritten
          else become .otherItem]
    else if Ahead.keyword "type" after then
      inOrder [visibility, typeItem true true, decide fun built _ =>
        if hasNode .bounds built || hasOperator "=" built then become .asWritten
        else become .otherItem]
    else if !Ahead.keyword "pub" ts && Ahead.invocationPath after then invocationMember
    else refuse

def memberRule (owner : Owner) : Reading :=
  fresh (seq (rule .outerAttributes) (match owner with
    | .implementation => implementationMember
    | .trait => traitMember
    | .foreign => foreignMember))

/-- What each rule reads. -/
def rules : Rule → Reading
  | .commaList element => commaList element
  | .untilEnd element => untilEnd element
  | .outerAttributes => outerAttributes
  | .innerAttributes => innerAttributes
  | .pathRest turbofish => pathRest turbofish
  | .plainPathRest => plainPathRest
  | .qualifiedRest turbofish => qualifiedRest turbofish
  | .genericArguments => genericArguments
  | .genericParameters => genericParameters
  | .binderParameters => binderParameters
  | .capturedParameters => capturedParameters
  | .lifetimeBounds inWhere => lifetimeBounds inWhere
  | .bounds stop => bounds stop
  | .predicates => predicates
  | .type plus => fresh (typeRule plus)
  | .typeBounds plus captures constAllowed => typeBounds plus captures constAllowed
  | .moreBounds all => moreBounds all
  | .functionTypeParameters first => functionTypeParameters first
  | .pattern => fresh patternRule
  | .moreAlternatives => moreAlternatives
  | .structPatternFields => structPatternFields
  | .tuplePatternFields => tuplePatternFields
  | .slicePatternFields => slicePatternFields
  | .onePattern => fresh onePatternRule
  | .expression structs => fresh (expression structs)
  | .operand structs => fresh (operand structs)
  | .operators structs base => operators structs base
  | .tighterOperators structs level => tighterOperators structs level
  | .trailers => trailers
  | .structFields => structFields
  | .closureParameters => closureParameters
  | .ifChain => ifChain
  | .arm => arm
  | .leadingExpression => fresh leadingExpression
  | .statements => statementsRule itemBody
  | .item => item
  | .useTree crateRoot => useTree crateRoot
  | .useTrees crateRoot => useTrees crateRoot
  | .namedField => namedField
  | .unnamedField => unnamedField
  | .variant => variant
  | .parameters first => parameters first
  | .member owner => memberRule owner
  | .file => seq (rule .innerAttributes) (rule (.untilEnd .item))

/-- The trees of a source file: its own attributes and its items. -/
def parseFile? (tokens : List Token) : Option (List Tree) :=
  parse? rules .file tokens

/-- The trees of expressions with commas between them. -/
def parseArguments? (tokens : List Token) : Option (List Tree) :=
  parse? rules (.commaList (.expression true)) tokens

/-- The trees of statements. -/
def parseStatements? (tokens : List Token) : Option (List Tree) :=
  parse? rules .statements tokens

end CallStudy.Source.Syntax
