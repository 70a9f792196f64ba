import CallStudy.Source.Syntax.Item
import CallStudy.Source.Lexer
import CallStudy.Source.Printed

/-!
The functions of a source file that are measured: free functions, methods with a body, and
functions of modules that stand in the file. Test code is left out.
-/

namespace CallStudy.Source

/-- A function with a body. `name` is qualified by the type or trait it belongs to. -/
structure Function where
  name : String
  bareName : String
  /-- The item's trees, without the attributes that document it. -/
  parts : List Tree
  deriving Repr

namespace Tree

/-- The words of a path in order, double colons left out. -/
def pathWords : Tree → List String
  | node .path parts | node .qualifiedPath parts =>
    parts.filterMap fun
      | node .segment (first :: _) => first.wordText?
      | _ => none
  | _ => []

/-- The last word of a path that may start from a type. -/
def lastWord? (path : Tree) : Option String := path.pathWords.getLast?

/-- The word that a path consists of, when it is a single word without arguments. -/
def soleWord? : Tree → Option String
  | node .path [node .segment [name]] => name.wordText?
  | _ => none

def findNode? (kind : Kind) (trees : List Tree) : Option Tree := trees.find? (isNode kind)

/-- The text of the node `name` among `trees`. -/
def nameOf (trees : List Tree) : String :=
  match findNode? .name trees with
  | some (node _ [name]) => name.wordText?.getD ""
  | _ => ""

end Tree

namespace Attribute

/-- What stands in an attribute's brackets. -/
def content (a : Tree) : List Tree :=
  match a.children.getLast? with
  | some (.group _ content) => content
  | _ => []

def isNamed (name : String) (a : Tree) : Bool :=
  match content a with
  | path :: _ => path.soleWord? == some name
  | [] => false

/-- Whether an attribute is `cfg` with the one argument `test`. -/
def isTestConfiguration (a : Tree) : Bool :=
  isNamed "cfg" a &&
    match content a with
    | [_, .group _ [.raw [.ident word]]] => word == "test"
    | _ => false

def isAttribute (t : Tree) : Bool := t.isNode .outerAttribute || t.isNode .innerAttribute

/-- The attributes of an item: those before it and those at the start of its braces. -/
def ofItem (parts : List Tree) : List Tree :=
  let inside := parts.flatMap fun
    | .group .brace content => content
    | .node .block [.group .brace content] => content
    | _ => []
  parts.filter isAttribute ++ inside.filter (Tree.isNode .innerAttribute)

/-- Takes the attributes that document an item out of its parts. -/
def stripDocumentation (parts : List Tree) : List Tree :=
  let keep (t : Tree) : Bool := !(isAttribute t && isNamed "doc" t)
  (parts.filter keep).map fun
    | .node .block [.group .brace content] =>
      .node .block [.group .brace (content.filter fun t =>
        !(t.isNode .innerAttribute && isNamed "doc" t))]
    | t => t

end Attribute

namespace Function

/-- The heading of a function item. -/
def headingOf (parts : List Tree) : List Tree :=
  match Tree.findNode? .signature parts with
  | some t => t.children
  | none => []

def isTestConfigured (parts : List Tree) : Bool :=
  (Attribute.ofItem parts).any Attribute.isTestConfiguration

/-- A function is test code by its name, or by an attribute of its own. -/
def isTest (parts : List Tree) : Bool :=
  (Tree.nameOf (headingOf parts)).startsWith "test_" ||
    (Attribute.ofItem parts).any (Attribute.isNamed "test") || isTestConfigured parts

/-- The function that a function item defines; `owner` is what its name is qualified by. -/
def ofItem (owner : Option String) (parts : List Tree) : Function :=
  let bare := Tree.nameOf (headingOf parts)
  { name := match owner with
      | some owner => owner ++ "::" ++ bare
      | none => bare
    bareName := bare
    parts := Attribute.stripDocumentation parts }

/-- The type an implementation is for: the last tree before conditions and braces. -/
def implementedType (parts : List Tree) : Option Tree :=
  match parts.reverse with
  | .group .brace _ :: .node .whereClause _ :: type :: _ => some type
  | .group .brace _ :: type :: _ => some type
  | _ => none

/-- The name by which a type owns its methods. -/
def ownerName (type : Tree) : String :=
  match type with
  | .node .pathType [path] => path.lastWord?.getD ""
  | type => type.printedText

def braceContent (parts : List Tree) : List Tree :=
  match parts.getLast? with
  | some (.group .brace content) => content
  | _ => []

/-- Methods among an implementation's members. -/
def ofImplementation (parts : List Tree) : List Function :=
  let owner := ((implementedType parts).map ownerName).getD ""
  (braceContent parts).filterMap fun
    | .node .functionItem method =>
      if isTest method then none else some (ofItem (some owner) method)
    | _ => none

/-- Methods of a trait that have a body. -/
def ofTrait (parts : List Tree) : List Function :=
  (braceContent parts).filterMap fun
    | .node .functionItem method => some (ofItem (some (Tree.nameOf parts)) method)
    | _ => none

mutual
/-- The functions of one item. -/
def collect : Tree → List Function
  | .node .functionItem parts => if isTest parts then [] else [ofItem none parts]
  | .node .implItem parts => if isTestConfigured parts then [] else ofImplementation parts
  | .node .traitItem parts => if isTestConfigured parts then [] else ofTrait parts
  | .node .moduleItem parts => if isTestConfigured parts then [] else collectGroups parts
  | _ => []

/-- The functions of the items between a module's braces. -/
def collectGroups : List Tree → List Function
  | [] => []
  | .group .brace items :: rest => collectAll items ++ collectGroups rest
  | _ :: rest => collectGroups rest

/-- The functions of items in their order. -/
def collectAll : List Tree → List Function
  | [] => []
  | item :: rest => collect item ++ collectAll rest
end

/-- The functions of a source text, or `none` when the text is no source file. -/
def ofSource? (source : String) : Option (List Function) :=
  match Lexer.fileTokens? source with
  | some tokens => (Syntax.parseFile? tokens).map collectAll
  | none => none

variable (f : Function)

def heading : List Tree := headingOf f.parts

/-- The statements between the braces of the body; attributes that stand with them are not its
own. -/
def body : List Tree :=
  match Tree.findNode? .block f.parts with
  | some t => t.children.flatMap fun group =>
    group.children.filter (! Tree.isNode .innerAttribute ·)
  | none => []

/-- The parameters other than a receiver. -/
def typedParameters : List Tree :=
  match Tree.findNode? .parameters f.heading with
  | some (.node _ [.group _ content]) =>
    content.filter fun t => t.isNode .parameter || t.isNode .typeOnlyParameter
  | _ => []

/-- The type of a parameter. -/
def parameterType? (parameter : Tree) : Option Tree := parameter.children.getLast?

def returnType? : Option Tree :=
  match Tree.findNode? .returnType f.heading with
  | some (.node _ [_, type]) => some type
  | _ => none

def genericParameters : List Tree :=
  match Tree.findNode? .generics f.heading with
  | some t => t.children
  | none => []

end Function
end CallStudy.Source
