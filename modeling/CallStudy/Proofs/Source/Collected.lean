import CallStudy.Source.Function
import Mathlib.Data.List.Basic

/-!
Which functions of a file are collected. A function item stands in modules and perhaps in an
implementation or a trait; it is collected unless something around it is configured for tests or it
is test code itself. Methods of traits are not asked whether they are test code.
-/

set_option autoImplicit false

namespace CallStudy.Source

/-- What a function belongs to, with its parts. -/
inductive Host where
  | nothing
  | implementation (parts : List Tree)
  | trait (parts : List Tree)

namespace Host

/-- What the name of a function is qualified by. -/
def owner : Host → Option String
  | nothing => none
  | implementation parts => some (((Function.implementedType parts).map Function.ownerName).getD "")
  | trait parts => some (Tree.nameOf parts)

def IsTrait (h : Host) : Prop := ∃ parts, h = .trait parts

def isTestConfigured : Host → Bool
  | nothing => false
  | implementation parts | trait parts => Function.isTestConfigured parts

end Host

/-- A function item with the modules around it, the outermost first, and what it belongs to. -/
structure Definition where
  modules : List (List Tree)
  host : Host
  parts : List Tree

namespace Definition

variable (d : Definition)

def function : Function := .ofItem d.host.owner d.parts

/-- Nothing around the function is configured for tests. -/
def Unmarked : Prop :=
  (∀ parts ∈ d.modules, ¬ Function.isTestConfigured parts) ∧ ¬ d.host.isTestConfigured

def IsCollected : Prop := d.Unmarked ∧ (d.host.IsTrait ∨ ¬ Function.isTest d.parts)

end Definition

/-- The definitions of functions with a body in an item. -/
inductive Defines : Tree → Definition → Prop where
  | free {parts : List Tree} : Defines (.node .functionItem parts) ⟨[], .nothing, parts⟩
  | method {container members parts : List Tree}
      (braces : container.getLast? = some (.group .brace members))
      (member : .node .functionItem parts ∈ members) :
      Defines (.node .implItem container) ⟨[], .implementation container, parts⟩
  | default {container members parts : List Tree}
      (braces : container.getLast? = some (.group .brace members))
      (member : .node .functionItem parts ∈ members) :
      Defines (.node .traitItem container) ⟨[], .trait container, parts⟩
  | inModule {parts items : List Tree} {item : Tree} {d : Definition}
      (braces : .group .brace items ∈ parts) (member : item ∈ items) (inner : Defines item d) :
      Defines (.node .moduleItem parts) { d with modules := parts :: d.modules }

namespace Attribute

/-- The braces of a module, an implementation or a trait, or of a function's body. -/
def IsBraces (content : List Tree) (t : Tree) : Prop :=
  t = .group .brace content ∨ t = .node .block [.group .brace content]

theorem mem_ofItem_iff {parts : List Tree} {a : Tree} :
    a ∈ ofItem parts ↔ a ∈ parts ∧ isAttribute a ∨
      ∃ content, (∃ t ∈ parts, IsBraces content t) ∧ a ∈ content ∧ a.isNode .innerAttribute := by
  simp only [ofItem, List.mem_append, List.mem_filter, List.mem_flatMap]
  refine or_congr Iff.rfl ⟨?_, ?_⟩
  · rintro ⟨⟨t, mem, inside⟩, inner⟩
    split at inside
    · exact ⟨_, ⟨_, mem, .inl rfl⟩, inside, inner⟩
    · exact ⟨_, ⟨_, mem, .inr rfl⟩, inside, inner⟩
    · cases inside
  · rintro ⟨content, ⟨t, mem, rfl | rfl⟩, inside, inner⟩ <;> exact ⟨⟨_, mem, inside⟩, inner⟩

theorem eq_of_isNamed {name name' : String} {a : Tree} (named : isNamed name a)
    (named' : isNamed name' a) : name = name' := by
  unfold isNamed at named named'
  generalize content a = parts at named named'
  cases parts with
  | nil => cases named
  | cons path _ => exact Option.some.inj ((eq_of_beq named).symm.trans (eq_of_beq named'))

section

variable {parts : List Tree} {a : Tree} (other : ¬ isNamed "doc" a)

include other

theorem mem_stripDocumentation_iff (outer : isAttribute a) :
    a ∈ stripDocumentation parts ↔ a ∈ parts := by
  simp only [stripDocumentation, List.mem_map, List.mem_filter]
  constructor
  · rintro ⟨t, ⟨mem, -⟩, same⟩
    split at same
    · subst same
      cases outer
    · exact same ▸ mem
  · intro mem
    refine ⟨a, ⟨mem, by simp [other]⟩, ?_⟩
    split
    · cases outer
    · rfl

theorem mem_braces_stripDocumentation_iff :
    (∃ content, (∃ t ∈ stripDocumentation parts, IsBraces content t) ∧ a ∈ content) ↔
      ∃ content, (∃ t ∈ parts, IsBraces content t) ∧ a ∈ content := by
  simp only [stripDocumentation, List.mem_map, List.mem_filter]
  constructor
  · rintro ⟨content, ⟨_, ⟨t, ⟨mem, -⟩, rfl⟩, braces⟩, inside⟩
    split at braces
    · obtain same | same := braces
      · cases same
      · cases same
        exact ⟨_, ⟨_, mem, .inr rfl⟩, (List.mem_filter.mp inside).1⟩
    · exact ⟨content, ⟨_, mem, braces⟩, inside⟩
  · rintro ⟨content, ⟨t, mem, rfl | rfl⟩, inside⟩
    · exact ⟨content, ⟨_, ⟨_, ⟨mem, rfl⟩, rfl⟩, .inl rfl⟩, inside⟩
    · exact ⟨_, ⟨_, ⟨_, ⟨mem, rfl⟩, rfl⟩, .inr rfl⟩,
        List.mem_filter.mpr ⟨inside, by simp [other]⟩⟩

/-- Of its own attributes an item only loses those that document it. -/
theorem mem_ofItem_stripDocumentation_iff :
    a ∈ ofItem (stripDocumentation parts) ↔ a ∈ ofItem parts := by
  have braces : (∃ content, (∃ t ∈ stripDocumentation parts, IsBraces content t) ∧ a ∈ content ∧
      a.isNode .innerAttribute) ↔
      ∃ content, (∃ t ∈ parts, IsBraces content t) ∧ a ∈ content ∧ a.isNode .innerAttribute := by
    simp only [← and_assoc, exists_and_right]
    exact and_congr_left fun _ => mem_braces_stripDocumentation_iff other
  rw [mem_ofItem_iff, mem_ofItem_iff, braces]
  exact or_congr_left (and_congr_left fun outer => mem_stripDocumentation_iff other outer)

end

end Attribute

namespace Function

theorem mem_braceContent_iff {parts : List Tree} {t : Tree} :
    t ∈ braceContent parts ↔
      ∃ members, parts.getLast? = some (.group .brace members) ∧ t ∈ members := by
  unfold braceContent
  split
  · next members last => simp [last]
  · next other =>
    constructor
    · nofun
    · rintro ⟨members, last, -⟩
      exact absurd last (other members)

theorem mem_ofImplementation_iff {container : List Tree} {f : Function} :
    f ∈ ofImplementation container ↔ ∃ parts, .node .functionItem parts ∈ braceContent container ∧
      ¬ isTest parts ∧ ofItem (Host.implementation container).owner parts = f := by
  simp only [ofImplementation, List.mem_filterMap]
  constructor
  · rintro ⟨member, mem, h⟩
    split at h
    · next parts =>
      split at h
      · cases h
      · next ordinary => exact ⟨parts, mem, ordinary, Option.some.inj h⟩
    · cases h
  · rintro ⟨parts, mem, ordinary, rfl⟩
    exact ⟨_, mem, if_neg ordinary⟩

theorem mem_ofTrait_iff {container : List Tree} {f : Function} :
    f ∈ ofTrait container ↔ ∃ parts, .node .functionItem parts ∈ braceContent container ∧
      ofItem (Host.trait container).owner parts = f := by
  simp only [ofTrait, List.mem_filterMap]
  constructor
  · rintro ⟨member, mem, h⟩
    split at h
    · exact ⟨_, mem, Option.some.inj h⟩
    · cases h
  · rintro ⟨parts, mem, rfl⟩
    exact ⟨_, mem, rfl⟩

/-! What is collected, as the functions of every tree after one another. -/

/-- The function of an item that is one, if it is not left out. -/
def memberOf (leftOut : List Tree → Bool) (owner : Option String) : Tree → List Function
  | .node .functionItem parts => if leftOut parts then [] else [ofItem owner parts]
  | _ => []

/-- The functions of a module's braces. -/
def ofBraces : Tree → List Function
  | .group .brace items => collectAll items
  | _ => []

theorem ofImplementation_eq (parts : List Tree) : ofImplementation parts =
    (braceContent parts).flatMap
      (memberOf isTest (some (((implementedType parts).map ownerName).getD ""))) := by
  rw [ofImplementation, List.filterMap_eq_flatMap_toList]
  refine List.flatMap_congr fun t _ => ?_
  cases t with
  | node kind method =>
    cases kind with
    | functionItem =>
      simp only [memberOf]
      split <;> rfl
    | _ => rfl
  | _ => rfl

theorem ofTrait_eq (parts : List Tree) : ofTrait parts =
    (braceContent parts).flatMap (memberOf (fun _ => false) (some (Tree.nameOf parts))) := by
  rw [ofTrait, List.filterMap_eq_flatMap_toList]
  refine List.flatMap_congr fun t _ => ?_
  cases t with
  | node kind method => cases kind <;> rfl
  | _ => rfl

theorem collectGroups_eq (parts : List Tree) : collectGroups parts = parts.flatMap ofBraces := by
  induction parts with
  | nil => rfl
  | cons t rest ih =>
    rw [List.flatMap_cons, ← ih]
    cases t with
    | group d items => cases d <;> rfl
    | _ => rfl

theorem collectAll_eq (items : List Tree) : collectAll items = items.flatMap collect := by
  induction items with
  | nil => rfl
  | cons t rest ih => rw [collectAll, ih, List.flatMap_cons]

/-! Which definitions the functions come from. -/

/-- The function is the one of a definition in the item that is collected. -/
def ComesFrom (item : Tree) (f : Function) : Prop :=
  ∃ d, Defines item d ∧ d.IsCollected ∧ d.function = f

theorem comesFrom_functionItem_iff {parts : List Tree} {f : Function} :
    ComesFrom (.node .functionItem parts) f ↔ ¬ isTest parts ∧ ofItem none parts = f := by
  constructor
  · rintro ⟨d, defines, ⟨-, permitted⟩, rfl⟩
    cases defines
    obtain ⟨_, none⟩ | ordinary := permitted
    · cases none
    · exact ⟨ordinary, rfl⟩
  · rintro ⟨ordinary, rfl⟩
    exact ⟨_, .free, ⟨⟨nofun, nofun⟩, .inr ordinary⟩, rfl⟩

theorem comesFrom_implItem_iff {container : List Tree} {f : Function} :
    ComesFrom (.node .implItem container) f ↔
      ¬ isTestConfigured container ∧ f ∈ ofImplementation container := by
  simp only [mem_ofImplementation_iff, mem_braceContent_iff]
  constructor
  · rintro ⟨d, defines, ⟨⟨-, unmarked⟩, permitted⟩, rfl⟩
    cases defines with
    | method braces member =>
      obtain ⟨_, none⟩ | ordinary := permitted
      · cases none
      · exact ⟨unmarked, _, ⟨_, braces, member⟩, ordinary, rfl⟩
  · rintro ⟨unmarked, parts, ⟨members, braces, member⟩, ordinary, rfl⟩
    exact ⟨_, .method braces member, ⟨⟨nofun, unmarked⟩, .inr ordinary⟩, rfl⟩

theorem comesFrom_traitItem_iff {container : List Tree} {f : Function} :
    ComesFrom (.node .traitItem container) f ↔
      ¬ isTestConfigured container ∧ f ∈ ofTrait container := by
  simp only [mem_ofTrait_iff, mem_braceContent_iff]
  constructor
  · rintro ⟨d, defines, ⟨⟨-, unmarked⟩, -⟩, rfl⟩
    cases defines with
    | default braces member => exact ⟨unmarked, _, ⟨_, braces, member⟩, rfl⟩
  · rintro ⟨unmarked, parts, ⟨members, braces, member⟩, rfl⟩
    exact ⟨_, .default braces member, ⟨⟨nofun, unmarked⟩, .inl ⟨_, rfl⟩⟩, rfl⟩

theorem comesFrom_moduleItem_iff {parts : List Tree} {f : Function} :
    ComesFrom (.node .moduleItem parts) f ↔ ¬ isTestConfigured parts ∧
      ∃ items, .group .brace items ∈ parts ∧ ∃ item ∈ items, ComesFrom item f := by
  constructor
  · rintro ⟨d, defines, ⟨⟨unmarked, host⟩, permitted⟩, rfl⟩
    cases defines with
    | inModule braces member inner =>
      obtain ⟨first, rest⟩ := List.forall_mem_cons.mp unmarked
      exact ⟨first, _, braces, _, member, _, inner, ⟨⟨rest, host⟩, permitted⟩, rfl⟩
  · rintro ⟨first, items, braces, item, member, d, inner, ⟨⟨rest, host⟩, permitted⟩, rfl⟩
    exact ⟨_, .inModule braces member inner,
      ⟨⟨List.forall_mem_cons.mpr ⟨first, rest⟩, host⟩, permitted⟩, rfl⟩

mutual
theorem mem_collect_iff (f : Function) (item : Tree) : f ∈ collect item ↔ ComesFrom item f := by
  unfold collect
  split
  · next parts =>
    rw [comesFrom_functionItem_iff]
    split
    · next test => simp [test]
    · next ordinary => simp [ordinary, eq_comm]
  · next container =>
    rw [comesFrom_implItem_iff]
    split
    · next marked => simp [marked]
    · next unmarked => simp [unmarked]
  · next container =>
    rw [comesFrom_traitItem_iff]
    split
    · next marked => simp [marked]
    · next unmarked => simp [unmarked]
  · next parts =>
    rw [comesFrom_moduleItem_iff, ← mem_collectGroups_iff f parts]
    split
    · next marked => simp [marked]
    · next unmarked => simp [unmarked]
  · next noFunction noImplementation noTrait noModule =>
    constructor
    · nofun
    · rintro ⟨d, defines, -⟩
      cases defines with
      | free => exact absurd rfl (noFunction _)
      | method => exact absurd rfl (noImplementation _)
      | default => exact absurd rfl (noTrait _)
      | inModule => exact absurd rfl (noModule _)

theorem mem_collectGroups_iff (f : Function) (parts : List Tree) :
    f ∈ collectGroups parts ↔
      ∃ items, .group .brace items ∈ parts ∧ ∃ item ∈ items, ComesFrom item f := by
  unfold collectGroups
  split
  · simp
  · next items rest =>
    rw [List.mem_append, mem_collectAll_iff f items, mem_collectGroups_iff f rest]
    simp [or_and_right, exists_or]
  · next t rest noBraces =>
    have other (items : List Tree) : Tree.group .brace items ≠ t := fun same => noBraces items same.symm
    rw [mem_collectGroups_iff f rest]
    simp [other]

theorem mem_collectAll_iff (f : Function) (items : List Tree) :
    f ∈ collectAll items ↔ ∃ item ∈ items, ComesFrom item f := by
  unfold collectAll
  split
  · simp
  · next item rest =>
    rw [List.mem_append, mem_collect_iff f item, mem_collectAll_iff f rest]
    simp
end

/-- Test code by its own name or attributes. -/
def IsTestCode (f : Function) : Prop :=
  f.bareName.startsWith "test_" ∨ ∃ a ∈ Attribute.ofItem f.parts,
    Attribute.isNamed "test" a ∨ Attribute.isTestConfiguration a

instance (f : Function) : Decidable f.IsTestCode :=
  inferInstanceAs (Decidable (_ ∨ _))

theorem isTestCode_ofItem_iff {owner : Option String} {parts : List Tree} :
    (ofItem owner parts).IsTestCode ↔ isTest parts := by
  have kept (a : Tree) (test : Attribute.isNamed "test" a ∨ Attribute.isTestConfiguration a) :
      ¬ Attribute.isNamed "doc" a := by
    intro doc
    obtain test | configuration := test
    · exact absurd (Attribute.eq_of_isNamed doc test) (by decide)
    · have named := (Bool.and_eq_true_iff.mp configuration).1
      exact absurd (Attribute.eq_of_isNamed doc named) (by decide)
  have attributes : (∃ a ∈ Attribute.ofItem (Attribute.stripDocumentation parts),
      Attribute.isNamed "test" a ∨ Attribute.isTestConfiguration a) ↔
      ∃ a ∈ Attribute.ofItem parts,
        Attribute.isNamed "test" a ∨ Attribute.isTestConfiguration a :=
    exists_congr fun a => and_congr_left fun test =>
      Attribute.mem_ofItem_stripDocumentation_iff (kept a test)
  simp only [IsTestCode, isTest, isTestConfigured, Bool.or_eq_true, List.any_eq_true, or_assoc]
  rw [← exists_or]
  simp only [← and_or_left]
  exact or_congr Iff.rfl attributes

theorem ofSource?_eq (source : String) : ofSource? source =
    ((Lexer.fileTokens? source).bind Syntax.parseFile?).map collectAll := by
  unfold ofSource?
  cases Lexer.fileTokens? source <;> rfl

/-- Of the functions of a file none stands in anything that is configured for tests, and test code
among them is a method of a trait. So no test code is collected exactly when the traits that are
not themselves for tests have no methods that are. -/
theorem collected_test_code_is_of_trait {source : String} {items : List Tree}
    (parsed : (Lexer.fileTokens? source).bind Syntax.parseFile? = some items) :
    ∃ functions, ofSource? source = some functions ∧
      (∀ f ∈ functions, ∃ item ∈ items, ∃ d, Defines item d ∧ d.function = f ∧ d.Unmarked ∧
        (f.IsTestCode → d.host.IsTrait)) ∧
      ((∀ f ∈ functions, ¬ f.IsTestCode) ↔ ∀ item ∈ items, ∀ d, Defines item d → d.Unmarked →
        d.host.IsTrait → ¬ d.function.IsTestCode) := by
  have test (d : Definition) : d.function.IsTestCode ↔ isTest d.parts := isTestCode_ofItem_iff
  refine ⟨collectAll items, by rw [ofSource?_eq, parsed]; rfl, ?_, ?_⟩
  · intro f mem
    obtain ⟨item, itemMem, d, defines, ⟨unmarked, permitted⟩, rfl⟩ :=
      (mem_collectAll_iff f items).mp mem
    refine ⟨item, itemMem, d, defines, rfl, unmarked, fun testCode => ?_⟩
    exact permitted.resolve_right (not_not_intro ((test d).mp testCode))
  · constructor
    · intro clean item mem d defines unmarked inTrait
      exact clean _ ((mem_collectAll_iff _ items).mpr
        ⟨item, mem, d, defines, ⟨unmarked, .inl inTrait⟩, rfl⟩)
    · intro clean f mem
      obtain ⟨item, itemMem, d, defines, ⟨unmarked, permitted⟩, rfl⟩ :=
        (mem_collectAll_iff f items).mp mem
      obtain inTrait | ordinary := permitted
      · exact clean item itemMem d defines unmarked inTrait
      · exact ordinary ∘ (test d).mp

theorem collected_test_code_is_of_trait_beside_tests :
    ∃ functions,
      ofSource? "#[test] fn t() {} impl S { fn test_s() {} fn s() {} }" = some functions ∧
      functions.map Function.name = ["S::s"] ∧
      ∀ f ∈ functions, ∃ d : Definition, d.function = f ∧ d.Unmarked ∧
        (f.IsTestCode → d.host.IsTrait) := by
  obtain ⟨items, parsed⟩ := Option.isSome_iff_exists.mp (show ((Lexer.fileTokens?
    "#[test] fn t() {} impl S { fn test_s() {} fn s() {} }").bind Syntax.parseFile?).isSome from
      by decide +kernel)
  obtain ⟨functions, collected, each, -⟩ := collected_test_code_is_of_trait parsed
  have names : (ofSource? "#[test] fn t() {} impl S { fn test_s() {} fn s() {} }").map
    (·.map Function.name) = some ["S::s"] := by decide +kernel
  refine ⟨functions, collected, ?_, fun f mem => ?_⟩
  · rw [collected] at names
    exact Option.some.inj names
  · obtain ⟨_, -, d, -, same, unmarked, trait⟩ := each f mem
    exact ⟨d, same, unmarked, trait⟩

/-- A method of a trait is collected although it is test code. -/
theorem trait_method_test_code_collected :
    (ofSource? "trait T { fn test_a(&self) {} }").map (·.map fun f =>
      (f.name, decide f.IsTestCode)) = some [("T::test_a", true)] := by
  decide +kernel

end Function
end CallStudy.Source
