import CallStudy.Feature.Row
import CallStudy.Proofs.Source.Bodies
import CallStudy.Proofs.Source.Collected

/-!
Collection takes every definition once and in the order of the text. A place is the list of indices
that lead from the items of a file to a definition, and places stand in the text as words stand in a
dictionary. What is collected is the list of the definitions that count, their places ascending.
-/

set_option autoImplicit false

namespace CallStudy.Source

/-- A definition with its place. -/
structure Occurrence where
  place : List Nat
  definition : Definition

namespace Occurrence

variable (o : Occurrence)

def function : Function := o.definition.function

/-- The occurrence seen from around its tree, which stands at index `i`. -/
def under (i : Nat) : Occurrence := { o with place := i :: o.place }

/-- The occurrence seen from around a module. -/
def inside (parts : List Tree) : Occurrence :=
  { o with definition := { o.definition with modules := parts :: o.definition.modules } }

/-- What holds of an occurrence seen from around the trees, when `holds` says it of the trees. -/
def AmongTrees (holds : Tree → Occurrence → Prop) (trees : List Tree) (o : Occurrence) : Prop :=
  ∃ i t inner, trees[i]? = some t ∧ holds t inner ∧ o = inner.under i

end Occurrence

/-- The definitions of functions with a body in an item, by the places where they stand. Modules
lead to further items; implementations and traits lead to their members. -/
inductive DefinedAt : Tree → Occurrence → Prop where
  | free {parts : List Tree} : DefinedAt (.node .functionItem parts) ⟨[], [], .nothing, parts⟩
  | method {container members parts : List Tree} {i : Nat}
      (braces : container.getLast? = some (.group .brace members))
      (member : members[i]? = some (.node .functionItem parts)) :
      DefinedAt (.node .implItem container)
        ⟨[container.length - 1, i], [], .implementation container, parts⟩
  | default {container members parts : List Tree} {i : Nat}
      (braces : container.getLast? = some (.group .brace members))
      (member : members[i]? = some (.node .functionItem parts)) :
      DefinedAt (.node .traitItem container)
        ⟨[container.length - 1, i], [], .trait container, parts⟩
  | inModule {parts items : List Tree} {j i : Nat} {item : Tree} {o : Occurrence}
      (braces : parts[j]? = some (.group .brace items)) (member : items[i]? = some item)
      (inner : DefinedAt item o) :
      DefinedAt (.node .moduleItem parts) (((o.under i).under j).inside parts)

namespace Occurrence

/-- Occurrences in the order of their places: those for which `holds`, and each of these once. -/
structure Enlists (found : List Occurrence) (holds : Occurrence → Prop) : Prop where
  ascending : found.Pairwise fun a b => a.place < b.place
  mem_iff : ∀ o, o ∈ found ↔ holds o

/-- The functions are those of the occurrences for which `holds`, in their order. -/
def Yields (functions : List Function) (holds : Occurrence → Prop) : Prop :=
  ∃ found, Enlists found holds ∧ functions = found.map function

namespace Yields

variable {functions more : List Function} {holds also : Occurrence → Prop}

theorem congr (h : Yields functions holds) (same : ∀ o, also o ↔ holds o) :
    Yields functions also := by
  obtain ⟨found, listed, rfl⟩ := h
  exact ⟨found, ⟨listed.ascending, fun o => by rw [listed.mem_iff, same]⟩, rfl⟩

theorem empty (absent : ∀ o, ¬ holds o) : Yields [] holds :=
  ⟨[], ⟨.nil, fun o => by simpa using absent o⟩, rfl⟩

theorem single (o : Occurrence) : Yields [o.function] (· = o) :=
  ⟨[o], ⟨List.pairwise_singleton _ o, fun other => by simp⟩, rfl⟩

/-- Functions are the same seen from elsewhere. -/
theorem map (h : Yields functions holds) {view : Occurrence → Occurrence}
    (same : ∀ o, (view o).function = o.function)
    (mono : ∀ a b, a.place < b.place → (view a).place < (view b).place) :
    Yields functions fun o => ∃ inner, holds inner ∧ o = view inner := by
  obtain ⟨found, listed, rfl⟩ := h
  refine ⟨found.map view, ⟨?_, fun o => ?_⟩, ?_⟩
  · exact List.pairwise_map.mpr (listed.ascending.imp fun {a b} => mono a b)
  · simp only [List.mem_map, listed.mem_iff, eq_comm]
  · rw [List.map_map]
    exact List.map_congr_left fun o _ => (same o).symm

theorem under (h : Yields functions holds) (i : Nat) :
    Yields functions fun o => ∃ inner, holds inner ∧ o = inner.under i :=
  h.map (fun _ => rfl) fun _ _ before => List.cons_lt_cons_iff.mpr (.inr ⟨rfl, before⟩)

theorem inside (h : Yields functions holds) (parts : List Tree) :
    Yields functions fun o => ∃ inner, holds inner ∧ o = inner.inside parts :=
  h.map (fun _ => rfl) fun _ _ before => before

theorem append (first : Yields functions holds) (second : Yields more also)
    (before : ∀ a b, holds a → also b → a.place < b.place) :
    Yields (functions ++ more) fun o => holds o ∨ also o := by
  obtain ⟨found, listed, rfl⟩ := first
  obtain ⟨others, listed', rfl⟩ := second
  refine ⟨found ++ others, ⟨?_, fun o => ?_⟩, by rw [List.map_append]⟩
  · refine List.pairwise_append.mpr ⟨listed.ascending, listed'.ascending, fun a ha b hb => ?_⟩
    exact before a b ((listed.mem_iff a).mp ha) ((listed'.mem_iff b).mp hb)
  · rw [List.mem_append, listed.mem_iff, listed'.mem_iff]

/-- The functions of trees, one tree after the other. -/
theorem among {f : Tree → List Function} {holds : Tree → Occurrence → Prop} {trees : List Tree}
    (each : ∀ t ∈ trees, Yields (f t) (holds t)) :
    Yields (trees.flatMap f) (AmongTrees holds trees) := by
  -- Places move by one when a tree is put in front, so the first index varies in the induction.
  have shifted : ∀ start, Yields (trees.flatMap f)
      fun o => ∃ i t inner, trees[i]? = some t ∧ holds t inner ∧ o = inner.under (start + i) := by
    induction trees with
    | nil => exact fun _ => empty (by simp)
    | cons t rest ih =>
      intro start
      obtain ⟨head, tail⟩ := List.forall_mem_cons.mp each
      refine ((head.under start).append (ih tail (start + 1)) ?_).congr fun o => ?_
      · rintro _ _ ⟨a, -, rfl⟩ ⟨i, t, b, -, -, rfl⟩
        refine List.cons_lt_cons_iff.mpr (.inl ?_)
        omega
      · constructor
        · rintro ⟨i, t', inner, found, here, rfl⟩
          cases i with
          | zero =>
            cases found
            exact .inl ⟨inner, here, rfl⟩
          | succ i =>
            exact .inr ⟨i, t', inner, found, here, by rw [Nat.add_right_comm, Nat.add_assoc]⟩
        · rintro (⟨inner, here, rfl⟩ | ⟨i, t', inner, found, here, rfl⟩)
          · exact ⟨0, t, inner, rfl, here, rfl⟩
          · exact ⟨i + 1, t', inner, found, here, by rw [Nat.add_right_comm, Nat.add_assoc]⟩
  refine (shifted 0).congr fun o => ?_
  simp only [AmongTrees, Nat.zero_add]

end Yields
end Occurrence

namespace Function

open Occurrence

/-- A definition in an item that is collected. -/
def Collected (item : Tree) (o : Occurrence) : Prop :=
  DefinedAt item o ∧ o.definition.IsCollected

/-- A function item that is not left out, as what belongs to `host`. -/
def Member (leftOut : List Tree → Bool) (host : Host) (t : Tree) (o : Occurrence) : Prop :=
  ∃ parts, t = .node .functionItem parts ∧ ¬ leftOut parts ∧ o = ⟨[], [], host, parts⟩

/-- A definition that is collected of what stands in braces. -/
def InBraces (t : Tree) (o : Occurrence) : Prop :=
  ∃ items, t = .group .brace items ∧ AmongTrees Collected items o

theorem yields_memberOf (leftOut : List Tree → Bool) (host : Host) (t : Tree) :
    Yields (memberOf leftOut host.owner t) (Member leftOut host t) := by
  unfold memberOf
  split
  · next parts =>
    split
    · next out =>
      refine .empty ?_
      rintro o ⟨_, same, kept, -⟩
      cases same
      exact kept out
    · next kept =>
      refine (Yields.single ⟨[], [], host, parts⟩).congr fun o => ⟨?_, ?_⟩
      · rintro ⟨_, same, -, rfl⟩
        cases same
        rfl
      · rintro rfl
        exact ⟨parts, rfl, kept, rfl⟩
  · next other =>
    refine .empty ?_
    rintro o ⟨parts, rfl, -⟩
    exact other parts rfl

theorem among_member_iff {container : List Tree} {leftOut : List Tree → Bool} {host : Host}
    {o : Occurrence} : AmongTrees (Member leftOut host) (braceContent container) o ↔
      ∃ members i parts, container.getLast? = some (.group .brace members) ∧
        members[i]? = some (.node .functionItem parts) ∧ ¬ leftOut parts ∧
        o = ⟨[i], [], host, parts⟩ := by
  constructor
  · rintro ⟨i, t, inner, found, ⟨parts, rfl, kept, rfl⟩, rfl⟩
    unfold braceContent at found
    split at found
    · next members last => exact ⟨members, i, parts, last, found, kept, rfl⟩
    · simp at found
  · rintro ⟨members, i, parts, last, found, kept, rfl⟩
    have content : braceContent container = members := by rw [braceContent, last]
    exact ⟨i, _, _, content ▸ found, ⟨parts, rfl, kept, rfl⟩, rfl⟩

theorem collected_functionItem_iff {parts : List Tree} {o : Occurrence} :
    Collected (.node .functionItem parts) o ↔
      Member isTest .nothing (.node .functionItem parts) o := by
  constructor
  · rintro ⟨defined, -, permitted⟩
    cases defined
    obtain ⟨_, none⟩ | ordinary := permitted
    · cases none
    · exact ⟨parts, rfl, ordinary, rfl⟩
  · rintro ⟨_, same, ordinary, rfl⟩
    cases same
    exact ⟨.free, ⟨nofun, nofun⟩, .inr ordinary⟩

theorem collected_implItem_iff {container : List Tree} {o : Occurrence} :
    Collected (.node .implItem container) o ↔ ¬ isTestConfigured container ∧
      ∃ inner,
        AmongTrees (Member isTest (.implementation container)) (braceContent container) inner ∧
        o = inner.under (container.length - 1) := by
  simp only [among_member_iff]
  constructor
  · rintro ⟨defined, ⟨-, unmarked⟩, permitted⟩
    cases defined with
    | method braces member =>
      obtain ⟨_, none⟩ | ordinary := permitted
      · cases none
      · exact ⟨unmarked, _, ⟨_, _, _, braces, member, ordinary, rfl⟩, rfl⟩
  · rintro ⟨unmarked, _, ⟨members, i, parts, braces, member, ordinary, rfl⟩, rfl⟩
    exact ⟨.method braces member, ⟨nofun, unmarked⟩, .inr ordinary⟩

theorem collected_traitItem_iff {container : List Tree} {o : Occurrence} :
    Collected (.node .traitItem container) o ↔ ¬ isTestConfigured container ∧
      ∃ inner,
        AmongTrees (Member (fun _ => false) (.trait container)) (braceContent container) inner ∧
        o = inner.under (container.length - 1) := by
  simp only [among_member_iff]
  constructor
  · rintro ⟨defined, ⟨-, unmarked⟩, -⟩
    cases defined with
    | default braces member =>
      exact ⟨unmarked, _, ⟨_, _, _, braces, member, nofun, rfl⟩, rfl⟩
  · rintro ⟨unmarked, _, ⟨members, i, parts, braces, member, -, rfl⟩, rfl⟩
    exact ⟨.default braces member, ⟨nofun, unmarked⟩, .inl ⟨_, rfl⟩⟩

theorem collected_moduleItem_iff {parts : List Tree} {o : Occurrence} :
    Collected (.node .moduleItem parts) o ↔ ¬ isTestConfigured parts ∧
      ∃ inner, AmongTrees InBraces parts inner ∧ o = inner.inside parts := by
  constructor
  · rintro ⟨defined, ⟨unmarked, host⟩, permitted⟩
    cases defined with
    | @inModule _ items j i item o braces member inner =>
      obtain ⟨first, rest⟩ := List.forall_mem_cons.mp unmarked
      exact ⟨first, (o.under i).under j,
        ⟨j, _, o.under i, braces, ⟨items, rfl, i, item, o, member,
          ⟨inner, ⟨rest, host⟩, permitted⟩, rfl⟩, rfl⟩, rfl⟩
  · rintro ⟨first, _, ⟨j, _, _, braces, ⟨items, rfl, i, item, o, member,
      ⟨inner, ⟨rest, host⟩, permitted⟩, rfl⟩, rfl⟩, rfl⟩
    exact ⟨.inModule braces member inner, ⟨List.forall_mem_cons.mpr ⟨first, rest⟩, host⟩, permitted⟩

/-- What a container adds that may be configured for tests. -/
theorem yields_unless {marked : Bool} {functions : List Function} {holds : Occurrence → Prop}
    (h : Yields functions holds) :
    Yields (if marked then [] else functions) fun o => ¬ marked ∧ holds o := by
  cases marked with
  | true => exact .empty fun o h => h.1 rfl
  | false => exact h.congr fun o => and_iff_right nofun

mutual
theorem yields_collect (item : Tree) : Yields (collect item) (Collected item) := by
  unfold collect
  split
  · next parts =>
    exact (yields_memberOf isTest .nothing (.node .functionItem parts)).congr
      fun o => collected_functionItem_iff
  · next container =>
    rw [ofImplementation_eq]
    have members : Yields _ (AmongTrees (Member isTest (.implementation container)) _) :=
      .among fun t (_ : t ∈ braceContent container) => yields_memberOf _ _ t
    exact (yields_unless (members.under _)).congr fun o => collected_implItem_iff
  · next container =>
    rw [ofTrait_eq]
    have members : Yields _ (AmongTrees (Member (fun _ => false) (.trait container)) _) :=
      .among fun t (_ : t ∈ braceContent container) => yields_memberOf _ _ t
    exact (yields_unless (members.under _)).congr fun o => collected_traitItem_iff
  · next parts =>
    rw [collectGroups_eq]
    have groups := Yields.among (yields_ofBraces parts)
    exact (yields_unless (groups.inside parts)).congr fun o => collected_moduleItem_iff
  · next noFunction noImplementation noTrait noModule =>
    refine .empty ?_
    rintro o ⟨defined, -⟩
    cases defined with
    | free => exact noFunction _ rfl
    | method => exact noImplementation _ rfl
    | default => exact noTrait _ rfl
    | inModule => exact noModule _ rfl

theorem yields_each (items : List Tree) :
    ∀ item ∈ items, Yields (collect item) (Collected item) := by
  match items with
  | [] => nofun
  | item :: rest => exact List.forall_mem_cons.mpr ⟨yields_collect item, yields_each rest⟩

theorem yields_ofBraces (parts : List Tree) :
    ∀ t ∈ parts, Yields (ofBraces t) (InBraces t) := by
  match parts with
  | [] => nofun
  | t :: rest =>
    refine List.forall_mem_cons.mpr ⟨?_, yields_ofBraces rest⟩
    unfold ofBraces
    split
    · next items =>
      rw [collectAll_eq]
      refine (Yields.among (yields_each items)).congr fun o => ⟨?_, fun among => ⟨_, rfl, among⟩⟩
      rintro ⟨_, same, among⟩
      cases same
      exact among
    · next other =>
      refine .empty ?_
      rintro o ⟨items, rfl, -⟩
      exact other items rfl
end

/-- The name by which a type owns its methods, read off its tree: the last word of a path, and the
printed text of any other type. -/
inductive Owns : Tree → String → Prop
  | path {kind : Kind} {front arguments : List Tree} {owner : String}
      (isPath : kind = .path ∨ kind = .qualifiedPath) :
      Owns (.node .pathType
        [.node kind (front ++ [.node .segment (.word [.ident owner] :: arguments)])]) owner
  | other {type : Tree} (noPath : ∀ path, type ≠ .node .pathType [path]) : Owns type type.printedText

/-- The type that an implementation is for, in front of its conditions and its braces. -/
inductive IsFor : List Tree → Tree → Prop
  | plain {before members : List Tree} {type : Tree} (noConditions : ¬ type.isNode .whereClause) :
      IsFor (before ++ [type, .group .brace members]) type
  | conditioned {before conditions members : List Tree} {type : Tree} :
      IsFor (before ++ [type, .node .whereClause conditions, .group .brace members]) type

theorem ownerName_of_owns {type : Tree} {owner : String} (owns : Owns type owner) :
    ownerName type = owner := by
  cases owns with
  | @path kind front arguments owner isPath =>
    rcases isPath with rfl | rfl <;>
      simp [ownerName, Tree.lastWord?, Tree.pathWords, Tree.wordText?, List.filterMap_append]
  | other noPath =>
    unfold ownerName
    split
    · next path => exact absurd rfl (noPath path)
    · rfl

theorem implementedType_of_isFor {container : List Tree} {type : Tree}
    (isFor : IsFor container type) :
    implementedType container = some type := by
  cases isFor with
  | plain noConditions =>
    simp only [implementedType, List.reverse_append, List.reverse_cons, List.reverse_nil,
      List.nil_append, List.cons_append]
    split
    · next same =>
      simp only [List.cons.injEq] at same
      exact absurd (same.2.1 ▸ rfl) noConditions
    · next same =>
      simp only [List.cons.injEq] at same
      rw [same.2.1]
    · next other => exact absurd rfl (other _ _ _)
  | conditioned => simp [implementedType]

/-- How the function of a definition is called: by its own name, behind that of the type or the
trait that it belongs to. -/
def IsNamed (o : Occurrence) : Prop :=
  match o.definition.host with
  | .nothing => o.function.name = o.function.bareName
  | .implementation container => ∀ type owner, IsFor container type → Owns type owner →
      o.function.name = owner ++ "::" ++ o.function.bareName
  | .trait container => o.function.name = Tree.nameOf container ++ "::" ++ o.function.bareName

theorem isNamed (o : Occurrence) : IsNamed o := by
  obtain ⟨place, modules, host, parts⟩ := o
  cases host with
  | nothing => rfl
  | implementation container =>
    intro type owner isFor owns
    rw [← ownerName_of_owns owns]
    change (((implementedType container).map ownerName).getD "") ++ "::" ++ _ = _
    rw [implementedType_of_isFor isFor]
    rfl
  | trait container => rfl

theorem endsInBody_of_definedAt {item : Tree} {o : Occurrence} (defined : DefinedAt item o)
    (bodied : item.Bodied) : Tree.EndsInBody o.definition.parts := by
  have each {kind : Kind} {parts : List Tree} (h : Tree.Bodied (.node kind parts)) :
      ∀ t ∈ parts, t.Bodied := by
    cases h with
    | node _ each => exact each
  have content {d : Delimiter} {trees : List Tree} (h : Tree.Bodied (.group d trees)) :
      ∀ t ∈ trees, t.Bodied := by
    cases h with
    | group each => exact each
  have ends {parts : List Tree} (h : Tree.Bodied (.node .functionItem parts)) :
      Tree.EndsInBody parts := by
    cases h with
    | node body _ => exact body rfl
  induction defined with
  | free => exact ends bodied
  | method braces member =>
    have braces := each bodied _ (List.mem_of_getLast? braces)
    exact ends (content braces _ (List.mem_of_getElem? member))
  | default braces member =>
    have braces := each bodied _ (List.mem_of_getLast? braces)
    exact ends (content braces _ (List.mem_of_getElem? member))
  | inModule braces member _ ih =>
    have braces := each bodied _ (List.mem_of_getElem? braces)
    exact ih (content braces _ (List.mem_of_getElem? member))

theorem among_collected_iff {items : List Tree} {o : Occurrence} :
    AmongTrees Collected items o ↔ AmongTrees DefinedAt items o ∧ o.definition.IsCollected := by
  constructor
  · rintro ⟨i, t, inner, found, ⟨defined, collected⟩, rfl⟩
    exact ⟨⟨i, t, inner, found, defined, rfl⟩, collected⟩
  · rintro ⟨⟨i, t, inner, found, defined, rfl⟩, collected⟩
    exact ⟨i, t, inner, found, ⟨defined, collected⟩, rfl⟩

/-- The functions of a file are those of its definitions in the order of the text, each once, and
have a row each in the same order. Left out is what stands in anything configured for tests, and
test code that is no method of a trait. -/
theorem collects_definitions_in_order {source : String} {items : List Tree}
    (parsed : (Lexer.fileTokens? source).bind Syntax.parseFile? = some items) :
    ∃ found : List Occurrence,
      Enlists found (fun o => AmongTrees DefinedAt items o ∧ o.definition.Unmarked ∧
        (o.definition.host.IsTrait ∨ ¬ o.function.IsTestCode)) ∧
      (∀ o ∈ found, Tree.EndsInBody o.definition.parts ∧ IsNamed o) ∧
      ofSource? source = some (found.map Occurrence.function) ∧
      ∀ fileName, ∃ rows, FeatureRow.ofSource? fileName source = some rows ∧
        rows.map FeatureRow.functionName = found.map fun o => o.function.name := by
  obtain ⟨found, listed, functions⟩ := Yields.among (yields_each items)
  have collected : ofSource? source = some (found.map Occurrence.function) := by
    rw [ofSource?_eq, parsed, Option.map_some, collectAll_eq, functions]
  have members (o : Occurrence) : o ∈ found ↔ AmongTrees DefinedAt items o ∧
      o.definition.IsCollected := (listed.mem_iff o).trans among_collected_iff
  refine ⟨found, ⟨listed.ascending, fun o => ?_⟩, fun o mem => ⟨?_, isNamed o⟩, collected, ?_⟩
  · rw [members, Definition.IsCollected, ← isTestCode_ofItem_iff]
    rfl
  · obtain ⟨tokens, -, read⟩ := Option.bind_eq_some_iff.mp parsed
    obtain ⟨i, item, inner, itemMem, defined, rfl⟩ := ((members o).mp mem).1
    have bodied := Syntax.bodied_of_parseFile? read item (List.mem_of_getElem? itemMem)
    have ends : Tree.EndsInBody inner.definition.parts := endsInBody_of_definedAt defined bodied
    exact ends
  · intro fileName
    refine ⟨_, by rw [FeatureRow.ofSource?, collected]; rfl, ?_⟩
    rw [FeatureRow.ofFunctions, List.map_map, List.map_map]
    rfl

theorem collects_definitions_in_order_of_modules_and_traits :
    ∃ found : List Occurrence, (found.Pairwise fun a b => a.place < b.place) ∧
      ofSource? "mod m { impl S<T> { fn a() { fn b() {} } } mod n; } trait U { fn c(); fn d() {} }" =
        some (found.map Occurrence.function) ∧
      found.map (fun o => o.function.name) = ["S::a", "U::d"] := by
  obtain ⟨items, parsed⟩ := Option.isSome_iff_exists.mp (show ((Lexer.fileTokens?
    "mod m { impl S<T> { fn a() { fn b() {} } } mod n; } trait U { fn c(); fn d() {} }").bind
      Syntax.parseFile?).isSome from by decide +kernel)
  obtain ⟨found, listed, -, collected, -⟩ := collects_definitions_in_order parsed
  have names : (ofSource?
      "mod m { impl S<T> { fn a() { fn b() {} } } mod n; } trait U { fn c(); fn d() {} }").map
        (·.map Function.name) = some ["S::a", "U::d"] := by decide +kernel
  refine ⟨found, listed.ascending, collected, ?_⟩
  rw [collected, Option.map_some, List.map_map] at names
  exact Option.some.inj names

/-- A method of a trait is listed although it is marked as a test. -/
theorem marked_method_of_trait_listed :
    (ofSource? "trait T { #[test] fn a(&self) {} fn b(&self) {} }").map (·.map fun f =>
      (f.name, decide f.IsTestCode)) = some [("T::a", true), ("T::b", false)] := by
  decide +kernel

end Function
end CallStudy.Source
