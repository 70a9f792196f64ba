import CallStudy.Proofs.Source.Comments

/-!
The functions of items whose comments are taken out: they are the functions of the items, without
the comments inside of them. Whether code is for tests, what a type is called and what a body
measures does not depend on comments.
-/

set_option autoImplicit false

open CallStudy.Source.Tree

namespace CallStudy.Source

namespace Tree

/-! Lists of parts without their comments. -/

theorem filter_bareFront {q : Tree → Bool} (bared : ∀ t, q t.bare = q t)
    (others : ∀ t, ¬ Attribute.isAttribute t → q t) (parts : List Tree) :
    (bareFront parts).filter q = bareFront (parts.filter q) := by
  induction parts with
  | nil => rfl
  | cons t rest ih =>
    have each : (bareEach rest).filter q = bareEach (rest.filter q) := by
      rw [bareEach_eq_map, bareEach_eq_map, List.filter_map]
      simp only [Function.comp_def, bared]
    rw [bareFront]
    by_cases comment : t.isDocComment
    · rw [if_pos comment, ih, List.filter_cons]
      split
      · rw [bareFront, if_pos comment]
      · rfl
    · rw [if_neg comment]
      by_cases outer : Attribute.isAttribute t
      · rw [if_pos outer, List.filter_cons, List.filter_cons, ih]
        split
        · rw [bareFront, if_neg comment, if_pos outer]
        · rfl
      · have kept := others t outer
        rw [if_neg outer, List.filter_cons_of_pos kept,
          List.filter_cons_of_pos (by rw [bared, kept]), bareFront, if_neg comment, if_neg outer,
          each]

theorem map_bareFront {g : Tree → Tree} (attributes : ∀ a, Attribute.isAttribute a → g a = a)
    (isAttribute : ∀ t, Attribute.isAttribute (g t) = Attribute.isAttribute t)
    (bared : ∀ t, g t.bare = (g t).bare) (parts : List Tree) :
    (bareFront parts).map g = bareFront (parts.map g) := by
  induction parts with
  | nil => rfl
  | cons t rest ih =>
    rw [List.map_cons, bareFront, bareFront, isAttribute]
    by_cases outer : Attribute.isAttribute t
    · rw [attributes t outer]
      split
      · exact ih
      · rw [List.map_cons, attributes t outer, ih]
    · have comment : ¬ t.isDocComment := fun comment =>
        outer (isAttribute_of_isDocComment comment)
      have comment' : ¬ (g t).isDocComment := fun comment => by
        rw [← isAttribute t] at outer
        exact outer (isAttribute_of_isDocComment comment)
      rw [if_neg comment, if_neg comment', if_neg outer, if_neg outer, List.map_cons, bared,
        bareEach_eq_map, bareEach_eq_map, List.map_map, List.map_map]
      exact congrArg (_ :: ·) (List.map_congr_left fun t _ => bared t)

theorem flatMap_bareFront {β : Type} {b : β → β} {g : Tree → List β} {parts : List Tree}
    (attributes : ∀ a, Attribute.isAttribute a → g a = [])
    (bared : ∀ t ∈ parts, g t.bare = (g t).map b) :
    (bareFront parts).flatMap g = (parts.flatMap g).map b := by
  induction parts with
  | nil => rfl
  | cons t rest ih =>
    obtain ⟨first, later⟩ := List.forall_mem_cons.mp bared
    rw [bareFront, List.flatMap_cons, List.map_append]
    by_cases outer : Attribute.isAttribute t
    · rw [attributes t outer, List.map_nil, List.nil_append, ← ih later]
      split
      · rfl
      · rw [List.flatMap_cons, attributes t outer, List.nil_append]
    · have comment : ¬ t.isDocComment := fun comment =>
        outer (isAttribute_of_isDocComment comment)
      rw [if_neg comment, if_neg outer, List.flatMap_cons, first, bareEach_eq_map,
        List.flatMap_map, List.map_flatMap]
      exact congrArg (_ ++ ·) (List.flatMap_congr later)

theorem bare_eq_iff {a t : Tree} (attr : Attribute.isAttribute a) : t.bare = a ↔ t = a := by
  constructor
  · intro same
    rw [← same, isAttribute_bare] at attr
    rwa [bare_of_isAttribute attr] at same
  · rintro rfl
    exact bare_of_isAttribute attr

theorem mem_bareFront_iff {parts : List Tree} {a : Tree} (attr : Attribute.isAttribute a)
    (other : ¬ a.isDocComment) : a ∈ bareFront parts ↔ a ∈ parts := by
  obtain ⟨attributes, rest, rfl, each, same⟩ := exists_bareFront_eq parts
  rw [same, List.mem_append, List.mem_append, List.mem_filter, List.mem_map]
  simp only [bare_eq_iff attr, exists_eq_right, Bool.not_eq_true', other, and_true]

theorem exists_bareFront_iff {holds : Tree → Prop}
    (attributes : ∀ a, Attribute.isAttribute a → ¬ holds a)
    (bared : ∀ t, holds t.bare ↔ holds t) (parts : List Tree) :
    (∃ t ∈ bareFront parts, holds t) ↔ ∃ t ∈ parts, holds t := by
  refine iff_of_eq (view_bareFront (fun parts => ∃ t ∈ parts, holds t) (fun a rest attr => ?_)
    (fun rest => ?_) parts)
  · simp [attributes a attr]
  · simp [bared]

theorem bareLast_ne_nil (t : Tree) (rest : List Tree) : bareLast (t :: rest) ≠ [] := by
  cases rest with
  | nil => cases t <;> nofun
  | cons _ _ => nofun

theorem bareLast_eq_iff {parts content : List Tree} : bareLast parts = [group .brace content] ↔
    ∃ content', parts = [group .brace content'] ∧ content = bareFront content' := by
  cases parts with
  | nil => simp [bareLast]
  | cons t rest =>
    cases rest with
    | nil => cases t <;> simp [bareLast, eq_comm]
    | cons next rest => simp [bareLast, bareLast_ne_nil]

theorem bare_eq_braces_iff {t : Tree} {content : List Tree} : t.bare = group .brace content ↔
    ∃ content', t = group .brace content' ∧ content = bareFront content' := by
  cases t <;> simp [bare, eq_comm]

theorem exists_bareLast_iff {holds : Tree → Prop}
    (bared : ∀ d content, holds (group d (bareFront content)) ↔ holds (group d content))
    (parts : List Tree) : (∃ t ∈ bareLast parts, holds t) ↔ ∃ t ∈ parts, holds t := by
  induction parts with
  | nil => rfl
  | cons t rest ih =>
    cases rest with
    | nil =>
      cases t with
      | group d content => simp [bareLast, bared]
      | _ => rfl
    | cons next rest =>
      rw [bareLast, List.exists_mem_cons_iff, List.exists_mem_cons_iff, ih]

theorem bareLast_append_singleton (before : List Tree) (last : Tree) :
    bareLast (before ++ [last]) = before ++ bareLast [last] := by
  induction before with
  | nil => rfl
  | cons t rest ih =>
    cases rest with
    | nil => rfl
    | cons next rest => exact congrArg (t :: ·) ih

theorem mem_dropComments_iff {parts : List Tree} {t : Tree} (other : ¬ t.isDocComment) :
    t ∈ dropComments parts ↔ t ∈ parts := by
  induction parts with
  | nil => rfl
  | cons first rest ih =>
    rw [dropComments, List.mem_cons]
    split
    · next dropped =>
      have distinct : t ≠ first := fun same => other (same ▸ dropped.1)
      rw [ih, or_iff_right distinct]
    · rw [List.mem_cons, ih]

theorem bare_eq_body_iff {t : Tree} {content : List Tree} :
    t.bare = node .block [group .brace content] ↔
      ∃ content', t = node .block [group .brace content'] ∧ content = bareFront content' := by
  cases t with
  | node kind parts =>
    by_cases block : kind = .block
    · subst block
      have bared : (node .block parts).bare = node .block (bareLast parts) := rfl
      rw [bared]
      simpa using bareLast_eq_iff
    · obtain ⟨parts', same⟩ := bare_node kind parts
      simp [same, block]
  | _ => simp [bare]

end Tree

namespace Attribute

/-- Takes the attributes that document a function out of the braces of its body. -/
def stripBody : Tree → Tree
  | .node .block [.group .brace content] =>
    .node .block [.group .brace (content.filter fun t =>
      !(t.isNode .innerAttribute && isNamed "doc" t))]
  | t => t

theorem stripDocumentation_eq (parts : List Tree) : stripDocumentation parts =
    (parts.filter fun t => !(isAttribute t && isNamed "doc" t)).map stripBody := rfl

theorem stripBody_bare (t : Tree) : stripBody t.bare = (stripBody t).bare := by
  have inner (t : Tree) : ¬ isAttribute t → !(t.isNode .innerAttribute && isNamed "doc" t) := by
    intro outer
    simp_all [isAttribute]
  have bared (t : Tree) : (!(t.bare.isNode .innerAttribute && isNamed "doc" t.bare)) =
      !(t.isNode .innerAttribute && isNamed "doc" t) := by
    by_cases outer : isAttribute t
    · rw [bare_of_isAttribute outer]
    · rw [inner t outer, inner t.bare (by rwa [isAttribute_bare])]
  rw [stripBody.eq_def t]
  split
  · next content =>
    change Tree.node .block [.group .brace ((bareFront content).filter _)] =
      .node .block [.group .brace (bareFront (content.filter _))]
    rw [filter_bareFront bared inner]
  · next body =>
    rw [stripBody]
    intro content same
    obtain ⟨content', rfl, -⟩ := bare_eq_body_iff.mp same
    exact body content' rfl

/-- It makes no difference when comments are taken out, before or after all that documents. -/
theorem stripDocumentation_bareFront (parts : List Tree) :
    stripDocumentation (bareFront parts) = bareFront (stripDocumentation parts) := by
  rw [stripDocumentation_eq, stripDocumentation_eq, filter_bareFront, map_bareFront]
  · intro a attr
    obtain ⟨_, rfl | rfl⟩ := exists_eq_of_isAttribute attr <;> rfl
  · intro t
    unfold stripBody
    split <;> rfl
  · exact stripBody_bare
  · intro t
    by_cases outer : isAttribute t
    · rw [bare_of_isAttribute outer]
    · simp [outer]
  · intro t outer
    simp [outer]

/-! Attributes other than comments stay. -/

/-- The one list has the attributes of the other, in front and at the start of braces, but for
comments. -/
def SameAttributes (parts parts' : List Tree) : Prop :=
  ∀ a, ¬ a.isDocComment → (a ∈ ofItem parts' ↔ a ∈ ofItem parts)

/-- The attribute stands at the start of braces. -/
def StandsInside (a t : Tree) : Prop :=
  ∃ content, IsBraces content t ∧ a ∈ content ∧ a.isNode .innerAttribute

theorem mem_ofItem_iff_standsInside {parts : List Tree} {a : Tree} :
    a ∈ ofItem parts ↔ a ∈ parts ∧ isAttribute a ∨ ∃ t ∈ parts, StandsInside a t := by
  rw [mem_ofItem_iff]
  refine or_congr_right ⟨?_, ?_⟩
  · rintro ⟨content, ⟨t, mem, braces⟩, inside, inner⟩
    exact ⟨t, mem, content, braces, inside, inner⟩
  · rintro ⟨t, mem, content, braces, inside, inner⟩
    exact ⟨content, ⟨t, mem, braces⟩, inside, inner⟩

theorem standsInside_bare {a : Tree} (other : ¬ a.isDocComment) (t : Tree) :
    StandsInside a t.bare ↔ StandsInside a t := by
  have kept (content : List Tree) (inner : a.isNode .innerAttribute) :
      a ∈ bareFront content ↔ a ∈ content :=
    mem_bareFront_iff (by simp [isAttribute, inner]) other
  simp only [StandsInside, IsBraces, bare_eq_braces_iff, bare_eq_body_iff]
  constructor
  · rintro ⟨_, ⟨content, rfl, rfl⟩ | ⟨content, rfl, rfl⟩, inside, inner⟩
    · exact ⟨content, .inl rfl, (kept content inner).mp inside, inner⟩
    · exact ⟨content, .inr rfl, (kept content inner).mp inside, inner⟩
  · rintro ⟨content, rfl | rfl, inside, inner⟩
    · exact ⟨_, .inl ⟨content, rfl, rfl⟩, (kept content inner).mpr inside, inner⟩
    · exact ⟨_, .inr ⟨content, rfl, rfl⟩, (kept content inner).mpr inside, inner⟩

theorem not_standsInside {a t : Tree} (attr : isAttribute t) : ¬ StandsInside a t := by
  rintro ⟨content, rfl | rfl, -⟩ <;> cases attr

theorem sameAttributes_bareFront (parts : List Tree) :
    SameAttributes parts (bareFront parts) := by
  intro a other
  rw [mem_ofItem_iff_standsInside, mem_ofItem_iff_standsInside]
  refine or_congr (and_congr_left fun attr => mem_bareFront_iff attr other) ?_
  exact exists_bareFront_iff (fun _ => not_standsInside) (standsInside_bare other) parts

theorem sameAttributes_members (parts : List Tree) :
    SameAttributes parts (dropComments (bareLast parts)) := by
  intro a other
  rw [mem_ofItem_iff_standsInside, mem_ofItem_iff_standsInside, mem_dropComments_iff other]
  refine or_congr (and_congr_left fun attr => ?_) ?_
  · have last : (∃ t ∈ bareLast parts, a = t) ↔ ∃ t ∈ parts, a = t := by
      refine exists_bareLast_iff (fun d content => ?_) parts
      constructor <;> rintro rfl <;> cases attr
    simpa using last
  · have last : (∃ t ∈ bareLast parts, StandsInside a t) ↔ ∃ t ∈ parts, StandsInside a t :=
      exists_bareLast_iff (fun d content => standsInside_bare other (.group d content)) parts
    rw [← last]
    refine exists_congr fun t => and_congr_left fun inside => mem_dropComments_iff fun comment => ?_
    exact not_standsInside (isAttribute_of_isDocComment comment) inside

theorem any_ofItem {parts parts' : List Tree} (same : SameAttributes parts parts')
    {p : Tree → Bool} (other : ∀ a, a.isDocComment → p a = false) :
    (ofItem parts').any p = (ofItem parts).any p := by
  rw [Bool.eq_iff_iff, List.any_eq_true, List.any_eq_true]
  refine exists_congr fun a => and_congr_left fun h => same a fun comment => ?_
  rw [other a comment] at h
  cases h

theorem isNamed_comment {name : String} (other : name ≠ "doc") (a : Tree) (comment : a.isDocComment) :
    isNamed name a = false := by
  rw [← Bool.not_eq_true]
  exact fun named => other (eq_of_isNamed named (isNamed_of_isDocComment comment))

theorem isTestConfiguration_comment (a : Tree) (comment : a.isDocComment) :
    isTestConfiguration a = false := by
  rw [isTestConfiguration, isNamed_comment (by decide) a comment, Bool.false_and]

end Attribute

namespace Function

theorem isTestConfigured_eq {parts parts' : List Tree} (same : Attribute.SameAttributes parts parts') :
    isTestConfigured parts' = isTestConfigured parts :=
  Attribute.any_ofItem same Attribute.isTestConfiguration_comment

/-- A function without the comments inside of it. -/
def bare (f : Function) : Function := { f with parts := bareFront f.parts }

theorem headingOf_bareFront (parts : List Tree) :
    headingOf (bareFront parts) = bareFront (headingOf parts) := by
  rw [headingOf, headingOf, findNode?_bareFront (by decide) (by decide)]
  cases h : findNode? .signature parts with
  | none => rfl
  | some t =>
    obtain ⟨content, rfl⟩ := exists_eq_node_of_isNode (List.find?_some h)
    rfl

theorem isTest_bareFront (parts : List Tree) : isTest (bareFront parts) = isTest parts := by
  have same := Attribute.sameAttributes_bareFront parts
  rw [isTest, isTest, headingOf_bareFront, nameOf_bareFront, isTestConfigured_eq same,
    Attribute.any_ofItem same (Attribute.isNamed_comment (by decide))]

theorem ofItem_bareFront (owner : Option String) (parts : List Tree) :
    ofItem owner (bareFront parts) = (ofItem owner parts).bare := by
  simp only [ofItem, bare, headingOf_bareFront, nameOf_bareFront,
    Attribute.stripDocumentation_bareFront]

/-! What an implementation is for. -/

/-- The type among the trees in front of an implementation's braces, the last of them first. -/
def typeInFront : List Tree → Option Tree
  | .node .whereClause _ :: type :: _ => some type
  | type :: _ => some type
  | [] => none

theorem typeInFront_append_word (behind before : List Tree) (ts : List Token) :
    typeInFront (behind ++ .word ts :: before) = typeInFront (behind ++ [.word ts]) := by
  match behind with
  | [] => rfl
  | [.node kind _] | .node kind _ :: _ :: _ => cases kind <;> rfl
  | [.word _] | .word _ :: _ :: _ => rfl
  | [.raw _] | .raw _ :: _ :: _ => rfl
  | [.group _ _] | .group _ _ :: _ :: _ => rfl

theorem implementedType_append_braces (before content : List Tree) :
    implementedType (before ++ [.group .brace content]) = typeInFront before.reverse := by
  simp only [implementedType, List.reverse_append, List.reverse_singleton, List.singleton_append]
  match before.reverse with
  | [] => rfl
  | [.node kind _] | .node kind _ :: _ :: _ => cases kind <;> rfl
  | [.word _] | .word _ :: _ :: _ => rfl
  | [.raw _] | .raw _ :: _ :: _ => rfl
  | [.group _ _] | .group _ _ :: _ :: _ => rfl

theorem implementedType_append_other (before : List Tree) {last : Tree}
    (other : ∀ content, last ≠ .group .brace content) : implementedType (before ++ [last]) = none := by
  simp only [implementedType, List.reverse_append, List.reverse_singleton, List.singleton_append]
  split
  · next same =>
    obtain ⟨rfl, -⟩ := List.cons.inj same
    exact absurd rfl (other _)
  · next same =>
    obtain ⟨rfl, -⟩ := List.cons.inj same
    exact absurd rfl (other _)
  · rfl

theorem implementedType_bareLast (parts : List Tree) :
    implementedType (bareLast parts) = implementedType parts := by
  obtain rfl | ⟨before, last, rfl⟩ := List.eq_nil_or_concat' parts
  · rfl
  rw [bareLast_append_singleton]
  cases last with
  | group d content =>
    rw [bareLast]
    by_cases braces : d = .brace
    · subst braces
      rw [implementedType_append_braces, implementedType_append_braces]
    · rw [implementedType_append_other, implementedType_append_other] <;> simp [braces]
  | _ => rfl

/-- The type stands behind any word of an implementation's heading, or is the word. -/
theorem implementedType_append_word (before rest : List Tree) (ts : List Token) :
    implementedType (before ++ .word ts :: rest) = implementedType (.word ts :: rest) := by
  obtain rfl | ⟨rest, last, rfl⟩ := List.eq_nil_or_concat' rest
  · exact (implementedType_append_other before (by simp)).trans
      (implementedType_append_other [] (by simp)).symm
  rw [← List.cons_append, ← List.append_assoc]
  by_cases braces : ∃ content, last = .group .brace content
  · obtain ⟨content, rfl⟩ := braces
    rw [implementedType_append_braces, implementedType_append_braces, List.reverse_append,
      List.reverse_cons, List.append_assoc]
    exact typeInFront_append_word rest.reverse before.reverse ts
  · rw [not_exists] at braces
    rw [implementedType_append_other _ braces, implementedType_append_other _ braces]

theorem exists_eq_of_isHeaded {parts : List Tree} (headed : isHeaded parts) :
    ∃ before ts rest, parts = before ++ .word ts :: rest := by
  unfold isHeaded at headed
  split at headed
  · next ts found =>
    obtain ⟨before, rest, rfl, -⟩ := List.find?_eq_some_iff_append.mp found |>.2
    exact ⟨before, ts, rest, rfl⟩
  · cases headed

theorem implementedType_dropComments (before parts : List Tree) :
    implementedType (before ++ dropComments parts) = implementedType (before ++ parts) := by
  induction parts generalizing before with
  | nil => rfl
  | cons t rest ih =>
    rw [dropComments]
    split
    · next dropped =>
      obtain ⟨front, ts, behind, rfl⟩ := exists_eq_of_isHeaded dropped.2
      rw [ih, ← List.append_assoc, implementedType_append_word, ← List.cons_append,
        ← List.append_assoc, implementedType_append_word]
    · rw [List.append_cons, ih, ← List.append_cons]

theorem getLast?_dropComments (parts : List Tree) :
    (dropComments parts).getLast? = parts.getLast? := by
  induction parts with
  | nil => rfl
  | cons t rest ih =>
    rw [dropComments]
    split
    · next dropped =>
      obtain ⟨front, ts, behind, rfl⟩ := exists_eq_of_isHeaded dropped.2
      rw [ih, ← List.cons_append, List.getLast?_append_cons, List.getLast?_append_cons]
    · rw [List.getLast?_cons, ih, List.getLast?_cons]

/-! What stands between braces. -/

theorem braceContent_bareFront (parts : List Tree) :
    braceContent (bareFront parts) = bareFront (braceContent parts) := by
  refine map_view_bareFront braceContent bareFront (fun a rest attr => ?_) (fun rest => ?_) parts
  · cases rest with
    | nil => obtain ⟨_, rfl | rfl⟩ := exists_eq_of_isAttribute attr <;> rfl
    | cons t rest => rw [braceContent, braceContent, List.getLast?_cons_cons]
  · rw [braceContent, braceContent, List.getLast?_map]
    match rest.getLast? with
    | none => rfl
    | some (.group d _) => cases d <;> rfl
    | some (.node _ _) => rfl
    | some (.word _) => rfl
    | some (.raw _) => rfl

theorem braceContent_append_singleton (before : List Tree) (last : Tree) :
    braceContent (before ++ [last]) = braceContent [last] := by
  rw [braceContent, List.getLast?_concat]
  rfl

theorem braceContent_members (parts : List Tree) :
    braceContent (dropComments (bareLast parts)) = bareFront (braceContent parts) := by
  rw [braceContent, getLast?_dropComments, ← braceContent]
  obtain rfl | ⟨before, last, rfl⟩ := List.eq_nil_or_concat' parts
  · rfl
  rw [bareLast_append_singleton, braceContent_append_singleton]
  cases last with
  | group d content =>
    rw [bareLast, braceContent_append_singleton]
    cases d <;> rfl
  | _ => exact braceContent_append_singleton before _

/-! What is collected. -/

theorem memberOf_bare {leftOut : List Tree → Bool}
    (bared : ∀ parts, leftOut (bareFront parts) = leftOut parts) (owner : Option String) (t : Tree) :
    memberOf leftOut owner t.bare = (memberOf leftOut owner t).map bare := by
  cases t with
  | node kind parts =>
    cases kind with
    | functionItem =>
      change (if leftOut (bareFront parts) then [] else [ofItem owner (bareFront parts)]) =
        (if leftOut parts then [] else [ofItem owner parts]).map bare
      rw [bared, ofItem_bareFront]
      split <;> rfl
    | _ => rfl
  | _ => rfl

theorem ofImplementation_members (parts : List Tree) :
    ofImplementation (dropComments (bareLast parts)) = (ofImplementation parts).map bare := by
  have type : implementedType (dropComments (bareLast parts)) = implementedType parts :=
    (implementedType_dropComments [] _).trans (implementedType_bareLast parts)
  rw [ofImplementation_eq, ofImplementation_eq, type, braceContent_members]
  refine flatMap_bareFront (fun a attr => ?_) fun t _ => memberOf_bare isTest_bareFront _ t
  obtain ⟨_, rfl | rfl⟩ := exists_eq_of_isAttribute attr <;> rfl

theorem ofTrait_bareFront (parts : List Tree) :
    ofTrait (bareFront parts) = (ofTrait parts).map bare := by
  rw [ofTrait_eq, ofTrait_eq, nameOf_bareFront, braceContent_bareFront]
  refine flatMap_bareFront (fun a attr => ?_) fun t _ => memberOf_bare (fun _ => rfl) _ t
  obtain ⟨_, rfl | rfl⟩ := exists_eq_of_isAttribute attr <;> rfl

theorem collectAll_bareFront_of {items : List Tree}
    (each : ∀ t ∈ items, collect t.bare = (collect t).map bare) :
    collectAll (bareFront items) = (collectAll items).map bare := by
  rw [collectAll_eq, collectAll_eq]
  refine flatMap_bareFront (fun a attr => ?_) each
  obtain ⟨_, rfl | rfl⟩ := exists_eq_of_isAttribute attr <;> rfl

mutual
theorem collect_bare (t : Tree) : collect t.bare = (collect t).map bare := by
  match t with
  | .node kind parts =>
    have configured := isTestConfigured_eq (Attribute.sameAttributes_bareFront parts)
    cases kind with
    | functionItem =>
      exact memberOf_bare isTest_bareFront none (.node .functionItem parts)
    | implItem =>
      change (if isTestConfigured (dropComments (bareLast parts)) then [] else
        ofImplementation (dropComments (bareLast parts))) =
          (if isTestConfigured parts then [] else ofImplementation parts).map bare
      rw [isTestConfigured_eq (Attribute.sameAttributes_members parts), ofImplementation_members]
      split <;> rfl
    | traitItem =>
      change (if isTestConfigured (bareFront parts) then [] else ofTrait (bareFront parts)) =
        (if isTestConfigured parts then [] else ofTrait parts).map bare
      rw [configured, ofTrait_bareFront]
      split <;> rfl
    | moduleItem =>
      change (if isTestConfigured (bareFront parts) then [] else collectGroups (bareFront parts)) =
        (if isTestConfigured parts then [] else collectGroups parts).map bare
      have groups : collectGroups (bareFront parts) = (collectGroups parts).map bare := by
        rw [collectGroups_eq, collectGroups_eq]
        refine flatMap_bareFront (fun a attr => ?_) (ofBraces_bare parts)
        obtain ⟨_, rfl | rfl⟩ := exists_eq_of_isAttribute attr <;> rfl
      rw [configured, groups]
      split <;> rfl
    | _ => rfl
  | .group _ _ => rfl
  | .word _ => rfl
  | .raw _ => rfl

theorem collect_bare_of_mem (items : List Tree) :
    ∀ t ∈ items, collect t.bare = (collect t).map bare := by
  match items with
  | [] => nofun
  | t :: rest => exact List.forall_mem_cons.mpr ⟨collect_bare t, collect_bare_of_mem rest⟩

theorem ofBraces_bare (parts : List Tree) :
    ∀ t ∈ parts, ofBraces t.bare = (ofBraces t).map bare := by
  match parts with
  | [] => nofun
  | t :: rest =>
    refine List.forall_mem_cons.mpr ⟨?_, ofBraces_bare rest⟩
    cases t with
    | group d items =>
      cases d with
      | brace => exact collectAll_bareFront_of (collect_bare_of_mem items)
      | _ => rfl
    | _ => rfl
end

/-- What is collected of items without their comments are the functions without theirs. -/
theorem collectAll_bareFront (items : List Tree) :
    collectAll (bareFront items) = (collectAll items).map bare :=
  collectAll_bareFront_of (collect_bare_of_mem items)

/-! What is measured of a function. -/

/-- The attribute is one of the function itself, in front of it or at the start of its body. -/
def Bears (f : Function) (a : Tree) : Prop :=
  a ∈ f.parts ∧ Attribute.isAttribute a ∨
    ∃ content, .node .block [.group .brace content] ∈ f.parts ∧ a ∈ content ∧
      a.isNode .innerAttribute

/-- A function has no comments of its own. -/
theorem not_bears_comment {f : Function} {item c : Tree} (from_ : ComesFrom item f)
    (comment : c.isDocComment) : ¬ f.Bears c := by
  obtain ⟨d, -, -, rfl⟩ := from_
  have doc := isNamed_of_isDocComment comment
  have outer := isAttribute_of_isDocComment comment
  simp only [Bears, Definition.function, ofItem, Attribute.stripDocumentation_eq, List.mem_map,
    List.mem_filter]
  rintro (⟨⟨t, ⟨-, kept⟩, same⟩, -⟩ | ⟨content, ⟨t, -, same⟩, inside, inner⟩) <;>
    unfold Attribute.stripBody at same <;> split at same
  · subst same
    cases outer
  · subst same
    simp [outer, doc] at kept
  · cases same
    simp [inner, doc] at inside
  · next other => exact other _ same

variable (f : Function)

/-- The comments inside of a function. -/
def comments : List Tree := commentsFront f.parts

theorem isDocComment_of_mem_comments {c : Tree} (mem : c ∈ f.comments) : c.isDocComment :=
  isDocComment_of_mem_commentsFront f.parts mem

/-- The words of the comments inside of a function. -/
def commentWords : Nat := weightOf printedCount f.comments

/-- Comments add their words to those of the function. -/
theorem tokenCount_eq : f.tokenCount = f.bare.tokenCount + f.commentWords := by
  rw [tokenCount, tokenCount, countList_flatMap_printed, countList_flatMap_printed]
  exact weightOf_bareFront weighs_printedCount f.parts

/-- The statements between braces. -/
def statementsOf (braces : Tree) : List Tree :=
  braces.children.filter (! Tree.isNode .innerAttribute ·)

theorem statementsOf_bareFront (d : Delimiter) (content : List Tree) :
    statementsOf (.group d (bareFront content)) = bareFront (statementsOf (.group d content)) := by
  refine filter_bareFront (fun t => ?_) (fun t outer => ?_) content
  · rw [isNode_bare]
  · simp_all [Attribute.isAttribute]

/-- What the first list weighs more is the weight of comments. -/
def LosesComments (statements statements' : List Tree) : Prop :=
  ∃ comments : List Tree, (∀ c ∈ comments, c.isDocComment) ∧ ∀ m, Weighs m →
    weightOf m statements = weightOf m statements' + weightOf m comments

theorem losesComments_refl (statements : List Tree) : LosesComments statements statements :=
  ⟨[], nofun, fun _ _ => rfl⟩

theorem losesComments_bareLast (parts : List Tree) :
    LosesComments (parts.flatMap statementsOf) ((bareLast parts).flatMap statementsOf) := by
  obtain rfl | ⟨before, last, rfl⟩ := List.eq_nil_or_concat' parts
  · exact losesComments_refl []
  rw [bareLast_append_singleton]
  cases last with
  | group d content =>
    refine ⟨commentsFront (statementsOf (.group d content)), fun _ =>
      isDocComment_of_mem_commentsFront _, fun m weighs => ?_⟩
    simp only [bareLast, List.flatMap_append, List.flatMap_singleton, weightOf_append,
      statementsOf_bareFront, Nat.add_assoc]
    rw [weightOf_bareFront weighs (statementsOf _)]
  | _ => exact losesComments_refl _

theorem losesComments_body : LosesComments f.body f.bare.body := by
  rw [body, body, bare, findNode?_bareFront (by decide) (by decide)]
  cases found : findNode? .block f.parts with
  | none => exact losesComments_refl []
  | some t =>
    obtain ⟨parts, rfl⟩ := exists_eq_node_of_isNode (List.find?_some found)
    exact losesComments_bareLast parts

/-- A measure that ignores comments is the same for the body without comments. -/
theorem totalOf_openedBody_bare {measure : Kind → List Tree → Nat} (steady : Steady measure)
    (ignores : IgnoresComments measure) :
    totalOf measure f.bare.openedBody = totalOf measure f.openedBody := by
  obtain ⟨comments, each, weight⟩ := f.losesComments_body
  have size := weight _ weighs_size
  have enough : Token.sizeList (tokensList f.bare.body) ≤ Token.sizeList (tokensList f.body) := by
    rw [sizeList_tokensList, sizeList_tokensList]
    omega
  let inside := argumentsOpened (Token.sizeList (tokensList f.body))
  have same := weight _ (weighs_openedTotal inside steady ignores)
  rw [weightOf_comments_eq_zero (ignores.openedTotal_eq_zero inside) each, Nat.add_zero,
    ← totalOf_openEach, ← totalOf_openEach] at same
  rw [openedBody, openedBody, ← totalOf_opened_of_le steady enough]
  exact same.symm

theorem findNode?_bareFront_of_nowhere {kind : Kind} (nowhere : kind.commentPlace = .nowhere)
    (outer : kind ≠ .outerAttribute) (inner : kind ≠ .innerAttribute) (parts : List Tree) :
    findNode? kind (bareFront parts) = findNode? kind parts := by
  rw [findNode?_bareFront outer inner]
  cases found : findNode? kind parts with
  | none => rfl
  | some t =>
    obtain ⟨content, rfl⟩ := exists_eq_node_of_isNode (List.find?_some found)
    rw [Option.map_some, bare_of_nowhere nowhere]

theorem heading_bare : f.bare.heading = bareFront f.heading := headingOf_bareFront f.parts

theorem returnType?_bare : f.bare.returnType? = f.returnType? := by
  rw [returnType?, returnType?, heading_bare,
    findNode?_bareFront_of_nowhere rfl (by decide) (by decide)]

theorem genericParameters_bare : f.bare.genericParameters = f.genericParameters := by
  rw [genericParameters, genericParameters, heading_bare,
    findNode?_bareFront_of_nowhere rfl (by decide) (by decide)]

/-- Whether the type of a parameter is an `impl` of bounds. -/
def isAnyType (parameter : Tree) : Bool :=
  ((parameterType? parameter).map (isNode .implType)).getD false

theorem isAnyType_bareFront (kind : Kind) (parts : List Tree) :
    isAnyType (.node kind (bareFront parts)) = isAnyType (.node kind parts) := by
  refine view_bareFront (fun parts => isAnyType (.node kind parts)) (fun a rest attr => ?_)
    (fun rest => ?_) parts
  · cases rest with
    | nil => obtain ⟨_, rfl | rfl⟩ := exists_eq_of_isAttribute attr <;> rfl
    | cons t rest =>
      rw [isAnyType, isAnyType, parameterType?, parameterType?, children, children,
        List.getLast?_cons_cons]
  · rw [isAnyType, isAnyType, parameterType?, parameterType?, children, children,
      List.getLast?_map, Option.map_map]
    simp only [Function.comp_def, isNode_bare]

/-- Of the parameters between the brackets only those with a type count. -/
def isTyped (t : Tree) : Bool := t.isNode .parameter || t.isNode .typeOnlyParameter

theorem isAnyType_bare {t : Tree} (typed : isTyped t) : isAnyType t.bare = isAnyType t := by
  obtain parameter | typeOnly := Bool.or_eq_true_iff.mp typed
  · obtain ⟨parts, rfl⟩ := exists_eq_node_of_isNode parameter
    exact isAnyType_bareFront _ parts
  · obtain ⟨parts, rfl⟩ := exists_eq_node_of_isNode typeOnly
    exact isAnyType_bareFront _ parts

theorem isAnyType_filter_bareFront (content : List Tree) :
    ((bareFront content).filter isTyped).map isAnyType =
      (content.filter isTyped).map isAnyType := by
  refine view_bareFront (fun content => (content.filter isTyped).map isAnyType)
    (fun a rest attr => ?_) (fun rest => ?_) content
  · have other : ¬ isTyped a := by
      obtain ⟨_, rfl | rfl⟩ := exists_eq_of_isAttribute attr <;> nofun
    rw [List.filter_cons_of_neg other]
  · have typed (t : Tree) : isTyped t.bare = isTyped t := by
      rw [isTyped, isTyped, isNode_bare, isNode_bare]
    rw [List.filter_map, List.map_map]
    simp only [Function.comp_def, typed]
    exact List.map_congr_left fun t mem => isAnyType_bare (List.mem_filter.mp mem).2

theorem isAnyType_typedParameters_bare :
    f.bare.typedParameters.map isAnyType = f.typedParameters.map isAnyType := by
  rw [typedParameters, typedParameters, heading_bare,
    findNode?_bareFront (by decide) (by decide)]
  cases found : findNode? .parameters f.heading with
  | none => rfl
  | some t =>
    obtain ⟨parts, rfl⟩ := exists_eq_node_of_isNode (List.find?_some found)
    match parts with
    | [] => rfl
    | [.group _ content] => exact isAnyType_filter_bareFront content
    | [.node _ _] => rfl
    | [.word _] => rfl
    | [.raw _] => rfl
    | first :: next :: rest =>
      obtain ⟨last, more, bared⟩ := List.exists_cons_of_ne_nil (bareLast_ne_nil next rest)
      rw [Option.map_some, show (node .parameters (first :: next :: rest)).bare =
        node .parameters (first :: bareLast (next :: rest)) from rfl, bared]
      cases first <;> rfl

theorem parameterCount_bare : f.bare.parameterCount = f.parameterCount := by
  have lengths := congrArg List.length f.isAnyType_typedParameters_bare
  rwa [List.length_map, List.length_map] at lengths

theorem isGeneric_bare : f.bare.isGeneric = f.isGeneric := by
  have parameters : f.bare.typedParameters.any isAnyType = f.typedParameters.any isAnyType := by
    simpa [List.any_map] using congrArg (·.any id) f.isAnyType_typedParameters_bare
  rw [isGeneric, isGeneric, genericParameters_bare]
  exact congrArg _ parameters

end Function

end CallStudy.Source
