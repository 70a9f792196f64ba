import CallStudy.Proofs.Source.Loose

/-!
Reading is blind to gaps. The grammar looks at punctuation characters only for operators, so tokens
with a gap wherever no operator could be are read as they are without these gaps.
-/

set_option autoImplicit false

namespace CallStudy.Source

open Token

namespace Grammar

variable {ρ : Type}

/-- The state with the gaps that nothing read depends on. -/
def State.even (s : State) : State := ⟨s.built.map Tree.loose, spaced s.ahead⟩

/-- A grammar that decides the same whatever the gaps are. -/
def Blind : Grammar ρ → Prop
  | empty | refuse | remainder | rule _ => True
  | word width => ∀ ts, width (spaced ts) = width ts
  | group _ content | fresh content | node _ content | enclose _ content => content.Blind
  | seq first second => first.Blind ∧ second.Blind
  | decide choice => ∀ built ts,
    choice (built.map Tree.loose) (spaced ts) = choice built ts ∧ (choice built ts).Blind

/-- A reader that reads the same, but for gaps, whatever the gaps are. -/
def ReadsEven (reader : State → Option State) : Prop :=
  ∀ s, (reader s.even).map State.even = (reader s).map State.even

theorem State.even_even (s : State) : s.even.even = s.even := by
  simp only [even, List.map_map, spaced_spaced, Tree.loose_comp_loose]

theorem ReadsEven.eq_of_even_eq {reader : State → Option State} (reads : ReadsEven reader)
    {s s' : State} (same : s.even = s'.even) :
    (reader s).map State.even = (reader s').map State.even := by
  rw [← reads s, ← reads s', same]

/-- Results that are the same but for gaps. -/
theorem none_or_even_of_map_eq {o o' : Option State} (same : o.map State.even = o'.map State.even) :
    (o = none ∧ o' = none) ∨ ∃ t t', o = some t ∧ o' = some t' ∧ t.even = t'.even := by
  match o, o' with
  | none, none => exact .inl ⟨rfl, rfl⟩
  | some t, some t' => exact .inr ⟨t, t', rfl, rfl, Option.some.inj same⟩

/-- Of two states that are the same but for gaps, both are at the end of the tokens or none is. -/
theorem State.cases_of_even_eq {t t' : State} (same : t.even = t'.even) :
    (∃ trees trees', t = ⟨trees, []⟩ ∧ t' = ⟨trees', []⟩ ∧
      trees.map Tree.loose = trees'.map Tree.loose) ∨
    ∃ trees trees' next next' rest rest',
      t = ⟨trees, next :: rest⟩ ∧ t' = ⟨trees', next' :: rest'⟩ := by
  obtain ⟨trees, ahead⟩ := t
  obtain ⟨trees', ahead'⟩ := t'
  obtain ⟨built, left⟩ := State.mk.inj same
  cases ahead with
  | nil =>
    cases ahead' with
    | nil => exact .inl ⟨trees, trees', rfl, rfl, built⟩
    | cons _ _ => cases left
  | cons next rest =>
    cases ahead' with
    | nil => cases left
    | cons next' rest' => exact .inr ⟨trees, trees', next, next', rest, rest', rfl, rfl⟩

theorem readsEven_word {rules : ρ → State → Option State} {width : List Token → Nat}
    (blind : ∀ ts, width (spaced ts) = width ts) : ReadsEven (read rules (word width)) := by
  intro s
  simp only [read, State.even, blind s.ahead, length_spaced]
  split
  · simp only [Option.map_some, State.even, drop_spaced, spaced_spaced, List.map_cons, List.map_map,
      Tree.loose_comp_loose, Tree.loose_word, List.map_take, map_loose_spaced]
  · rfl

theorem readsEven_group {rules : ρ → State → Option State} {d : Delimiter} {content : Grammar ρ}
    (inner : ReadsEven (read rules content)) : ReadsEven (read rules (group d content)) := by
  intro s
  obtain ⟨built, ahead⟩ := s
  cases ahead with
  | nil => rfl
  | cons first rest =>
    cases first with
    | group d' inside =>
      simp only [read, State.even, spaced, spacedIn]
      split
      · have content : (read rules content ⟨[], spaced inside⟩).map State.even = _ :=
          inner ⟨[], inside⟩
        rcases none_or_even_of_map_eq content with ⟨left, right⟩ | ⟨t, t', left, right, same⟩
        · rw [left, right]
        · rw [left, right]
          obtain ⟨trees, trees', rfl, rfl, built⟩ | ⟨_, _, _, _, _, _, rfl, rfl⟩ :=
            State.cases_of_even_eq same
          · simp only [Option.map_some, State.even, List.map_cons, Tree.loose_group,
              List.map_reverse, built, List.map_map, Tree.loose_comp_loose, spaced_spaced]
          · rfl
      · rfl
    | _ => rfl

theorem readsEven_read {rules : ρ → State → Option State} (each : ∀ name, ReadsEven (rules name))
    {g : Grammar ρ} (blind : g.Blind) : ReadsEven (read rules g) := by
  induction g with
  | empty =>
    intro s
    simp only [read, Option.map_some, State.even_even]
  | refuse =>
    intro s
    rfl
  | word width => exact readsEven_word blind
  | remainder =>
    intro s
    simp only [read, Option.map_some, State.even, List.map_cons, List.map_map, Tree.loose_comp_loose,
      Tree.loose, looseEach_spaced]
  | group d content ih => exact readsEven_group (ih blind)
  | seq first second ihFirst ihSecond =>
    intro s
    simp only [read]
    rcases none_or_even_of_map_eq (ihFirst blind.1 s) with ⟨left, right⟩ | ⟨t, t', left, right, same⟩
    · rw [left, right]
    · rw [left, right]
      exact (ihSecond blind.2).eq_of_even_eq same
  | node kind content ih =>
    intro s
    simp only [read]
    have inner : (read rules content ⟨[], spaced s.ahead⟩).map State.even = _ :=
      ih blind ⟨[], s.ahead⟩
    rcases none_or_even_of_map_eq inner with ⟨left, right⟩ | ⟨t, t', left, right, same⟩
    · simp only [State.even, left, right]
    · obtain ⟨built, ahead⟩ := State.mk.inj same
      simp only [State.even, left, right, Option.map_some, List.map_cons, Tree.loose_node,
        List.map_reverse, built, ahead, List.map_map, Tree.loose_comp_loose]
  | fresh content ih =>
    intro s
    simp only [read]
    have inner : (read rules content ⟨[], spaced s.ahead⟩).map State.even = _ :=
      ih blind ⟨[], s.ahead⟩
    rcases none_or_even_of_map_eq inner with ⟨left, right⟩ | ⟨t, t', left, right, same⟩
    · simp only [State.even, left, right]
    · obtain ⟨built, ahead⟩ := State.mk.inj same
      simp only [State.even, left, right, Option.map_some, List.map_append, built, ahead,
        List.map_map, Tree.loose_comp_loose]
  | enclose kind content ih =>
    intro s
    simp only [read]
    rcases none_or_even_of_map_eq (ih blind s) with ⟨left, right⟩ | ⟨t, t', left, right, same⟩
    · rw [left, right]
    · obtain ⟨built, ahead⟩ := State.mk.inj same
      rw [left, right]
      simp only [State.even, Option.map_some, List.map_cons, Tree.loose_node, List.map_reverse, built,
        ahead, List.map_nil]
  | decide choice ih =>
    intro s
    obtain ⟨same, blindChoice⟩ := blind s.built s.ahead
    have chosen := ih s.built s.ahead blindChoice s
    change (read rules (choice (s.built.map Tree.loose) (spaced s.ahead)) s.even).map State.even = _
    rw [same]
    exact chosen
  | rule name => exact each name

theorem readsEven_readRule {rules : ρ → Grammar ρ} (blind : ∀ name, (rules name).Blind)
    (fuel : Nat) (name : ρ) : ReadsEven (readRule rules fuel name) := by
  induction fuel generalizing name with
  | zero =>
    intro s
    rfl
  | succ fuel ih => exact readsEven_read ih (blind name)

theorem depthFor_spaced (tokens : List Token) : depthFor (spaced tokens) = depthFor tokens := by
  rw [depthFor, depthFor, ← sizeList_looseEach, looseEach_spaced, sizeList_looseEach]

/-- Gaps make no difference to what tokens are parsed as. -/
theorem parse?_spaced {rules : ρ → Grammar ρ} (blind : ∀ name, (rules name).Blind) (name : ρ)
    (tokens : List Token) : (parse? rules name (spaced tokens)).map (List.map Tree.loose) =
      (parse? rules name tokens).map (List.map Tree.loose) := by
  have read := readsEven_readRule blind (depthFor tokens) name ⟨[], tokens⟩
  rw [parse?, parse?, depthFor_spaced]
  change (readRule rules (depthFor tokens) name ⟨[], spaced tokens⟩).map State.even = _ at read
  rcases none_or_even_of_map_eq read with ⟨left, right⟩ | ⟨t, t', left, right, same⟩
  · rw [left, right]
  · rw [left, right]
    obtain ⟨trees, trees', rfl, rfl, built⟩ | ⟨_, _, _, _, _, _, rfl, rfl⟩ :=
      State.cases_of_even_eq same
    · simp only [Option.map_some, List.map_reverse, built]
    · rfl

/-! Grammars put together. -/

section Combined

variable {g h : Grammar ρ}

@[simp] theorem blind_ite {c : Prop} [Decidable c] :
    (if c then g else h).Blind ↔ if c then g.Blind else h.Blind := by
  split <;> rfl

@[simp] theorem blind_inOrder {gs : List (Grammar ρ)} : (inOrder gs).Blind ↔ ∀ g ∈ gs, g.Blind := by
  induction gs with
  | nil => simp [inOrder, Blind]
  | cons g rest ih =>
    cases rest with
    | nil => simp [inOrder]
    | cons _ _ =>
      rw [List.forall_mem_cons, ← ih]
      rfl

/-- A test of the tokens ahead that no gap changes. -/
def Sees (look : List Token → Bool) : Prop := ∀ ts, look (spaced ts) = look ts

theorem blind_when {look : List Token → Bool} (sees : Sees look) (yes : g.Blind) (no : h.Blind) :
    (when look g h).Blind := by
  intro built ts
  constructor
  · dsimp only
    rw [sees ts]
  · dsimp only
    split
    · exact yes
    · exact no

theorem blind_optional {look : List Token → Bool} (sees : Sees look) (yes : g.Blind) :
    (optional look g).Blind := blind_when sees yes trivial

theorem blind_cases {alternatives : List ((List Token → Bool) × Grammar ρ)}
    (each : ∀ a ∈ alternatives, Sees a.1 ∧ a.2.Blind) : (cases alternatives).Blind := by
  intro built ts
  constructor
  · dsimp only
    rw [List.find?_congr fun a mem => (each a mem).1 ts]
  · dsimp only
    split
    · next found => exact (each _ (List.mem_of_find?_eq_some found)).2
    · trivial

end Combined

end Grammar
namespace Syntax

open Grammar

section Rules

attribute [local simp] Grammar.Blind Sees Ahead.fits Token.joins Grammar.when Grammar.optional paren
  bracket brace single Grammar.operator Grammar.keyword Grammar.ident Grammar.anyIdent
  Grammar.lifetime Grammar.literalToken optionalKeyword optionalOperator become

attribute [local simp] commaList untilEnd expr type typeWithoutPlus statements block attributedBlock

@[local simp] theorem blind_rawGroup : (rawGroup (ρ := Rule)).Blind := by
  apply blind_cases
  simp

@[local simp] theorem blind_literal : literal.Blind := by
  apply blind_cases
  simp

@[local simp] theorem blind_constArgument : constArgument.Blind := by
  apply blind_cases
  simp

attribute [local simp] plainPath plainPathRest

@[local simp] theorem blind_attributeContent : attributeContent.Blind := by
  simp only [attributeContent, blind_inOrder, List.forall_mem_cons]
  refine ⟨blind_cases (by simp), by simp, by simp⟩

attribute [local simp] outerAttributes innerAttributes

@[local simp] theorem blind_visibility : visibility.Blind := by
  have restriction : (paren (cases [(Ahead.keyword "in", seq (Grammar.keyword "in") plainPath),
      (fun _ => true, Grammar.anyIdent)])).Blind := blind_cases (by simp)
  apply blind_optional
  · simp
  · exact ⟨by simp, blind_optional (by simp) restriction⟩

attribute [local simp] angleArguments turbofishArguments segment pathRest path qualifiedRest
  qualifiedPath invocationRest genericArgument genericArguments parenthesizedArguments

attribute [local simp] binder optionalBinder binderParameters constness traitBound capture

@[local simp] theorem blind_capturedParameters : capturedParameters.Blind := by
  apply blind_optional
  · simp
  · simp only [blind_inOrder, List.forall_mem_cons]
    refine ⟨blind_cases (by simp), by simp, by simp⟩

@[local simp] theorem blind_bound (captures constAllowed : Bool) : (bound captures constAllowed).Blind := by
  apply blind_cases
  simp

attribute [local simp] bounds lifetimeBounds

@[local simp] theorem blind_genericParameter : genericParameter.Blind := by
  refine ⟨trivial, blind_cases ?_⟩
  simp

attribute [local simp] genericParameters generics predicate predicates whereClause

attribute [local simp] returnType convention typeBounds moreBounds needsTrait functionTypeParameter
  functionTypeParameters functionType parenthesizedTypeContent

@[local simp] theorem blind_afterParenthesizedType (plus : Bool) :
    (afterParenthesizedType plus).Blind := by
  intro built ts
  match built with
  | .group _ content :: _ => simp
  | [] => simp
  | .word _ :: _ => simp [Tree.loose]
  | .raw _ :: _ => simp [Tree.loose]
  | .node _ _ :: _ => simp

@[local simp] theorem blind_pathType (plus : Bool) : (pathType plus).Blind := by
  intro before _
  refine ⟨by simp, by simp, fun built ts => ?_⟩
  match built with
  | .node kind parts :: rest =>
    by_cases qualified : kind = .qualifiedPath
    · subst qualified
      simp
    · have same := invoked_loose (.node kind parts :: rest) ts
      simp only [List.map_cons, Tree.loose_node] at same
      simp [qualified, same]
  | [] => simp [invoked, isPlainPath]
  | .word _ :: _ => simp [Tree.loose, invoked, isPlainPath]
  | .raw _ :: _ => simp [Tree.loose, invoked, isPlainPath]
  | .group _ _ :: _ => simp [invoked, isPlainPath]

@[local simp] theorem blind_bracketType : bracketType.Blind := by
  refine ⟨by simp, fun built ts => ?_⟩
  match built with
  | .group _ [] :: _ => simp
  | .group _ [_] :: _ => simp
  | .group _ (_ :: _ :: _) :: _ => simp
  | [] => simp
  | .word _ :: _ => simp [Tree.loose]
  | .raw _ :: _ => simp [Tree.loose]
  | .node _ _ :: _ => simp

@[local simp] theorem blind_typeRule (plus : Bool) : (typeRule plus).Blind := by
  apply blind_cases
  simp only [List.forall_mem_cons]
  refine ⟨⟨by simp, by simp, blind_cases (by simp)⟩, by simp, by simp, by simp, by simp, by simp,
    ⟨by simp, ?_⟩, by simp, by simp, by simp, by simp, by simp⟩
  exact ⟨by simp, blind_cases (by simp), by simp⟩

attribute [local simp] onePattern pattern moreAlternatives patternRule constBlock

@[local simp] theorem blind_rangeBound : rangeBound.Blind := by
  apply blind_cases
  simp

attribute [local simp] rangeEnd identPattern pathPattern tuplePatternFields slicePatternFields

@[local simp] theorem blind_member : member.Blind := by
  apply blind_cases
  simp only [List.forall_mem_cons]
  refine ⟨by simp, ⟨fun ts => ?_, by simp⟩, by simp⟩
  cases ts with
  | nil => rfl
  | cons t _ => cases t <;> rfl

attribute [local simp] fieldPattern

@[local simp] theorem blind_onePatternRule : onePatternRule.Blind := by
  apply blind_cases
  simp only [List.forall_mem_cons]
  refine ⟨by simp, by simp, by simp, ⟨by simp, by simp, fun built ts => ?_⟩, by simp, by simp,
    ⟨by simp, by simp, fun built ts => ?_⟩, by simp, by simp, by simp⟩
  · match built with
    | .node kind _ :: _ =>
      by_cases block : kind = .constBlock
      · subst block
        simp
      by_cases path : kind = .pathExpr
      · subst path
        simp
      simp [block, path]
    | [] => simp
    | .word _ :: _ => simp [Tree.loose]
    | .raw _ :: _ => simp [Tree.loose]
    | .group _ _ :: _ => simp
  · match built with
    | .group _ [] :: _ => simp
    | .group _ [_] :: _ => simp
    | .group _ (_ :: _ :: _) :: _ => simp
    | [] => simp
    | .word _ :: _ => simp [Tree.loose]
    | .raw _ :: _ => simp [Tree.loose]
    | .node _ _ :: _ => simp

@[local simp] theorem blind_structPatternFields : structPatternFields.Blind := by
  apply blind_optional
  · simp
  · refine ⟨by simp, fun built ts => ?_⟩
    match built with
    | .node kind _ :: _ =>
      by_cases others : kind = .restPattern
      · subst others
        simp
      · simp [others]
    | [] => simp
    | .word _ :: _ => simp [Tree.loose]
    | .raw _ :: _ => simp [Tree.loose]
    | .group _ _ :: _ => simp

attribute [local simp] rightOperand tighterOperators rangeLimits afterCast expression callArguments

@[local simp] theorem blind_operators (structs : Bool) (base : Level) :
    (operators structs base).Blind := by
  have fits : ∀ o ∈ binaryOperators, Ahead.fits o.1.toList := by decide
  intro built ts
  cases found : binaryOperator? ts with
  | none => simp [found]
  | some o =>
    have fit := fits o (List.mem_of_find?_eq_some found)
    simp [found, fit]

theorem memberAfter_spaced (point : Reading) (ts : List Token) :
    memberAfter point (Token.spaced ts) = memberAfter point ts := by
  simp [memberAfter]

theorem blind_memberAfter {point : Reading} (blind : point.Blind) (ts : List Token) :
    (memberAfter point ts).Blind := by
  simp [memberAfter, blind]

@[local simp] theorem blind_pointMember : pointMember.Blind := by
  intro built ts
  have other (ts : List Token) :
      memberAfter (Grammar.operator ".") (Token.spaced ts) = memberAfter (Grammar.operator ".") ts ∧
        (memberAfter (Grammar.operator ".") ts).Blind :=
    ⟨memberAfter_spaced _ ts, blind_memberAfter (by simp) ts⟩
  dsimp only
  rw [Token.drop_spaced]
  match ts.drop 1 with
  | .literal text :: rest =>
    by_cases float : Literal.isFloat text
    · simp only [Token.spaced, Token.spacedIn, float, memberAfter_spaced, if_true, true_and]
      cases positions? text with
      | none => trivial
      | some _ =>
        have last := blind_memberAfter (show (empty : Reading).Blind from trivial) rest
        simp [last]
    · simp only [Token.spaced, Token.spacedIn, float]
      exact other (.literal text :: rest)
  | [] => exact other []
  | .ident name :: rest => exact other (.ident name :: rest)
  | .lifetime name :: rest => exact other (.lifetime name :: rest)
  | .punct c joint :: rest => exact other (.punct c joint :: rest)
  | .group d content :: rest => exact other (.group d content :: rest)

attribute [local simp] trailers fieldValue structFields pathExpr arrayContent closureParameter
  closureParameters closure letCondition whileWords forWords loopWords arm matchExpr breakExpr
  builtinExpr afterAttributed

@[local simp] theorem blind_parenthesized : parenthesized.Blind := by
  refine ⟨by simp, fun built ts => ?_⟩
  match built with
  | .group _ content :: _ => simp
  | [] => simp
  | .word _ :: _ => simp [Tree.loose]
  | .raw _ :: _ => simp [Tree.loose]
  | .node _ _ :: _ => simp

@[local simp] theorem blind_array : array.Blind := by
  refine ⟨by simp, fun built ts => ?_⟩
  match built with
  | .group _ content :: _ => simp
  | [] => simp
  | .word _ :: _ => simp [Tree.loose]
  | .raw _ :: _ => simp [Tree.loose]
  | .node _ _ :: _ => simp

@[local simp] theorem blind_ifChain : ifChain.Blind := by
  refine ⟨by simp, by simp, by simp, blind_optional (by simp) ⟨by simp, blind_cases (by simp)⟩⟩

@[local simp] theorem blind_labeled : labeled.Blind := by
  refine ⟨by simp, blind_cases (by simp)⟩

@[local simp] theorem blind_atom (structs : Bool) : (atom structs).Blind := by
  apply blind_cases
  simp

attribute [local simp] operand localVariable

@[local simp] theorem blind_leadingExpression : leadingExpression.Blind := by
  simp only [leadingExpression, blind_inOrder, List.forall_mem_cons]
  refine ⟨by simp, blind_cases (by simp), by simp⟩

attribute [local simp] itemName keywordOr optionalValue receiver parameter parameters signature
  bodyOrNone externCrate foreignModule useTrees useItem staticItem constItem typeItem
  definedType namedField unnamedField namedFields unnamedFields structItem variant enumItem
  unionItem moduleItem traitItem implementedType implItem

@[local simp] theorem blind_useTree (crateRoot : Bool) : (useTree crateRoot).Blind := by
  apply blind_cases
  simp

@[local simp] theorem blind_invocationEnd : invocationEnd.Blind := by
  apply blind_cases
  simp

attribute [local simp] invocationItem invocationMember declaredMacro

@[local simp] theorem blind_itemBody : itemBody.Blind := by
  intro built ts
  simp

attribute [local simp] item traitMember foreignMember

@[local simp] theorem blind_implementationMember : implementationMember.Blind := by
  intro built ts
  simp [Token.ite_spaced]

@[local simp] theorem blind_memberRule (owner : Owner) : (memberRule owner).Blind := by
  cases owner <;> simp [memberRule]

theorem blind_rules (r : Rule) : (rules r).Blind := by
  cases r <;> simp [rules, statementsRule, statementBody]

end Rules
end Syntax
end CallStudy.Source
