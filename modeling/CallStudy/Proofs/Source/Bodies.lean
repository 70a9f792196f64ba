import CallStudy.Source.Syntax.Item

/-!
Every function item of a parsed file ends with a body. The grammar makes such an item at one place
only, where it reads a block behind a heading; a heading without a block becomes something else.
-/

set_option autoImplicit false

namespace CallStudy.Source

namespace Tree

/-- What ends with a block in braces. -/
def EndsInBody (parts : List Tree) : Prop :=
  ∃ content, parts.getLast? = some (.node .block [.group .brace content])

/-- All function items in a tree end with a body. -/
inductive Bodied : Tree → Prop
  | word (tokens : List Token) : Bodied (.word tokens)
  | raw (tokens : List Token) : Bodied (.raw tokens)
  | group {d : Delimiter} {content : List Tree} (each : ∀ t ∈ content, Bodied t) :
      Bodied (.group d content)
  | node {kind : Kind} {parts : List Tree} (body : kind = .functionItem → EndsInBody parts)
      (each : ∀ t ∈ parts, Bodied t) : Bodied (.node kind parts)

end Tree

namespace Grammar

variable {ρ : Type}

/-- A grammar that makes a function item only with a block at its end. -/
def Bodied : Grammar ρ → Prop
  | empty | refuse | word _ | remainder | rule _ => True
  | group _ content | fresh content => content.Bodied
  | seq first second => first.Bodied ∧ second.Bodied
  | node kind content => kind ≠ .functionItem ∧ content.Bodied
  | enclose kind content =>
    (kind = .functionItem → ∃ inner, content = node .block (brace inner)) ∧ content.Bodied
  | decide choice => ∀ built ts, (choice built ts).Bodied

/-- A reader that adds only trees whose functions have bodies. -/
def AddsBodied (reader : State → Option State) : Prop :=
  ∀ {s s' : State}, reader s = some s' → (∀ t ∈ s.built, t.Bodied) → ∀ t ∈ s'.built, t.Bodied

theorem endsInBody_of_read {rules : ρ → State → Option State} {inner : Grammar ρ} {s s' : State}
    (h : read rules (node .block (brace inner)) s = some s') :
    Tree.EndsInBody s'.built.reverse := by
  obtain ⟨block, read, rfl⟩ := read_node_eq_some_iff.mp h
  obtain ⟨inside, rest, trees, -, -, rfl⟩ := read_group_eq_some_iff.mp read
  exact ⟨trees.reverse, by simp⟩

theorem read_addsBodied {rules : ρ → State → Option State} (each : ∀ name, AddsBodied (rules name))
    {g : Grammar ρ} (bodied : g.Bodied) : AddsBodied (read rules g) := by
  induction g with
  | empty =>
    intro s s' h before
    cases h
    exact before
  | refuse =>
    intro s s' h
    cases h
  | word width =>
    intro s s' h before
    obtain ⟨-, rfl⟩ := read_word_eq_some_iff.mp h
    exact List.forall_mem_cons.mpr ⟨.word _, before⟩
  | remainder =>
    intro s s' h before
    cases h
    exact List.forall_mem_cons.mpr ⟨.raw _, before⟩
  | group d content ih =>
    intro s s' h before
    obtain ⟨inside, rest, trees, -, inner, rfl⟩ := read_group_eq_some_iff.mp h
    have content := ih bodied inner (by simp)
    refine List.forall_mem_cons.mpr ⟨.group fun t mem => ?_, before⟩
    exact content t (List.mem_reverse.mp mem)
  | seq first second ihFirst ihSecond =>
    intro s s' h before
    obtain ⟨half, read, later⟩ := read_seq_eq_some_iff.mp h
    exact ihSecond bodied.2 later (ihFirst bodied.1 read before)
  | node kind content ih =>
    intro s s' h before
    obtain ⟨inner, inside, rfl⟩ := read_node_eq_some_iff.mp h
    have content := ih bodied.2 inside (by simp)
    refine List.forall_mem_cons.mpr ⟨.node (absurd · bodied.1) fun t mem => ?_, before⟩
    exact content t (List.mem_reverse.mp mem)
  | fresh content ih =>
    intro s s' h before
    obtain ⟨inner, inside, rfl⟩ := read_fresh_eq_some_iff.mp h
    exact List.forall_mem_append.mpr ⟨ih bodied inside (by simp), before⟩
  | enclose kind content ih =>
    intro s s' h before
    obtain ⟨inner, inside, rfl⟩ := read_enclose_eq_some_iff.mp h
    have content := ih bodied.2 inside before
    refine List.forall_mem_singleton.mpr (.node (fun function => ?_) fun t mem => ?_)
    · obtain ⟨block, rfl⟩ := bodied.1 function
      exact endsInBody_of_read inside
    · exact content t (List.mem_reverse.mp mem)
  | decide choice ih =>
    intro s s' h before
    exact ih _ _ (bodied s.built s.ahead) h before
  | rule name => exact each name

theorem readRule_addsBodied {rules : ρ → Grammar ρ} (bodied : ∀ name, (rules name).Bodied)
    (fuel : Nat) (name : ρ) : AddsBodied (readRule rules fuel name) := by
  induction fuel generalizing name with
  | zero =>
    intro s s' h
    cases h
  | succ fuel ih => exact read_addsBodied ih (bodied name)

theorem bodied_of_parse? {rules : ρ → Grammar ρ} (bodied : ∀ name, (rules name).Bodied) {name : ρ}
    {tokens : List Token} {trees : List Tree} (h : parse? rules name tokens = some trees) :
    ∀ t ∈ trees, t.Bodied := by
  rw [parse?] at h
  split at h
  · next built read =>
    cases h
    have each := readRule_addsBodied bodied _ _ read (by simp)
    exact fun t mem => each t (List.mem_reverse.mp mem)
  · cases h

/-! Grammars put together. -/

section Combined

variable {g h : Grammar ρ}

@[simp] theorem bodied_ite {c : Prop} [Decidable c] :
    (if c then g else h).Bodied ↔ if c then g.Bodied else h.Bodied := by
  split <;> rfl

@[simp] theorem bodied_inOrder {gs : List (Grammar ρ)} :
    (inOrder gs).Bodied ↔ ∀ g ∈ gs, g.Bodied := by
  fun_induction inOrder gs with
  | case1 => simp [Bodied]
  | case2 g => simp
  | case3 g gs _ ih => simp [Bodied, ih]

@[simp] theorem bodied_when {look : List Token → Bool} :
    (when look g h).Bodied ↔ ∀ ts, if look ts then g.Bodied else h.Bodied := by
  simp [when, Bodied]

@[simp] theorem bodied_optional {look : List Token → Bool} :
    (optional look g).Bodied ↔ ∀ ts, if look ts then g.Bodied else True := by
  simp [optional, Bodied]

/-- The first case that the tokens ahead allow is bodied. -/
def FirstBodied (ts : List Token) : List ((List Token → Bool) × Grammar ρ) → Prop
  | [] => True
  | (look, g) :: rest => if look ts then g.Bodied else FirstBodied ts rest

@[simp] theorem bodied_cases {alternatives : List ((List Token → Bool) × Grammar ρ)} :
    (cases alternatives).Bodied ↔ ∀ ts, FirstBodied ts alternatives := by
  simp only [cases, Bodied, forall_const]
  refine forall_congr' fun ts => ?_
  induction alternatives with
  | nil => simp [FirstBodied, Bodied]
  | cons a rest ih =>
    rw [FirstBodied, List.find?_cons]
    cases a.1 ts <;> simp [ih]

theorem Bodied.optional (bodied : g.Bodied) (look : List Token → Bool) :
    (optional look g).Bodied := by
  simp [bodied]

theorem bodied_cases_of_forall {alternatives : List ((List Token → Bool) × Grammar ρ)}
    (each : ∀ a ∈ alternatives, a.2.Bodied) : (cases alternatives).Bodied := by
  intro _ ts
  dsimp only
  split
  · next found => exact each _ (List.mem_of_find?_eq_some found)
  · trivial

end Combined
end Grammar

namespace Syntax

open Grammar

section Rules

attribute [local simp] Grammar.Bodied FirstBodied paren bracket brace single operator keyword ident
  anyIdent lifetime literalToken optionalKeyword optionalOperator rawGroup become

attribute [local simp] commaList untilEnd expr type typeWithoutPlus literal statements block
  attributedBlock constArgument

attribute [local simp] plainPath plainPathRest attributeContent outerAttributes innerAttributes
  visibility angleArguments turbofishArguments segment pathRest path qualifiedRest qualifiedPath
  invocationRest genericArgument genericArguments parenthesizedArguments

attribute [local simp] binder optionalBinder binderParameters constness traitBound capture
  capturedParameters bound bounds lifetimeBounds genericParameter genericParameters generics
  predicate predicates whereClause

attribute [local simp] returnType convention typeBounds moreBounds needsTrait functionTypeParameter
  functionTypeParameters functionType parenthesizedTypeContent

theorem bodied_pathType (plus : Bool) : (pathType plus).Bodied := by
  intro before _
  refine ⟨by simp, fun built ts => ?_⟩
  dsimp only
  split
  · simp
  · simp

theorem bodied_bracketType : bracketType.Bodied := by
  refine ⟨by simp, fun built _ => ?_⟩
  dsimp only
  split
  · simp
  · simp

theorem bodied_afterParenthesizedType (plus : Bool) : (afterParenthesizedType plus).Bodied := by
  intro built ts
  simp

theorem bodied_typeRule (plus : Bool) : (typeRule plus).Bodied := by
  simp [typeRule, bodied_pathType, bodied_bracketType, bodied_afterParenthesizedType]

attribute [local simp] onePattern pattern moreAlternatives patternRule constBlock rangeBound
  rangeEnd identPattern pathPattern tuplePatternFields slicePatternFields member fieldPattern

theorem bodied_onePatternRule : onePatternRule.Bodied := by
  apply bodied_cases_of_forall
  simp only [List.forall_mem_cons]
  refine ⟨by simp, by simp, by simp, ⟨by simp, fun built ts => ?_⟩, by simp, by simp,
    ⟨by simp, fun built _ => ?_⟩, by simp, by simp, by simp⟩
  · dsimp only
    split
    · simp
    · split <;> simp
  · dsimp only
    split <;> simp

theorem bodied_structPatternFields : structPatternFields.Bodied := by
  apply Bodied.optional
  refine ⟨by simp, fun built _ => ?_⟩
  dsimp only
  split <;> simp

attribute [local simp] rightOperand tighterOperators rangeLimits afterCast expression callArguments
  memberAfter fieldValue structFields pathExpr arrayContent closureParameter closureParameters closure
  letCondition ifChain whileWords forWords loopWords arm matchExpr labeled breakExpr builtinExpr
  afterAttributed leadingExpression localVariable

theorem bodied_operators (structs : Bool) (base : Level) : (operators structs base).Bodied := by
  intro built ts
  dsimp only
  split
  · trivial
  · split <;> simp

theorem bodied_pointMember : pointMember.Bodied := by
  intro _ ts
  dsimp only
  split
  · split
    · split <;> simp
    · simp
  · simp

theorem bodied_trailers : trailers.Bodied := by
  simp [trailers, bodied_pointMember]

theorem bodied_parenthesized : parenthesized.Bodied := by
  refine ⟨by simp, fun built _ => ?_⟩
  dsimp only
  split <;> simp

theorem bodied_array : array.Bodied := by
  refine ⟨by simp, fun built _ => ?_⟩
  dsimp only
  split <;> simp

theorem bodied_operand (structs : Bool) : (operand structs).Bodied := by
  simp [operand, atom, bodied_parenthesized, bodied_array]

attribute [local simp] itemName keywordOr optionalValue receiver parameter parameters signature
  bodyOrNone externCrate foreignModule useTree useTrees useItem staticItem constItem typeItem
  definedType namedField unnamedField namedFields unnamedFields structItem variant enumItem
  unionItem moduleItem traitItem implementedType implItem invocationEnd invocationItem
  invocationMember declaredMacro itemBody item implementationMember traitMember

/-- A function of a foreign module is no function item, with a body or without. -/
theorem bodied_foreignMember : foreignMember.Bodied := by
  intro _ ts
  dsimp only
  split
  · simp only [bodied_inOrder, List.forall_mem_cons]
    refine ⟨by simp, by simp, fun built ts => ?_, by simp⟩
    dsimp only
    split
    · simp
    · split <;> simp
  · simp

theorem bodied_memberRule (owner : Owner) : (memberRule owner).Bodied := by
  cases owner with
  | foreign => exact ⟨trivial, bodied_foreignMember⟩
  | _ => simp [memberRule]

theorem bodied_rules (r : Rule) : (rules r).Bodied := by
  cases r with
  | type plus => exact bodied_typeRule plus
  | onePattern => exact bodied_onePatternRule
  | structPatternFields => exact bodied_structPatternFields
  | operators structs base => exact bodied_operators structs base
  | operand structs => exact bodied_operand structs
  | trailers => exact bodied_trailers
  | member owner => exact bodied_memberRule owner
  | _ => simp [rules, statementsRule, statementBody]

end Rules

/-- The function items of a file end with bodies. -/
theorem bodied_of_parseFile? {tokens : List Token} {items : List Tree}
    (h : parseFile? tokens = some items) : ∀ t ∈ items, t.Bodied :=
  bodied_of_parse? bodied_rules h

end Syntax
end CallStudy.Source
