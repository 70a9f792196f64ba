import CallStudy.Proofs.Source.Nodes

/-!
Reading what stands between brackets. A rule that reads something with little room reads the same
with more, so brackets around a list of expressions or around statements are read as what is in
them.
-/

set_option autoImplicit false

namespace CallStudy.Source

namespace Grammar

variable {ρ : Type}

theorem read_of_read {rules others : ρ → State → Option State}
    (more : ∀ name s t, rules name s = some t → others name s = some t) {g : Grammar ρ} {s t : State}
    (h : read rules g s = some t) : read others g s = some t := by
  induction g generalizing s t with
  | empty => exact h
  | refuse => exact h
  | word width => exact h
  | remainder => exact h
  | group d content ih =>
    obtain ⟨inside, rest, trees, ahead, inner, rfl⟩ := read_group_eq_some_iff.mp h
    exact read_group_eq_some_iff.mpr ⟨inside, rest, trees, ahead, ih inner, rfl⟩
  | seq first second ihFirst ihSecond =>
    obtain ⟨half, inner, later⟩ := read_seq_eq_some_iff.mp h
    exact read_seq_eq_some_iff.mpr ⟨half, ihFirst inner, ihSecond later⟩
  | node kind content ih =>
    obtain ⟨half, inner, rfl⟩ := read_node_eq_some_iff.mp h
    exact read_node_eq_some_iff.mpr ⟨half, ih inner, rfl⟩
  | fresh content ih =>
    obtain ⟨half, inner, rfl⟩ := read_fresh_eq_some_iff.mp h
    exact read_fresh_eq_some_iff.mpr ⟨half, ih inner, rfl⟩
  | enclose kind content ih =>
    obtain ⟨half, inner, rfl⟩ := read_enclose_eq_some_iff.mp h
    exact read_enclose_eq_some_iff.mpr ⟨half, ih inner, rfl⟩
  | decide choice ih => exact ih s.built s.ahead h
  | rule name => exact more name s t h

/-- More room changes nothing once there is enough. -/
theorem readRule_of_le {rules : ρ → Grammar ρ} {fuel more : Nat} (enough : fuel ≤ more) {name : ρ}
    {s t : State} (h : readRule rules fuel name s = some t) :
    readRule rules more name s = some t := by
  induction fuel generalizing more name s t with
  | zero => cases h
  | succ fuel ih =>
    cases more with
    | zero => exact absurd enough (Nat.not_succ_le_zero fuel)
    | succ more => exact read_of_read (fun _ _ _ inner => ih (Nat.le_of_succ_le_succ enough) inner) h

theorem parse?_eq_some {rules : ρ → Grammar ρ} {name : ρ} {tokens : List Token} {trees : List Tree} :
    parse? rules name tokens = some trees ↔
      readRule rules (depthFor tokens) name ⟨[], tokens⟩ = some ⟨trees.reverse, []⟩ := by
  rw [parse?]
  split
  · next built read =>
    rw [read, Option.some.injEq, Option.some.injEq, State.mk.injEq, List.reverse_eq_iff]
    simp
  · next other =>
    constructor
    · intro none
      cases none
    · intro read
      exact absurd read (other _)

end Grammar

namespace Ahead

theorem operator_group (text : String) (d : Delimiter) (content rest : List Token) :
    operator text (.group d content :: rest) = false := by
  rw [operator]
  match text.toList with
  | [] => rfl
  | [_] => rfl
  | _ :: _ :: _ => rfl

theorem operator_nil (text : String) : operator text [] = false := by
  rw [operator]
  match text.toList with
  | [] => rfl
  | [_] => rfl
  | _ :: _ :: _ => rfl

/-- An operator of one character. -/
theorem eq_punct_of_operator {text : String} {c : Char} (spelled : text.toList = [c])
    {tokens : List Token} (ahead : operator text tokens) :
    ∃ joint rest, tokens = .punct c joint :: rest := by
  rw [operator, spelled] at ahead
  match tokens with
  | .punct d joint :: rest =>
    rw [spells, beq_iff_eq] at ahead
    exact ⟨joint, rest, ahead ▸ rfl⟩

theorem keyword_group (text : String) (d : Delimiter) (content rest : List Token) :
    keyword text (.group d content :: rest) = false := rfl

end Ahead

namespace Syntax

open Grammar

theorem outerAttributes_group (fuel : Nat) (built : List Tree) (d : Delimiter)
    (content : List Token) : readRule rules (fuel + 1) .outerAttributes ⟨built, [.group d content]⟩ =
      some ⟨built, [.group d content]⟩ := by
  simp [readRule, rules, outerAttributes, Grammar.optional, Grammar.when, Grammar.read,
    Ahead.operator_group]

theorem trailers_nil (fuel : Nat) (built : List Tree) :
    readRule rules (fuel + 1) .trailers ⟨built, []⟩ = some ⟨built, []⟩ := by
  simp [readRule, rules, trailers, Grammar.read, Ahead.operator_nil, Ahead.paren, Ahead.bracket,
    Ahead.group]

theorem binaryOperator?_nil : binaryOperator? [] = none := by
  simp only [binaryOperator?, Ahead.operator_nil]
  rfl

theorem operators_nil (fuel : Nat) (structs : Bool) (base : Level) (built : List Tree) :
    readRule rules (fuel + 1) (.operators structs base) ⟨built, []⟩ = some ⟨built, []⟩ := by
  simp [readRule, rules, operators, Grammar.read, Ahead.operator_nil, binaryOperator?_nil,
    Ahead.keyword]

section

variable (r : Rule → State → Option State) (structs : Bool) (built : List Tree)
  (content : List Token)

attribute [local simp] Ahead.operator_group Ahead.keyword_group Ahead.literal Ahead.literalToken
  Ahead.ident Ahead.paren Ahead.bracket Ahead.brace Ahead.lifetime Ahead.group startsClosure
  startsPathExpr isBinder

theorem atom_parenthesis :
    Grammar.read r (atom structs) ⟨built, [.group .parenthesis content]⟩ =
      Grammar.read r parenthesized ⟨built, [.group .parenthesis content]⟩ := by
  simp [atom, Grammar.cases, Grammar.read]

theorem atom_brace : Grammar.read r (atom structs) ⟨built, [.group .brace content]⟩ =
    Grammar.read r (node .blockExpr attributedBlock) ⟨built, [.group .brace content]⟩ := by
  simp [atom, Grammar.cases, Grammar.read]

end

/-- An operand that is one group. -/
theorem operand_group {fuel : Nat} {structs : Bool} {d : Delimiter} {content : List Token} {t : Tree}
    (read : Grammar.read (readRule rules (fuel + 1)) (atom structs) ⟨[], [.group d content]⟩ =
      some ⟨[t], []⟩) :
    readRule rules (fuel + 2) (.operand structs) ⟨[], [.group d content]⟩ = some ⟨[t], []⟩ := by
  have ends : Grammar.read (readRule rules (fuel + 1)) afterAttributed ⟨[t], []⟩ =
      some ⟨[t], []⟩ := by
    simp [afterAttributed, Grammar.read]
  rw [readRule, rules]
  simp [operand, Grammar.read, outerAttributes_group, Ahead.operator_group, inOrder, read,
    trailers_nil, ends]

theorem arguments_group (fuel : Nat) {d : Delimiter} {content : List Token} {t : Tree}
    (read : Grammar.read (readRule rules (fuel + 1)) (atom true) ⟨[], [.group d content]⟩ =
      some ⟨[t], []⟩) :
    readRule rules (fuel + 4) (.commaList (.expression true)) ⟨[], [.group d content]⟩ =
      some ⟨[t], []⟩ := by
  have expression : readRule rules (fuel + 3) (.expression true) ⟨[], [.group d content]⟩ =
      some ⟨[t], []⟩ := by
    rw [readRule, rules]
    simp [expression, Grammar.read, operand_group read, operators_nil]
  rw [readRule, rules]
  simp [commaList, Grammar.optional, Grammar.when, Ahead.atEnd, inOrder, Grammar.read, expression]

theorem depthFor_group (d : Delimiter) (tokens : List Token) :
    depthFor [.group d tokens] = depthFor tokens + 64 := by
  simp only [depthFor, Token.sizeList, Token.size]
  omega

/-- What a list in parentheses is: one expression in them, or a tuple. -/
def listKind (content : List Tree) : Kind :=
  if content.isEmpty || hasOperator "," content then .tuple else .parenthesized

/-- Parentheses around a list of expressions are read as one expression, with the list in it. -/
theorem parseArguments?_parenthesis {tokens : List Token} {trees : List Tree}
    (arguments : parseArguments? tokens = some trees) :
    parseArguments? [.group .parenthesis tokens] =
      some [.node (listKind trees) [.group .parenthesis trees]] := by
  have inner : readRule rules (depthFor tokens + 61) (.commaList (.expression true)) ⟨[], tokens⟩ =
      some ⟨trees.reverse, []⟩ :=
    readRule_of_le (Nat.le_add_right _ _) (parse?_eq_some.mp arguments)
  rw [parseArguments?, parse?_eq_some, depthFor_group]
  apply arguments_group (depthFor tokens + 60)
  rw [atom_parenthesis]
  simp only [parenthesized, paren, Grammar.read, inner, List.reverse_reverse, listKind, if_true]
  by_cases several : trees.isEmpty || hasOperator "," trees <;>
    simp [several, become, Grammar.read]

theorem outerAttributes_of_mark (fuel : Nat) (built : List Tree) (joint joint' : Bool)
    (rest : List Token) : readRule rules fuel .outerAttributes
      ⟨built, .punct '#' joint :: .punct '!' joint' :: rest⟩ = none := by
  cases fuel with
  | zero => rfl
  | succ fuel =>
    have width : "#".length = 1 := rfl
    rw [readRule, rules]
    simp [outerAttributes, Grammar.optional, Grammar.when, inOrder, Grammar.operator, bracket,
      Grammar.read, Ahead.operator, Ahead.spells, width]

/-- Statements do not begin with an attribute of what is around them. -/
theorem not_innerAttribute_of_read {fuel : Nat} {tokens : List Token} {s : State}
    (read : readRule rules fuel .statements ⟨[], tokens⟩ = some s) :
    (Ahead.operator "#" tokens && Ahead.second (Ahead.operator "!") tokens) = false := by
  by_contra inner
  rw [Bool.not_eq_false, Bool.and_eq_true] at inner
  obtain ⟨hash, mark⟩ := inner
  obtain ⟨joint, rest, rfl⟩ := Ahead.eq_punct_of_operator (c := '#') rfl hash
  obtain ⟨joint', rest', rfl⟩ := Ahead.eq_punct_of_operator (c := '!') rfl mark
  cases fuel with
  | zero => cases read
  | succ fuel =>
    rw [readRule, rules] at read
    simp [statementsRule, Grammar.optional, Grammar.when, Grammar.read, Ahead.atEnd,
      Ahead.operator, Ahead.spells, outerAttributes_of_mark] at read

theorem innerAttributes_of_not {fuel : Nat} {tokens : List Token}
    (other : (Ahead.operator "#" tokens && Ahead.second (Ahead.operator "!") tokens) = false) :
    readRule rules (fuel + 1) .innerAttributes ⟨[], tokens⟩ = some ⟨[], tokens⟩ := by
  rw [readRule, rules]
  simp only [innerAttributes, Grammar.optional, Grammar.when, Grammar.read, other]
  rfl

/-- An expression that is a block. -/
def blockOf (statements : List Tree) : Tree :=
  .node .blockExpr [.node .block [.group .brace statements]]

/-- Braces around statements are read as one expression, a block. -/
theorem parseArguments?_brace {tokens : List Token} {trees : List Tree}
    (statements : parseStatements? tokens = some trees) :
    parseArguments? [.group .brace tokens] = some [blockOf trees] := by
  have inner : readRule rules (depthFor tokens + 61) .statements ⟨[], tokens⟩ =
      some ⟨trees.reverse, []⟩ :=
    readRule_of_le (Nat.le_add_right _ _) (parse?_eq_some.mp statements)
  have attributes : readRule rules (depthFor tokens + 61) .innerAttributes ⟨[], tokens⟩ =
      some ⟨[], tokens⟩ :=
    innerAttributes_of_not (not_innerAttribute_of_read inner)
  rw [parseArguments?, parse?_eq_some, depthFor_group]
  apply arguments_group (depthFor tokens + 60)
  rw [atom_brace]
  simp [attributedBlock, Syntax.statements, brace, Grammar.read, attributes, inner, blockOf]

end Syntax
end CallStudy.Source
