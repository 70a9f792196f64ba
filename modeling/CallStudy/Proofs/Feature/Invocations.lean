import CallStudy.Proofs.Source.Unwrapped

/-!
What the columns say of invocations: they are measured by their arguments, as if these stood there in
parentheses or in a block.
-/

set_option autoImplicit false

namespace CallStudy.Source

open Syntax

namespace Tree

/-- What a tree adds to the columns of the function in whose body it stands. -/
structure Share where
  branches : Nat
  statements : Nat
  locals : Nat
  calls : String → Nat

def share (t : Tree) : Share where
  branches := contribution Tree.branches t
  statements := contribution Tree.statementCount t
  locals := contribution localCount t
  calls := fun name => contribution (callCount name) t

/-- A statement that is neither an item nor a block. -/
def isCounted : Tree → Bool
  | node .statement parts => !isBlockStatement parts
  | _ => false

theorem statementShare_statementCount (t : Tree) :
    statementShare Tree.statementCount t = if t.isCounted then 1 else 0 := by
  unfold statementShare
  split
  · next parts =>
    rw [Tree.statementCount, isCounted]
    simp
  · next other =>
    rw [isCounted]
    · rfl
    · exact other

theorem sum_statementShare_statementCount (trees : List Tree) :
    (trees.map (statementShare Tree.statementCount)).sum = trees.countP isCounted := by
  induction trees with
  | nil => rfl
  | cons t rest ih =>
    rw [List.map_cons, List.sum_cons, ih, List.countP_cons, statementShare_statementCount,
      Nat.add_comm]

theorem sum_statementShare_of_silent {f : Kind → List Tree → Nat}
    (silent : ∀ parts, f .statement parts = 0) (trees : List Tree) :
    (trees.map (statementShare f)).sum = 0 := by
  apply List.sum_eq_zero
  intro n mem
  obtain ⟨t, -, rfl⟩ := List.mem_map.mp mem
  unfold statementShare
  split
  · exact silent _
  · rfl

section Invocation

variable {path trees : List Tree} {mark tokens : List Token} {d : Delimiter}
  (plain : IsPlain path) (unread : parseArguments? tokens = none)

include plain unread

/-- Statements add to a measure what a block of them does but for the statements themselves. -/
theorem contribution_blockOf_eq {f : Kind → List Tree → Nat} (steady : Steady f) (quiet : Quiet f)
    (read : parseStatements? tokens = some trees) :
    contribution f (blockOf trees) = contribution f (invocation path mark d tokens) +
      (trees.map (statementShare f)).sum := by
  have statements : argumentTrees tokens = trees.flatMap statementParts := by
    rw [argumentTrees, unread, read]
  rw [contribution_blockOf steady quiet, contribution_invocation_of_quiet steady quiet,
    contribution_of_isPlain steady quiet plain, statements, Nat.zero_add]
  exact (contributions_flatMap_statementParts steady trees).symm

theorem share_blockOf_eq (read : parseStatements? tokens = some trees) :
    (blockOf trees).share = { (invocation path mark d tokens).share with
      statements := (invocation path mark d tokens).share.statements + trees.countP isCounted } := by
  have silent {f : Kind → List Tree → Nat} (steady : Steady f) (quiet : Quiet f)
      (statement : ∀ parts, f .statement parts = 0) :
      contribution f (blockOf trees) = contribution f (invocation path mark d tokens) := by
    rw [contribution_blockOf_eq plain unread steady quiet read,
      sum_statementShare_of_silent statement, Nat.add_zero]
  have statements : contribution Tree.statementCount (blockOf trees) =
      contribution Tree.statementCount (invocation path mark d tokens) + trees.countP isCounted := by
    rw [contribution_blockOf_eq plain unread steady_statementCount quiet_statementCount read,
      sum_statementShare_statementCount]
  rw [share, share, silent steady_branches quiet_branches fun _ => rfl, statements,
    silent steady_localCount quiet_localCount fun _ => rfl]
  congr
  funext name
  exact silent (steady_callCount name) (quiet_callCount name) fun _ => rfl

theorem share_invocation_of_unread (neither : parseStatements? tokens = none) :
    (invocation path mark d tokens).share = ⟨0, 0, 0, fun _ => 0⟩ := by
  have none_ : argumentTrees tokens = [] := by
    rw [argumentTrees, unread, neither]
  have nothing {f : Kind → List Tree → Nat} (steady : Steady f) (quiet : Quiet f) :
      contribution f (invocation path mark d tokens) = 0 := by
    rw [contribution_invocation_of_quiet steady quiet, contribution_of_isPlain steady quiet plain,
      none_, contributions_nil]
  rw [share, nothing steady_branches quiet_branches, nothing steady_statementCount
    quiet_statementCount, nothing steady_localCount quiet_localCount]
  congr
  funext name
  exact nothing (steady_callCount name) (quiet_callCount name)

end Invocation
end Tree

open Source.Tree

namespace Function

/-- The identifiers that the patterns of the body's `let` and `for` bind themselves. -/
def ownVariableCount (f : Function) : Nat := totalOf (ofPattern ownBindings) f.openedBody

/-- The identifiers of the types and expressions in these patterns. -/
def embeddedVariableCount (f : Function) : Nat := totalOf (ofPattern embeddedBindings) f.openedBody

theorem localVariableCount_eq_add (f : Function) :
    f.localVariableCount = f.ownVariableCount + f.embeddedVariableCount := by
  obtain ⟨nodes, -, weighed⟩ := measures_opened f.body
  have own : totalOf (ofPattern ownBindings) (opened f.body) = _ :=
    weighed _ (steady_ofPattern ownBindings_openWith)
  have embedded : totalOf (ofPattern embeddedBindings) (opened f.body) = _ :=
    weighed _ (steady_ofPattern embeddedBindings_openWith)
  have all : totalOf localCount (opened f.body) = _ := weighed _ steady_localCount
  rw [localVariableCount, ownVariableCount, embeddedVariableCount, openedBody, own, embedded, all]
  simp only [weigh, localCount_eq_add, List.sum_map_add]

/-- The columns are what the trees of the body add to them. -/
theorem columns_eq_shares (f : Function) :
    f.cyclomaticComplexity = 1 + (f.body.map fun t => t.share.branches).sum ∧
      f.statementCount = (f.body.map fun t => t.share.statements).sum ∧
      f.localVariableCount = (f.body.map fun t => t.share.locals).sum ∧
      f.localVariableCount = f.ownVariableCount + f.embeddedVariableCount ∧
      ∀ name, f.callsOf name = (f.body.map fun t => t.share.calls name).sum := by
  refine ⟨congrArg (1 + ·) (totalOf_opened _), totalOf_opened _, totalOf_opened _,
    f.localVariableCount_eq_add, ?_⟩
  intro name
  exact totalOf_opened _

/-- Invocations are measured by their arguments. In a function that has a list in parentheses for an
invocation of the same list, at any number of places and inside other invocations too, all columns
agree but that of local variables, which counts what the types and expressions in a pattern bind on
top of what the pattern does, and in them sees lists but no invocations. The columns are what the
trees of a body add to them: an invocation of statements adds what a block of them does but for the
statements themselves, and one that can be read as neither adds nothing. -/
theorem invocations_measured_by_arguments (f : Function) :
    (∀ g : Function, UnwrapsEach f.body g.body →
      f.cyclomaticComplexity = g.cyclomaticComplexity ∧ f.statementCount = g.statementCount ∧
        (∀ name, f.callsOf name = g.callsOf name) ∧ f.ownVariableCount = g.ownVariableCount ∧
        f.localVariableCount ≤ g.localVariableCount ∧
        (g.embeddedVariableCount = 0 → f.localVariableCount = g.localVariableCount)) ∧
    (f.cyclomaticComplexity = 1 + (f.body.map fun t => t.share.branches).sum ∧
      f.statementCount = (f.body.map fun t => t.share.statements).sum ∧
      f.localVariableCount = (f.body.map fun t => t.share.locals).sum ∧
      f.localVariableCount = f.ownVariableCount + f.embeddedVariableCount ∧
      ∀ name, f.callsOf name = (f.body.map fun t => t.share.calls name).sum) ∧
    ∀ (path : List Tree) (mark tokens : List Token) (d : Delimiter), IsPlain path →
      (∀ trees, parseArguments? tokens = some trees → parseArguments? [.group .parenthesis tokens] =
        some [.node (listKind trees) [.group .parenthesis trees]]) ∧
      (∀ trees, parseArguments? tokens = none → parseStatements? tokens = some trees →
        parseArguments? [.group .brace tokens] = some [blockOf trees] ∧
          (blockOf trees).share = { (invocation path mark d tokens).share with
            statements := (invocation path mark d tokens).share.statements +
              trees.countP isCounted }) ∧
      (parseArguments? tokens = none → parseStatements? tokens = none →
        (invocation path mark d tokens).share = ⟨0, 0, 0, fun _ => 0⟩) := by
  refine ⟨?_, columns_eq_shares f, ?_⟩
  · intro g each
    have equal {m : Kind → List Tree → Nat} (steady : Steady m) (quiet : Quiet m)
        (outlined : Outlined m) : totalOf m f.openedBody = totalOf m g.openedBody := by
      rw [openedBody, openedBody, totalOf_opened, totalOf_opened]
      exact each.contributions_eq steady quiet outlined
    have own : f.ownVariableCount = g.ownVariableCount :=
      equal (steady_ofPattern ownBindings_openWith) (quiet_ofPattern ownBindings)
        outlined_ofPattern_ownBindings
    have fewer : f.localVariableCount ≤ g.localVariableCount := by
      rw [localVariableCount, localVariableCount, openedBody, openedBody, totalOf_opened,
        totalOf_opened]
      exact each.localCounts_le
    refine ⟨congrArg (1 + ·) (equal steady_branches quiet_branches outlined_branches),
      equal steady_statementCount quiet_statementCount outlined_statementCount, ?_, own, fewer, ?_⟩
    · intro name
      exact equal (steady_callCount name) (quiet_callCount name) (outlined_callCount name)
    · intro nothing
      have first := f.localVariableCount_eq_add
      have second := g.localVariableCount_eq_add
      omega
  · intro path mark tokens d plain
    refine ⟨fun trees read => parseArguments?_parenthesis read, ?_, ?_⟩
    · intro trees unread read
      exact ⟨parseArguments?_brace read, share_blockOf_eq plain unread read⟩
    · intro unread neither
      exact share_invocation_of_unread plain unread neither

theorem invocations_measured_by_arguments_of_loop :
    let path : List Tree := [.node .segment [.word [.ident "m"]]]
    let mark : List Token := [.punct '!' false]
    let loop : List Tree := [.node .loopExpr [.word [.ident "loop"], .node .block [.group .brace []]]]
    let within (t : Tree) : Function := ⟨"f", "f", [.node .block [.group .brace
      [.node .statement [t]]]]⟩
    let invoked : Function := within (invocation path mark .bracket
      [.ident "loop", .group .brace []])
    let listed : Function := within (.node .parenthesized [.group .parenthesis loop])
    (invoked.cyclomaticComplexity = listed.cyclomaticComplexity ∧
      listed.cyclomaticComplexity = 2) ∧
    (blockOf [.node .statement [.word [.punct ';' false]]]).share.statements =
      (invocation path mark .brace [.punct ';' false]).share.statements + 1 ∧
    (invocation path mark .parenthesis [.punct '%' false]).share = ⟨0, 0, 0, fun _ => 0⟩ := by
  intro path mark loop within invoked listed
  obtain ⟨agree, -, alone⟩ := invocations_measured_by_arguments invoked
  have plain : IsPlain path := by
    intro part mem
    exact .inr ⟨_, List.mem_singleton.mp mem⟩
  have read : parseArguments? [.ident "loop", .group .brace []] = some loop := by decide +kernel
  have loops : UnwrapsEach loop loop := .refl loop
  have unwraps : UnwrapsEach invoked.body listed.body :=
    .single (.node (by decide) rfl (UnwrapsEach.single (.list plain read rfl loops.each)).each)
  refine ⟨⟨(agree listed unwraps).1, by decide +kernel⟩, ?_, ?_⟩
  · obtain ⟨-, same⟩ := (alone path mark [.punct ';' false] .brace plain).2.1
      [.node .statement [.word [.punct ';' false]]] (by decide +kernel) (by decide +kernel)
    rw [same]
    rfl
  · exact (alone path mark [.punct '%' false] .parenthesis plain).2.2 (by decide +kernel)
      (by decide +kernel)

/-- An invocation hides the variable of the block that it is given, and parentheses do not, when
they stand in the type of another variable. -/
theorem variable_of_invocation_in_type_not_counted :
    let source (t : String) : String := "fn f() \x7b let x: [u8; " ++ t ++ "] = [0]; \x7d"
    let block : String := "\x7b let y = 1; y \x7d"
    ((Lexer.tokens? block.toList).bind parseArguments?).isSome ∧
      (Function.ofSource? (source ("m!(" ++ block ++ ")"))).map (·.map localVariableCount) =
        some [2] ∧
      (Function.ofSource? (source ("(" ++ block ++ ")"))).map (·.map localVariableCount) =
        some [3] := by
  decide +kernel

end Function
end CallStudy.Source
