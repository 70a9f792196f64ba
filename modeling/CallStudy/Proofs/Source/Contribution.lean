import CallStudy.Proofs.Source.Nodes

/-!
What a tree contributes to the measures of a body. How deep the invocations in it may be opened
makes no difference once their tokens set the bound, so a contribution does not depend on what stands
around the tree, and it is the sum of those of its parts.
-/

set_option autoImplicit false

namespace CallStudy.Source.Tree

open Syntax

/-! Opening deep enough. -/

section Depth

variable {inside other : List Token → List Tree}

mutual
/-- Opening looks at no more tokens than the tree has. -/
theorem openWith_congr (t : Tree)
    (same : ∀ tokens, Token.sizeList tokens < Token.sizeList t.tokens → inside tokens = other tokens) :
    t.openWith inside = t.openWith other := by
  match t with
  | word _ => rfl
  | raw _ => rfl
  | group d content =>
    simp only [tokens, Token.sizeList, Token.size] at same
    rw [openWith, openWith, openEach_congr content fun tokens small => same tokens (by omega)]
  | node kind parts =>
    by_cases invocation : kind = .invocation
    · subst invocation
      rw [openWith, openWith, openArguments_congr parts same]
    · rw [openWith_node invocation, openWith_node invocation, openEach_congr parts same]

theorem openArguments_congr (parts : List Tree)
    (same : ∀ tokens, Token.sizeList tokens < Token.sizeList (tokensList parts) →
      inside tokens = other tokens) :
    openArguments inside parts = openArguments other parts := by
  match parts with
  | [] => rfl
  | t :: rest =>
    rw [tokensList, Token.sizeList_append] at same
    have later := openArguments_congr rest fun tokens small => same tokens (by omega)
    have first := openWith_congr t fun tokens small => same tokens (by omega)
    rw [openArguments.eq_def, openArguments.eq_def]
    split
    · contradiction
    · next d tokens _ equal =>
      cases equal
      simp only [Tree.tokens, tokensList, Token.sizeList, Token.size, List.append_nil] at same
      rw [later, same tokens (by omega)]
    · next no equal =>
      cases equal
      rw [later, first]

theorem openEach_congr (trees : List Tree)
    (same : ∀ tokens, Token.sizeList tokens < Token.sizeList (tokensList trees) →
      inside tokens = other tokens) :
    openEach inside trees = openEach other trees := by
  match trees with
  | [] => rfl
  | t :: rest =>
    rw [tokensList, Token.sizeList_append] at same
    rw [openEach, openEach, openWith_congr t fun tokens small => same tokens (by omega),
      openEach_congr rest fun tokens small => same tokens (by omega)]
end

end Depth

theorem sizeList_statementParts_le (t : Tree) :
    Token.sizeList (tokensList (statementParts t)) ≤ Token.sizeList t.tokens := by
  unfold statementParts
  split
  · rfl
  · exact Nat.zero_le _
  · simp [tokensList]

/-- Trees taken out of others have no more tokens than these. -/
theorem sizeList_flatMap_le {g : Tree → List Tree} {trees : List Tree}
    (each : ∀ t ∈ trees, Token.sizeList (tokensList (g t)) ≤ Token.sizeList t.tokens) :
    Token.sizeList (tokensList (trees.flatMap g)) ≤ Token.sizeList (tokensList trees) := by
  induction trees with
  | nil => exact Nat.le_refl _
  | cons t rest ih =>
    rw [List.forall_mem_cons] at each
    have later := ih each.2
    have first := each.1
    rw [List.flatMap_cons, tokensList_append, tokensList, Token.sizeList_append,
      Token.sizeList_append]
    omega

theorem sizeList_argumentTrees_le (tokens : List Token) :
    Token.sizeList (tokensList (argumentTrees tokens)) ≤ Token.sizeList tokens := by
  unfold argumentTrees
  split
  · next trees read => rw [Grammar.tokensList_of_parse? read]
  · split
    · next trees read =>
      have bound := @sizeList_flatMap_le _ trees fun t _ => sizeList_statementParts_le t
      rwa [Grammar.tokensList_of_parse? read] at bound
    · exact Nat.zero_le _

theorem argumentsOpened_congr {depth other : Nat} {tokens : List Token}
    (small : Token.sizeList tokens < depth) (small' : Token.sizeList tokens < other) :
    argumentsOpened depth tokens = argumentsOpened other tokens := by
  induction depth generalizing other tokens with
  | zero => exact absurd small (Nat.not_lt_zero _)
  | succ depth ih =>
    cases other with
    | zero => exact absurd small' (Nat.not_lt_zero _)
    | succ other =>
      have bound := sizeList_argumentTrees_le tokens
      apply openEach_congr
      intro inner smaller
      exact ih (by omega) (by omega)

/-- The trees that the tokens of an invocation stand for, with all invocations in them opened. -/
def reading (tokens : List Token) : List Tree := argumentsOpened (Token.sizeList tokens + 1) tokens

theorem reading_eq (tokens : List Token) : reading tokens = openEach reading (argumentTrees tokens) := by
  have bound := sizeList_argumentTrees_le tokens
  apply openEach_congr
  intro inner smaller
  exact argumentsOpened_congr (by omega) (by omega)

theorem opened_eq (trees : List Tree) : opened trees = openEach reading trees := by
  apply openEach_congr
  intro tokens smaller
  exact argumentsOpened_congr smaller (by omega)

/-! Contributions. -/

/-- What a tree adds to a measure of the body it stands in. -/
def contribution (f : Kind → List Tree → Nat) (t : Tree) : Nat := (t.openWith reading).total f

def contributions (f : Kind → List Tree → Nat) (trees : List Tree) : Nat :=
  (trees.map (contribution f)).sum

section Laws

variable {f : Kind → List Tree → Nat}

@[simp] theorem contributions_nil : contributions f [] = 0 := rfl

@[simp] theorem contributions_cons (t : Tree) (rest : List Tree) :
    contributions f (t :: rest) = contribution f t + contributions f rest := List.sum_cons

theorem contributions_append (first second : List Tree) :
    contributions f (first ++ second) = contributions f first + contributions f second := by
  simp only [contributions, List.map_append, List.sum_append]

theorem contributions_singleton (t : Tree) : contributions f [t] = contribution f t := by
  rw [contributions_cons, contributions_nil, Nat.add_zero]

theorem contributions_flatMap (g : Tree → List Tree) (trees : List Tree) :
    contributions f (trees.flatMap g) = (trees.map fun t => contributions f (g t)).sum := by
  induction trees with
  | nil => rfl
  | cons t rest ih =>
    rw [List.flatMap_cons, contributions_append, ih, List.map_cons, List.sum_cons]

theorem totalOf_openEach_reading (trees : List Tree) :
    totalOf f (openEach reading trees) = contributions f trees := by
  rw [totalOf_eq_sum, openEach_eq_map, List.map_map]
  rfl

/-- A measure of a body is what its trees contribute. -/
theorem totalOf_opened (trees : List Tree) : totalOf f (opened trees) = contributions f trees := by
  rw [opened_eq, totalOf_openEach_reading]

@[simp] theorem contribution_word (tokens : List Token) : contribution f (word tokens) = 0 := rfl

@[simp] theorem contribution_raw (tokens : List Token) : contribution f (raw tokens) = 0 := rfl

@[simp] theorem contribution_group (d : Delimiter) (content : List Tree) :
    contribution f (group d content) = contributions f content :=
  totalOf_openEach_reading content

theorem contribution_of_not_measured {kind : Kind} (unmeasured : kind.isMeasured = false)
    (parts : List Tree) : contribution f (node kind parts) = 0 := by
  have ordinary : kind ≠ .invocation := by
    intro invocation
    subst invocation
    cases unmeasured
  rw [contribution, openWith_node ordinary, total_of_not_measured unmeasured]

theorem contribution_node (steady : Steady f) {kind : Kind} (measured : kind.isMeasured)
    (ordinary : kind ≠ .invocation) (parts : List Tree) :
    contribution f (node kind parts) = f kind parts + contributions f parts := by
  have same := steady reading kind parts
  rw [openWith_node ordinary] at same
  rw [contribution, openWith_node ordinary, total_node measured, totalOf_openEach_reading]
  exact congrArg (· + _) same

/-- An invocation contributes what its arguments do, read as expressions or as statements. -/
theorem contribution_invocation (steady : Steady f) (path : List Tree) (mark tokens : List Token)
    (d : Delimiter) :
    contribution f (node .invocation [node .path path, word mark, group d [raw tokens]]) =
      f .invocation [node .path path, word mark, group d [raw tokens]] +
        (contribution f (node .path path) + contributions f (argumentTrees tokens)) := by
  have same := steady reading .invocation [node .path path, word mark, group d [raw tokens]]
  have parts : openArguments reading [node .path path, word mark, group d [raw tokens]] =
      [(node .path path).openWith reading, word mark, group d (reading tokens)] := by
    simp only [openArguments, openWith]
  rw [openWith, parts] at same
  rw [contribution, openWith, parts, total_node rfl, reading_eq]
  rw [reading_eq] at same
  simp only [totalOf, total, totalOf_openEach_reading, Nat.zero_add, Nat.add_zero]
  exact congrArg (· + _) same

end Laws

end CallStudy.Source.Tree
