import CallStudy.Proofs.Source.Comments
import CallStudy.Proofs.Source.Contribution

/-!
Walks over a body that read the arguments of invocations as they come to them. An invocation in
arguments has fewer tokens than the one around it, so every walk ends, and to open invocations up to
a depth is to open them all once the depth is the number of tokens.
-/

set_option autoImplicit false

open CallStudy.Source.Tree

namespace CallStudy.Source

open Syntax

/-! Invocations in the arguments of others. -/

/-- An invocation with the argument tokens `inner` stands in a tree, whatever it is a part of. -/
inductive Tree.Invokes (inner : List Token) : Tree → Prop where
  | here {d : Delimiter} {parts : List Tree} (arguments : .group d [.raw inner] ∈ parts) :
      Invokes inner (.node .invocation parts)
  | inNode {kind : Kind} {parts : List Tree} {t : Tree} (part : t ∈ parts)
      (invokes : t.Invokes inner) : Invokes inner (.node kind parts)
  | inGroup {d : Delimiter} {content : List Tree} {t : Tree} (part : t ∈ content)
      (invokes : t.Invokes inner) : Invokes inner (.group d content)

/-- An invocation of `inner` stands in the expressions or statements that `outer` is read as. -/
def IsInside (inner outer : List Token) : Prop :=
  ∃ trees, (parseArguments? outer = some trees ∨ parseStatements? outer = some trees) ∧
    ∃ t ∈ trees, t.Invokes inner

theorem Tree.Invokes.sizeList_lt {inner : List Token} {t : Tree} (h : t.Invokes inner) :
    Token.sizeList inner < Token.sizeList t.tokens := by
  induction h with
  | here arguments =>
    have size := Tree.size_le_of_mem arguments
    simp only [tokens, tokensList, Token.sizeList, Token.size, List.append_nil] at size ⊢
    omega
  | inNode part invokes ih => exact Nat.lt_of_lt_of_le ih (Tree.size_le_of_mem part)
  | inGroup part invokes ih =>
    have size := Tree.size_le_of_mem part
    simp only [tokens, Token.sizeList, Token.size]
    omega

theorem IsInside.sizeList_lt {inner outer : List Token} (h : IsInside inner outer) :
    Token.sizeList inner < Token.sizeList outer := by
  obtain ⟨trees, read, t, mem, invokes⟩ := h
  have kept : Tree.tokensList trees = outer :=
    read.elim Grammar.tokensList_of_parse? Grammar.tokensList_of_parse?
  rw [← kept]
  exact Nat.lt_of_lt_of_le invokes.sizeList_lt (Tree.size_le_of_mem mem)

theorem wellFounded_isInside : WellFounded IsInside :=
  Subrelation.wf IsInside.sizeList_lt (measure Token.sizeList).wf

namespace Tree

/-! Walks. -/

/-- The trees that a part of an invocation stands for. -/
def followedPart : Tree → List Tree
  | group _ [raw tokens] => argumentTrees tokens
  | t => [t]

/-- The trees that a walk goes on to from a node. -/
def followed (kind : Kind) (parts : List Tree) : List Tree :=
  if kind = .invocation then parts.flatMap followedPart else parts

/-- A walk on its way: the trees that it has yet to visit and what was counted up to here. -/
structure Walk where
  pending : List Tree
  count : Nat

namespace Walk

/-- Visits the next tree. Arguments of an invocation are read when it is visited. -/
def step (f : Kind → List Tree → Nat) : Walk → Walk
  | ⟨[], count⟩ => ⟨[], count⟩
  | ⟨node kind parts :: rest, count⟩ =>
    if kind.isMeasured then ⟨followed kind parts ++ rest, count + f kind parts⟩
    else ⟨rest, count⟩
  | ⟨group _ content :: rest, count⟩ => ⟨content ++ rest, count⟩
  | ⟨_ :: rest, count⟩ => ⟨rest, count⟩

/-- Some number of steps leads from one point of a walk to another. -/
def Leads (f : Kind → List Tree → Nat) (v w : Walk) : Prop := ∃ steps, (step f)^[steps] v = w

/-- A walk of the trees visits all that it comes to and counts `total`. -/
def Ends (f : Kind → List Tree → Nat) (trees : List Tree) (total : Nat) : Prop :=
  Leads f ⟨trees, 0⟩ ⟨[], total⟩

variable {f : Kind → List Tree → Nat}

theorem Leads.refl (w : Walk) : Leads f w w := ⟨0, rfl⟩

theorem Leads.trans {u v w : Walk} (first : Leads f u v) (second : Leads f v w) : Leads f u w := by
  obtain ⟨n, rfl⟩ := first
  obtain ⟨k, rfl⟩ := second
  exact ⟨k + n, Function.iterate_add_apply _ _ _ _⟩

theorem Leads.of_step {v w : Walk} (h : Leads f (step f v) w) : Leads f v w :=
  Leads.trans ⟨1, rfl⟩ h

/-- A walk that comes to the trees goes past them and counts what they contribute. -/
def Passes (f : Kind → List Tree → Nat) (trees : List Tree) : Prop :=
  ∀ rest count, Leads f ⟨trees ++ rest, count⟩ ⟨rest, count + contributions f trees⟩

theorem passes_nil : Passes f [] := fun rest count => Leads.refl ⟨rest, count⟩

theorem Passes.append {first second : List Tree} (hf : Passes f first) (hs : Passes f second) :
    Passes f (first ++ second) := by
  intro rest count
  rw [List.append_assoc, contributions_append, ← Nat.add_assoc]
  exact (hf (second ++ rest) count).trans (hs rest _)

theorem passes_flatMap {g : Tree → List Tree} {trees : List Tree}
    (each : ∀ t ∈ trees, Passes f (g t)) : Passes f (trees.flatMap g) := by
  induction trees with
  | nil => exact passes_nil
  | cons t rest ih =>
    rw [List.forall_mem_cons] at each
    rw [List.flatMap_cons]
    exact each.1.append (ih each.2)

theorem passes_of_each {trees : List Tree} (each : ∀ t ∈ trees, Passes f [t]) : Passes f trees := by
  have all := passes_flatMap each
  rwa [List.flatMap_singleton'] at all

end Walk

section Contributions

variable {f : Kind → List Tree → Nat}

theorem partTotal_reading (t : Tree) :
    partTotal reading f t = contributions f (followedPart t) := by
  unfold followedPart
  split
  · next d tokens =>
    rw [partTotal, reading_eq, totalOf_openEach_reading]
  · next other =>
    rw [partTotal, contributions_singleton]
    · rfl
    · exact other

/-- A node contributes what it is and what the trees do that a walk goes on to from it. -/
theorem contribution_followed (steady : Steady f) {kind : Kind} (measured : kind.isMeasured)
    (parts : List Tree) :
    contribution f (node kind parts) = f kind parts + contributions f (followed kind parts) := by
  by_cases invocation : kind = .invocation
  · subst invocation
    have same := steady reading .invocation parts
    rw [openWith] at same
    rw [contribution, openWith, total_node rfl, totalOf_openArguments, followed, if_pos rfl,
      contributions_flatMap, ← funext partTotal_reading]
    exact congrArg (· + _) same
  · rw [contribution_node steady measured invocation, followed, if_neg invocation]

end Contributions

namespace Walk

section Passing

variable {f : Kind → List Tree → Nat} {bound : Nat}

theorem passes_node (steady : Steady f) {kind : Kind} {parts : List Tree}
    (next : Passes f (followed kind parts)) : Passes f [node kind parts] := by
  intro rest count
  apply Leads.of_step
  by_cases measured : kind.isMeasured
  · rw [List.singleton_append, step, if_pos measured, contributions_singleton,
      contribution_followed steady measured, ← Nat.add_assoc]
    exact next rest _
  · rw [List.singleton_append, step, if_neg measured, contributions_singleton,
      contribution_of_not_measured (Bool.eq_false_of_not_eq_true measured)]
    exact Leads.refl _

theorem passes_group {d : Delimiter} {content : List Tree} (next : Passes f content) :
    Passes f [group d content] := by
  intro rest count
  apply Leads.of_step
  rw [List.singleton_append, step, contributions_singleton, contribution_group]
  exact next rest count

/-- Arguments of up to `bound` tokens are passed. -/
def PassesArguments (f : Kind → List Tree → Nat) (bound : Nat) : Prop :=
  ∀ tokens, Token.sizeList tokens < bound → Passes f (argumentTrees tokens)

theorem passes_followedPart (arguments : PassesArguments f bound) {t : Tree}
    (small : Token.sizeList t.tokens ≤ bound) (alone : Passes f [t]) :
    Passes f (followedPart t) := by
  unfold followedPart
  split
  · next d tokens =>
    simp only [Tree.tokens, tokensList, Token.sizeList, Token.size, List.append_nil] at small
    exact arguments tokens (by omega)
  · exact alone

mutual
theorem passes_tree (steady : Steady f) (arguments : PassesArguments f bound) (t : Tree)
    (small : Token.sizeList t.tokens ≤ bound) : Passes f [t] := by
  match t with
  | word _ => exact fun rest count => .of_step (.refl ⟨rest, count⟩)
  | raw _ => exact fun rest count => .of_step (.refl ⟨rest, count⟩)
  | group d content =>
    simp only [tokens, Token.sizeList, Token.size] at small
    exact passes_group (passes_of_each (passes_each steady arguments content (by omega)))
  | node kind parts =>
    have each := passes_each steady arguments parts small
    apply passes_node steady
    unfold followed
    split
    · apply passes_flatMap
      intro t mem
      exact passes_followedPart arguments (Nat.le_trans (size_le_of_mem mem) small) (each t mem)
    · exact passes_of_each each

theorem passes_each (steady : Steady f) (arguments : PassesArguments f bound) (trees : List Tree)
    (small : Token.sizeList (tokensList trees) ≤ bound) : ∀ t ∈ trees, Passes f [t] := by
  match trees with
  | [] => exact fun _ mem => absurd mem List.not_mem_nil
  | t :: rest =>
    rw [tokensList, Token.sizeList_append] at small
    refine List.forall_mem_cons.mpr ⟨passes_tree steady arguments t (by omega), ?_⟩
    exact passes_each steady arguments rest (by omega)
end

theorem passes_trees (steady : Steady f) (arguments : PassesArguments f bound) (trees : List Tree)
    (small : Token.sizeList (tokensList trees) ≤ bound) : Passes f trees :=
  passes_of_each (passes_each steady arguments trees small)

/-- Arguments are passed however deep they are nested: those inside have fewer tokens. -/
theorem passesArguments (steady : Steady f) (bound : Nat) : PassesArguments f bound := by
  induction bound with
  | zero => exact fun _ small => absurd small (Nat.not_lt_zero _)
  | succ bound ih =>
    intro tokens small
    have size := sizeList_argumentTrees_le tokens
    exact passes_trees steady ih (argumentTrees tokens) (by omega)

/-- Every walk of a body ends, with the measure of the body. -/
theorem ends_totalOf_opened (steady : Steady f) (trees : List Tree) :
    Ends f trees (totalOf f (opened trees)) := by
  have passes := passes_trees steady (passesArguments steady _) trees (Nat.le_refl _)
  have whole := passes [] 0
  rwa [List.append_nil, Nat.zero_add, ← totalOf_opened] at whole

end Passing

end Walk

/-! Parts of trees in tokens. -/

theorem sizeList_filter_le (p : Tree → Bool) (trees : List Tree) :
    Token.sizeList (tokensList (trees.filter p)) ≤ Token.sizeList (tokensList trees) := by
  induction trees with
  | nil => exact Nat.le_refl _
  | cons t rest ih =>
    rw [List.filter_cons]
    split
    · rw [tokensList, tokensList, Token.sizeList_append, Token.sizeList_append]
      omega
    · rw [tokensList, Token.sizeList_append]
      omega

theorem sizeList_children_le (t : Tree) :
    Token.sizeList (tokensList t.children) ≤ Token.sizeList t.tokens := by
  cases t with
  | group d content =>
    simp only [Tree.children, tokens, Token.sizeList, Token.size]
    omega
  | node kind parts => exact Nat.le_refl _
  | word _ => exact Nat.zero_le _
  | raw _ => exact Nat.zero_le _

/-! Opening up to a depth. -/

/-- Arguments opened at most `depth` inside one another; deeper ones are left to `deeper`. -/
def argumentsOpenedOr (deeper : List Token → List Tree) : Nat → List Token → List Tree
  | 0, tokens => deeper tokens
  | depth + 1, tokens => openEach (argumentsOpenedOr deeper depth) (argumentTrees tokens)

theorem argumentsOpenedOr_eq_reading (deeper : List Token → List Tree) {depth : Nat}
    {tokens : List Token} (small : Token.sizeList tokens < depth) :
    argumentsOpenedOr deeper depth tokens = reading tokens := by
  induction depth generalizing tokens with
  | zero => exact absurd small (Nat.not_lt_zero _)
  | succ depth ih =>
    have size := sizeList_argumentTrees_le tokens
    rw [reading_eq, argumentsOpenedOr]
    apply openEach_congr
    intro inner smaller
    exact ih (by omega)

/-- What is deeper than there are tokens makes no difference: nothing is. -/
theorem openEach_argumentsOpenedOr (deeper : List Token → List Tree) {bound : Nat}
    {trees : List Tree} (enough : Token.sizeList (tokensList trees) ≤ bound) :
    openEach (argumentsOpenedOr deeper bound) trees = opened trees := by
  rw [opened_eq]
  apply openEach_congr
  intro tokens smaller
  exact argumentsOpenedOr_eq_reading deeper (by omega)

end Tree

namespace Function

/-- The body is a part of the function. -/
theorem sizeList_body_le (f : Function) :
    Token.sizeList (tokensList f.body) ≤ Token.sizeList (tokensList f.parts) := by
  unfold body
  split
  · next block found =>
    have mem : block ∈ f.parts := List.mem_of_find?_eq_some found
    calc Token.sizeList (tokensList (block.children.flatMap fun group =>
            group.children.filter (! isNode .innerAttribute ·)))
        ≤ Token.sizeList (tokensList block.children) :=
          sizeList_flatMap_le fun group _ =>
            (sizeList_filter_le _ group.children).trans (sizeList_children_le group)
      _ ≤ Token.sizeList block.tokens := sizeList_children_le block
      _ ≤ Token.sizeList (tokensList f.parts) := size_le_of_mem mem
  · exact Nat.zero_le _

/-- An invocation in the arguments of another has fewer tokens than that. So each of the walks over
a body that a row is counted by ends, with the count in the row, and to open invocations up to a
depth that is not less than the number of the function's tokens is to open them all. -/
theorem walking_arguments_terminates :
    (∀ inner outer, IsInside inner outer → Token.sizeList inner < Token.sizeList outer) ∧
    WellFounded IsInside ∧
    ∀ f : Function,
      (∃ branching, f.cyclomaticComplexity = 1 + branching ∧ Walk.Ends branches f.body branching) ∧
      Walk.Ends localCount f.body f.localVariableCount ∧
      Walk.Ends Tree.statementCount f.body f.statementCount ∧
      (∀ name, Walk.Ends (callCount name) f.body (f.callsOf name)) ∧
      ∀ deeper bound, Token.sizeList (tokensList f.parts) ≤ bound →
        openEach (argumentsOpenedOr deeper bound) f.body = f.openedBody := by
  refine ⟨fun _ _ inside => inside.sizeList_lt, wellFounded_isInside, fun f => ⟨?_, ?_, ?_, ?_, ?_⟩⟩
  · exact ⟨_, rfl, Walk.ends_totalOf_opened steady_branches f.body⟩
  · exact Walk.ends_totalOf_opened steady_localCount f.body
  · exact Walk.ends_totalOf_opened steady_statementCount f.body
  · exact fun name => Walk.ends_totalOf_opened (steady_callCount name) f.body
  · intro deeper bound enough
    exact openEach_argumentsOpenedOr deeper (Nat.le_trans f.sizeList_body_le enough)

/-- The arguments of an invocation that is an argument of another. -/
def nestedArguments : List Token := [.ident "g", .group .parenthesis []]

/-- The arguments of the invocation around it. -/
def outerArguments : List Token :=
  [.ident "n", .punct '!' false, .group .parenthesis nestedArguments]

/-- A call in nested invocations is found, whatever would be found deeper than there are tokens. -/
theorem walking_arguments_terminates_of_nested :
    Token.sizeList nestedArguments < Token.sizeList outerArguments ∧
    ∃ f, Function.ofSource? "fn f() \x7b m!(n!(g())); \x7d" = some [f] ∧
      Token.sizeList (tokensList f.parts) ≤ 13 ∧ Walk.Ends (callCount "g") f.body 1 ∧
      openEach (argumentsOpenedOr (fun _ => f.body) 13) f.body = f.openedBody := by
  obtain ⟨smaller, -, each⟩ := walking_arguments_terminates
  have read : parseArguments? outerArguments = some [.node .invocation
      [.node .path [.node .segment [.word [.ident "n"]]], .word [.punct '!' false],
        .group .parenthesis [.raw nestedArguments]]] := by decide +kernel
  have inside : IsInside nestedArguments outerArguments :=
    ⟨_, .inl read, _, List.mem_singleton_self _,
      .here (.tail _ (.tail _ (List.mem_singleton_self _)))⟩
  have measured : (Function.ofSource? "fn f() \x7b m!(n!(g())); \x7d").map (·.map fun f =>
      (Token.sizeList (tokensList f.parts), f.callsOf "g")) = some [(13, 1)] := by decide +kernel
  obtain ⟨functions, collected, counted⟩ := Option.map_eq_some_iff.mp measured
  obtain ⟨f, rfl, both⟩ := List.map_eq_singleton_iff.mp counted
  obtain ⟨size, calls⟩ := Prod.mk.inj both
  obtain ⟨-, -, -, callsEnd, opened⟩ := each f
  have ends := callsEnd "g"
  rw [calls] at ends
  exact ⟨smaller _ _ inside, f, collected, Nat.le_of_eq size, ends,
    opened _ 13 (Nat.le_of_eq size)⟩

end Function
end CallStudy.Source
