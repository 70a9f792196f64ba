import CallStudy.Proofs.Feature.Calls
import CallStudy.Proofs.Source.Bindings
import CallStudy.Proofs.Source.Contribution
import CallStudy.Proofs.Source.Reading

/-!
Invocations and what they stand for. An invocation of expressions with commas between them
contributes what the same list in parentheses does, wherever it stands, and one of statements what a
block of them does but for the statements themselves.
-/

set_option autoImplicit false

namespace CallStudy.Source

open Syntax

namespace Tree

/-- The parts of a path of names alone. -/
def IsPlain (path : List Tree) : Prop :=
  ∀ part ∈ path, (∃ tokens, part = .word tokens) ∨ ∃ tokens, part = .node .segment [.word tokens]

/-- An invocation as it stands in a body, its arguments unread. -/
def invocation (path : List Tree) (mark : List Token) (d : Delimiter) (tokens : List Token) : Tree :=
  node .invocation [node .path path, word mark, group d [raw tokens]]

/-- The second tree is the first with some invocations of expressions written as lists in
parentheses: in the tree itself or in the arguments of an invocation, which are then other tokens. -/
inductive Unwraps : Tree → Tree → Prop where
  | same (t : Tree) : Unwraps t t
  | group {d : Delimiter} {content content' : List Tree} (length : content.length = content'.length)
      (each : ∀ (i : Nat) (t t' : Tree), content[i]? = some t → content'[i]? = some t' → Unwraps t t') :
      Unwraps (.group d content) (.group d content')
  | node {kind : Kind} {parts parts' : List Tree} (ordinary : kind ≠ .invocation)
      (length : parts.length = parts'.length)
      (each : ∀ (i : Nat) (t t' : Tree), parts[i]? = some t → parts'[i]? = some t' → Unwraps t t') :
      Unwraps (.node kind parts) (.node kind parts')
  | list {path trees trees' : List Tree} {mark tokens : List Token} {d : Delimiter}
      (plain : IsPlain path) (read : parseArguments? tokens = some trees)
      (length : trees.length = trees'.length)
      (each : ∀ (i : Nat) (t t' : Tree), trees[i]? = some t → trees'[i]? = some t' → Unwraps t t') :
      Unwraps (invocation path mark d tokens) (.node (listKind trees) [.group .parenthesis trees'])
  | inside {path : List Tree} {mark tokens tokens' : List Token} {d : Delimiter}
      (length : (argumentTrees tokens).length = (argumentTrees tokens').length)
      (each : ∀ (i : Nat) (t t' : Tree), (argumentTrees tokens)[i]? = some t →
        (argumentTrees tokens')[i]? = some t' → Unwraps t t') :
      Unwraps (invocation path mark d tokens) (invocation path mark d tokens')

/-- Trees of which the second ones unwrap the first ones, place by place. -/
structure UnwrapsEach (trees trees' : List Tree) : Prop where
  length : trees.length = trees'.length
  each : ∀ (i : Nat) (t t' : Tree), trees[i]? = some t → trees'[i]? = some t' → Unwraps t t'

theorem UnwrapsEach.refl (trees : List Tree) : UnwrapsEach trees trees := by
  refine ⟨rfl, fun i t t' at_ at_' => ?_⟩
  have same : t = t' := Option.some.inj (at_.symm.trans at_')
  subst same
  exact .same t

theorem UnwrapsEach.single {t t' : Tree} (h : Unwraps t t') : UnwrapsEach [t] [t'] := by
  refine ⟨rfl, fun i u u' at_ at_' => ?_⟩
  obtain ⟨rfl, rfl⟩ : u = t ∧ u' = t' :=
    ⟨List.mem_singleton.mp (List.mem_of_getElem? at_),
      List.mem_singleton.mp (List.mem_of_getElem? at_')⟩
  exact h

/-! What unwrapping leaves as it is. -/

mutual
/-- The tree with every invocation and every list in parentheses taken out. -/
def outline : Tree → Tree
  | node .invocation _ => node .tuple []
  | node .parenthesized _ => node .tuple []
  | node .tuple _ => node .tuple []
  | node kind parts => node kind (outlineEach parts)
  | group d content => group d (outlineEach content)
  | t => t

def outlineEach : List Tree → List Tree
  | [] => []
  | t :: ts => t.outline :: outlineEach ts
end

theorem outlineEach_eq_map (trees : List Tree) : outlineEach trees = trees.map outline := by
  induction trees with
  | nil => rfl
  | cons t rest ih => rw [outlineEach, ih, List.map_cons]

theorem map_eq_of_each {α : Type} {g : Tree → α} {trees trees' : List Tree}
    (length : trees.length = trees'.length)
    (each : ∀ (i : Nat) (t t' : Tree), trees[i]? = some t → trees'[i]? = some t' → g t = g t') :
    trees.map g = trees'.map g := by
  apply List.ext_getElem?
  intro i
  rw [List.getElem?_map, List.getElem?_map]
  by_cases inside : i < trees.length
  · have inside' : i < trees'.length := by omega
    rw [List.getElem?_eq_getElem inside, List.getElem?_eq_getElem inside']
    exact congrArg some (each i _ _ (List.getElem?_eq_getElem inside)
      (List.getElem?_eq_getElem inside'))
  · rw [List.getElem?_eq_none (by omega), List.getElem?_eq_none (by omega)]

theorem outline_node {kind : Kind} (other : kind ≠ .invocation) (open_ : kind ≠ .parenthesized)
    (more : kind ≠ .tuple) (parts : List Tree) :
    (node kind parts).outline = node kind (parts.map outline) := by
  rw [← outlineEach_eq_map]
  cases kind <;> first | rfl | contradiction

theorem Unwraps.outline_eq {t t' : Tree} (h : Unwraps t t') : t.outline = t'.outline := by
  induction h with
  | same t => rfl
  | group length each ih =>
    rw [outline, outline, outlineEach_eq_map, outlineEach_eq_map, map_eq_of_each length ih]
  | @node kind parts parts' ordinary length each ih =>
    by_cases single : kind = .parenthesized
    · subst single
      rfl
    by_cases several : kind = .tuple
    · subst several
      rfl
    rw [outline_node ordinary single several, outline_node ordinary single several,
      map_eq_of_each length ih]
  | list plain read length each ih =>
    rw [listKind]
    split <;> rfl
  | inside length each ih => rfl

/-! What can be told from the outline of a tree. -/

theorem isNode_outline {kind : Kind} (other : kind ≠ .invocation) (open_ : kind ≠ .parenthesized)
    (more : kind ≠ .tuple) (t : Tree) : t.outline.isNode kind = t.isNode kind := by
  cases t with
  | node k parts =>
    have listed (k : Kind) (special : k = .invocation ∨ k = .parenthesized ∨ k = .tuple) :
        (k == kind) = false := by
      apply beq_eq_false_iff_ne.mpr
      rintro rfl
      rcases special with rfl | rfl | rfl <;> contradiction
    by_cases invoked : k = .invocation
    · subst invoked
      exact (listed .tuple (by simp)).trans (listed .invocation (by simp)).symm
    by_cases single : k = .parenthesized
    · subst single
      exact (listed .tuple (by simp)).trans (listed .parenthesized (by simp)).symm
    by_cases several : k = .tuple
    · subst several
      rfl
    rw [outline_node invoked single several]
    rfl
  | _ => rfl

theorem wordText?_outline (t : Tree) : t.outline.wordText? = t.wordText? := by
  cases t with
  | node kind parts => cases kind <;> rfl
  | _ => rfl

theorem armCount?_outline (t : Tree) : armCount? t.outline = armCount? t := by
  cases t with
  | group d content =>
    have arms (t : Tree) : t.outline.isNode .arm = t.isNode .arm :=
      isNode_outline (by decide) (by decide) (by decide) t
    simp only [armCount?, outline, outlineEach_eq_map, List.filter_map, List.length_map,
      Function.comp_def, arms]
  | node kind parts => cases kind <;> rfl
  | _ => rfl

theorem blockOrWord?_outline (t : Tree) : blockOrWord? t.outline = blockOrWord? t := by
  cases t with
  | node kind parts => cases kind <;> rfl
  | _ => rfl

theorem maps_outline {kind : Kind} (other : kind ≠ .invocation) (open_ : kind ≠ .parenthesized)
    (more : kind ≠ .tuple) : Maps outline kind where
  isNode := isNode_outline other open_ more
  node := outline_node other open_ more

theorem pathWords_outline (t : Tree) : t.outline.pathWords = t.pathWords := by
  have segments (parts : List Tree) : (node .path (outlineEach parts)).pathWords =
      (node .path parts).pathWords := by
    rw [outlineEach_eq_map]
    exact pathWords_map wordText?_outline (maps_outline nofun nofun nofun) parts
  cases t with
  | node kind parts =>
    cases kind with
    | path => exact segments parts
    | qualifiedPath => exact segments parts
    | _ => rfl
  | _ => rfl

theorem calleeWord?_outline (t : Tree) : calleeWord? t.outline = calleeWord? t :=
  calleeWord?_map (maps_outline nofun nofun nofun) pathWords_outline t

theorem nameOf_outline (parts : List Tree) : nameOf (parts.map outline) = nameOf parts :=
  nameOf_map wordText?_outline (maps_outline nofun nofun nofun) parts

mutual
theorem ownBindings_outline (t : Tree) : t.outline.ownBindings = t.ownBindings := by
  match t with
  | word _ => rfl
  | raw _ => rfl
  | group d content => exact ownBindingsOf_outlineEach content
  | node kind parts =>
    by_cases invoked : kind = .invocation
    · subst invoked
      rfl
    by_cases single : kind = .parenthesized
    · subst single
      rfl
    by_cases several : kind = .tuple
    · subst several
      rfl
    rw [outline_node invoked single several, ← outlineEach_eq_map, ownBindings, ownBindings,
      ownBindingsOf_outlineEach parts]

theorem ownBindingsOf_outlineEach (trees : List Tree) :
    ownBindingsOf (outlineEach trees) = ownBindingsOf trees := by
  match trees with
  | [] => rfl
  | t :: rest =>
    rw [outlineEach, ownBindingsOf, ownBindingsOf, ownBindings_outline t,
      ownBindingsOf_outlineEach rest]
end

/-- A measure that is told from the outlines of a node's parts. -/
def Outlined (f : Kind → List Tree → Nat) : Prop :=
  ∀ kind parts, f kind (parts.map outline) = f kind parts

theorem outlined_branches : Outlined branches := by
  intro kind parts
  cases kind with
  | matchExpr =>
    change (arms _).length - 1 = (arms _).length - 1
    rw [length_arms_eq, length_arms_eq, last_map armCount?_outline]
  | _ => rfl

theorem outlined_statementCount : Outlined statementCount := by
  intro kind parts
  have block : isBlockStatement (parts.map outline) = isBlockStatement parts := by
    rw [isBlockStatement_eq, isBlockStatement_eq, last_map blockOrWord?_outline,
      beforeLast_map blockOrWord?_outline]
  rw [statementCount, statementCount, block]

theorem outlined_callCount (name : String) : Outlined (callCount name) := by
  intro kind parts
  cases kind with
  | call =>
    rw [callCount, callCount, calledName?_call_eq, calledName?_call_eq,
      beforeLast_map calleeWord?_outline]
  | methodCall =>
    rw [callCount, callCount, calledName?, calledName?, nameOf_outline]
  | _ => rfl

theorem outlined_ofPattern_ownBindings : Outlined (ofPattern ownBindings) :=
  ofPattern_map wordText?_outline ownBindings_outline

/-- Measures that say nothing of lists, paths and blocks themselves. -/
structure Quiet (f : Kind → List Tree → Nat) : Prop where
  invocation (parts : List Tree) : f .invocation parts = 0
  parenthesized (parts : List Tree) : f .parenthesized parts = 0
  tuple (parts : List Tree) : f .tuple parts = 0
  path (parts : List Tree) : f .path parts = 0
  segment (parts : List Tree) : f .segment parts = 0
  blockExpr (parts : List Tree) : f .blockExpr parts = 0
  block (parts : List Tree) : f .block parts = 0

theorem quiet_branches : Quiet branches := by
  constructor <;> intro parts <;> rfl

theorem quiet_statementCount : Quiet statementCount := by
  constructor <;> intro parts <;> rfl

theorem quiet_callCount (name : String) : Quiet (callCount name) := by
  constructor <;> intro parts <;> rfl

theorem quiet_ofPattern (w : Tree → Nat) : Quiet (ofPattern w) := by
  constructor <;> intro parts <;> rfl

section Contributions

variable {f : Kind → List Tree → Nat}

/-- A node that a measure says nothing of contributes what its parts do. -/
theorem contribution_of_silent (steady : Steady f) (kind : Kind) (measured : kind.isMeasured)
    (ordinary : kind ≠ .invocation) {parts : List Tree} (silent : f kind parts = 0) :
    contribution f (node kind parts) = contributions f parts := by
  rw [contribution_node steady measured ordinary, silent, Nat.zero_add]

theorem contribution_of_isPlain (steady : Steady f) (quiet : Quiet f) {path : List Tree}
    (plain : IsPlain path) : contribution f (node .path path) = 0 := by
  have each (part : Tree) (mem : part ∈ path) : contribution f part = 0 := by
    rcases plain part mem with ⟨tokens, rfl⟩ | ⟨tokens, rfl⟩
    · rfl
    · exact contribution_of_silent steady .segment rfl (by decide) (quiet.segment _)
  rw [contribution_of_silent steady .path rfl (by decide) (quiet.path _)]
  apply List.sum_eq_zero
  intro n mem
  obtain ⟨part, inside, rfl⟩ := List.mem_map.mp mem
  exact each part inside

/-- A comparison that holds of sums when it holds of what is added up. -/
structure Additive (r : Nat → Nat → Prop) : Prop where
  refl (n : Nat) : r n n
  add {a b c d : Nat} : r a b → r c d → r (a + c) (b + d)

theorem additive_eq : Additive (· = ·) := ⟨fun _ => rfl, fun h g => h ▸ g ▸ rfl⟩

theorem additive_le : Additive (· ≤ ·) := ⟨Nat.le_refl, Nat.add_le_add⟩

variable {r : Nat → Nat → Prop}

theorem contributions_rel (additive : Additive r) {trees trees' : List Tree}
    (length : trees.length = trees'.length)
    (each : ∀ (i : Nat) (t t' : Tree), trees[i]? = some t → trees'[i]? = some t' →
      r (contribution f t) (contribution f t')) :
    r (contributions f trees) (contributions f trees') := by
  induction trees generalizing trees' with
  | nil =>
    rw [List.length_nil, eq_comm, List.length_eq_zero_iff] at length
    subst length
    exact additive.refl 0
  | cons t rest ih =>
    cases trees' with
    | nil => cases length
    | cons t' rest' =>
      rw [contributions_cons, contributions_cons]
      apply additive.add
      · exact each 0 t t' rfl rfl
      · apply ih (Nat.succ.inj length)
        intro i u u' at_ at_'
        exact each (i + 1) u u' at_ at_'

theorem contribution_invocation_of_quiet (steady : Steady f) (quiet : Quiet f) (path : List Tree)
    (mark tokens : List Token) (d : Delimiter) : contribution f (invocation path mark d tokens) =
      contribution f (node .path path) + contributions f (argumentTrees tokens) := by
  rw [invocation, contribution_invocation steady, quiet.invocation, Nat.zero_add]

/-- Unwrapping changes contributions no more than it changes what is measured of single nodes. -/
theorem Unwraps.contribution_rel (additive : Additive r) (steady : Steady f) (quiet : Quiet f)
    (step : ∀ kind parts parts', UnwrapsEach parts parts' → r (f kind parts) (f kind parts'))
    {t t' : Tree} (h : Unwraps t t') : r (contribution f t) (contribution f t') := by
  induction h with
  | same t => exact additive.refl _
  | group length each ih =>
    rw [contribution_group, contribution_group]
    exact contributions_rel additive length ih
  | @node kind parts parts' ordinary length each ih =>
    by_cases measured : kind.isMeasured
    · rw [contribution_node steady measured ordinary, contribution_node steady measured ordinary]
      exact additive.add (step kind parts parts' ⟨length, each⟩)
        (contributions_rel additive length ih)
    · rw [Bool.not_eq_true] at measured
      rw [contribution_of_not_measured measured, contribution_of_not_measured measured]
      exact additive.refl 0
  | @list path trees trees' mark tokens d plain read length each ih =>
    have arguments : argumentTrees tokens = trees := by
      rw [argumentTrees, read]
    have written : contribution f (Tree.node (listKind trees) [Tree.group .parenthesis trees']) =
        contributions f trees' := by
      rw [listKind]
      split
      · rw [contribution_of_silent steady .tuple rfl (by decide) (quiet.tuple _),
          contributions_singleton, contribution_group]
      · rw [contribution_of_silent steady .parenthesized rfl (by decide) (quiet.parenthesized _),
          contributions_singleton, contribution_group]
    rw [contribution_invocation_of_quiet steady quiet, contribution_of_isPlain steady quiet plain,
      arguments, written, Nat.zero_add]
    exact contributions_rel additive length ih
  | @inside path mark tokens tokens' d length each ih =>
    rw [contribution_invocation_of_quiet steady quiet, contribution_invocation_of_quiet steady quiet]
    exact additive.add (additive.refl _) (contributions_rel additive length ih)

theorem UnwrapsEach.map_outline_eq {trees trees' : List Tree} (h : UnwrapsEach trees trees') :
    trees.map outline = trees'.map outline :=
  map_eq_of_each h.length fun i t t' at_ at_' => (h.each i t t' at_ at_').outline_eq

theorem UnwrapsEach.contributions_eq (steady : Steady f) (quiet : Quiet f) (outlined : Outlined f)
    {trees trees' : List Tree} (h : UnwrapsEach trees trees') :
    contributions f trees = contributions f trees' := by
  apply contributions_rel additive_eq h.length
  intro i t t' at_ at_'
  apply (h.each i t t' at_ at_').contribution_rel additive_eq steady quiet
  intro kind parts parts' each
  rw [← outlined kind parts, ← outlined kind parts', each.map_outline_eq]

/-! Bindings, which an invocation hides. -/

theorem bindingsOf_le {trees trees' : List Tree} (length : trees.length = trees'.length)
    (each : ∀ (i : Nat) (t t' : Tree), trees[i]? = some t → trees'[i]? = some t' →
      t.bindings ≤ t'.bindings) : bindingsOf trees ≤ bindingsOf trees' := by
  induction trees generalizing trees' with
  | nil => exact Nat.zero_le _
  | cons t rest ih =>
    cases trees' with
    | nil => cases length
    | cons t' rest' =>
      rw [bindingsOf, bindingsOf]
      apply Nat.add_le_add
      · exact each 0 t t' rfl rfl
      · apply ih (Nat.succ.inj length)
        intro i u u' at_ at_'
        exact each (i + 1) u u' at_ at_'

theorem Unwraps.bindings_le {t t' : Tree} (h : Unwraps t t') : t.bindings ≤ t'.bindings := by
  induction h with
  | same t => exact Nat.le_refl _
  | group length each ih => exact bindingsOf_le length ih
  | @node kind parts parts' ordinary length each ih =>
    by_cases written : kind = .asWritten
    · subst written
      exact Nat.le_refl 0
    · rw [bindings_node ordinary written, bindings_node ordinary written]
      exact Nat.add_le_add_left (bindingsOf_le length ih) _
  | list plain read length each ih => exact Nat.zero_le _
  | inside length each ih => exact Nat.zero_le _

theorem Unwraps.wordText?_eq {t t' : Tree} (h : Unwraps t t') : t.wordText? = t'.wordText? := by
  rw [← wordText?_outline t, ← wordText?_outline t', h.outline_eq]

theorem UnwrapsEach.tail {t t' : Tree} {rest rest' : List Tree}
    (h : UnwrapsEach (t :: rest) (t' :: rest')) : UnwrapsEach rest rest' :=
  ⟨Nat.succ.inj h.length, fun i u u' at_ at_' => h.each (i + 1) u u' at_ at_'⟩

/-- What stands behind a word binds no less with the invocations in it unwrapped. -/
theorem UnwrapsEach.after_le (text : String) {parts parts' : List Tree}
    (h : UnwrapsEach parts parts') :
    ((after text parts).map bindings).getD 0 ≤ ((after text parts').map bindings).getD 0 := by
  match parts, parts', h with
  | [], [], _ => exact Nat.le_refl _
  | [_], [_], _ => exact Nat.le_refl _
  | t :: next :: rest, t' :: next' :: rest', h =>
    have word := (h.each 0 t t' rfl rfl).wordText?_eq
    rw [after, after, word]
    split
    · exact (h.each 1 next next' rfl rfl).bindings_le
    · exact UnwrapsEach.after_le text h.tail
  | [], _ :: _, h => cases h.length
  | _ :: _, [], h => cases h.length
  | [_], _ :: _ :: _, h => cases h.length
  | _ :: _ :: _, [_], h => cases h.length

theorem UnwrapsEach.localCount_le (kind : Kind) {parts parts' : List Tree}
    (h : UnwrapsEach parts parts') : localCount kind parts ≤ localCount kind parts' := by
  cases kind with
  | localVariable => exact h.after_le "let"
  | forExpr => exact h.after_le "for"
  | _ => exact Nat.le_refl _

theorem quiet_localCount : Quiet localCount := by
  constructor <;> intro parts <;> rfl

theorem UnwrapsEach.localCounts_le {trees trees' : List Tree} (h : UnwrapsEach trees trees') :
    contributions localCount trees ≤ contributions localCount trees' := by
  apply contributions_rel additive_le h.length
  intro i t t' at_ at_'
  exact (h.each i t t' at_ at_').contribution_rel additive_le steady_localCount quiet_localCount
    fun kind _ _ each => each.localCount_le kind

end Contributions

/-! Statements in an invocation. -/

section Statements

variable {f : Kind → List Tree → Nat}

/-- What a statement adds to a measure by itself. -/
def statementShare (f : Kind → List Tree → Nat) : Tree → Nat
  | node .statement parts => f .statement parts
  | _ => 0

theorem contributions_statementParts (steady : Steady f) (t : Tree) :
    contributions f (statementParts t) + statementShare f t = contribution f t := by
  unfold statementParts statementShare
  split
  · next parts =>
    rw [contribution_node steady (show Kind.statement.isMeasured from rfl) nofun, Nat.add_comm]
  · exact (contribution_of_not_measured rfl _).symm
  · next statement item =>
    rw [contributions_cons, contributions_nil]
    split
    · next parts => exact absurd rfl (statement parts)
    · rfl

theorem contributions_flatMap_statementParts (steady : Steady f) (trees : List Tree) :
    contributions f (trees.flatMap statementParts) + (trees.map (statementShare f)).sum =
      contributions f trees := by
  induction trees with
  | nil => rfl
  | cons t rest ih =>
    have first := contributions_statementParts steady t
    rw [List.flatMap_cons, contributions_append, List.map_cons, List.sum_cons, contributions_cons]
    omega

theorem contribution_blockOf (steady : Steady f) (quiet : Quiet f) (trees : List Tree) :
    contribution f (blockOf trees) = contributions f trees := by
  rw [blockOf, contribution_of_silent steady .blockExpr rfl (by decide) (quiet.blockExpr _),
    contributions_singleton, contribution_of_silent steady .block rfl (by decide) (quiet.block _),
    contributions_singleton, contribution_group]

end Statements

end Tree
end CallStudy.Source
