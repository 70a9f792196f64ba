import CallStudy.Feature.Row
import CallStudy.Proofs.Source.Nodes
import Mathlib

/-!
What the columns of a row say of the nodes in the body of its function.
-/

set_option autoImplicit false

namespace CallStudy

namespace Source
namespace Tree

variable (inside : List Token → List Tree)

@[simp] theorem isNode_openWith (kind : Kind) (t : Tree) :
    (t.openWith inside).isNode kind = t.isNode kind := by
  cases t with
  | node k parts => cases k <;> rfl
  | word _ => rfl
  | raw _ => rfl
  | group _ _ => rfl

section View

variable {β : Type} {g : Tree → Tree} {view : Tree → Option β} (same : ∀ t, view (g t) = view t)

include same

theorem last_map (parts : List Tree) :
    (parts.map g).getLast?.bind view = parts.getLast?.bind view := by
  rw [List.getLast?_map]
  cases parts.getLast? with
  | none => rfl
  | some t => exact same t

theorem beforeLast_map (parts : List Tree) :
    (parts.map g).dropLast.getLast?.bind view = parts.dropLast.getLast?.bind view := by
  rw [← List.map_dropLast, last_map same]

end View

/-- The number of arms in the braces at the end of a `match`. -/
def armCount? : Tree → Option Nat
  | group _ content => some (content.filter (isNode .arm)).length
  | _ => none

theorem length_arms_eq (parts : List Tree) :
    (arms parts).length = (parts.getLast?.bind armCount?).getD 0 := by
  unfold arms
  cases parts.getLast? with
  | none => rfl
  | some t => cases t <;> rfl

theorem length_arms_openEach (parts : List Tree) :
    (arms (openEach inside parts)).length = (arms parts).length := by
  have opened (t : Tree) : armCount? (t.openWith inside) = armCount? t := by
    cases t with
    | group d content =>
      simp only [armCount?, openWith, openEach_eq_map, List.filter_map, List.length_map,
        Function.comp_def, isNode_openWith]
    | node kind _ => cases kind <;> rfl
    | _ => rfl
  rw [length_arms_eq, length_arms_eq, openEach_eq_map, last_map opened]

/-- A bare block: at its end a statement has only a block expression and perhaps a semicolon. -/
def IsBareBlock (parts : List Tree) : Prop :=
  ∃ before content, parts = before ++ [.node .blockExpr content] ∨
    ∃ semicolon, parts = before ++ [.node .blockExpr content, .word semicolon]

theorem isBlockStatement_iff {parts : List Tree} : isBlockStatement parts ↔ IsBareBlock parts := by
  constructor
  · intro h
    unfold isBlockStatement at h
    split at h
    · next content before equal =>
      exact ⟨before.reverse, content, .inl (by simpa using congrArg List.reverse equal)⟩
    · next semicolon content before equal =>
      exact ⟨before.reverse, content, .inr ⟨semicolon, by simpa using congrArg List.reverse equal⟩⟩
    · cases h
  · rintro ⟨before, content, rfl | ⟨semicolon, rfl⟩⟩ <;> simp [isBlockStatement]

instance : DecidablePred IsBareBlock := fun _ => decidable_of_iff _ isBlockStatement_iff

/-- Whether a part at the end of a statement is a block or, if not, a word. -/
def blockOrWord? : Tree → Option Bool
  | node .blockExpr _ => some true
  | word _ => some false
  | _ => none

theorem isBlockStatement_eq (parts : List Tree) : isBlockStatement parts =
    match parts.getLast?.bind blockOrWord? with
    | some true => true
    | some false => parts.dropLast.getLast?.bind blockOrWord? = some true
    | none => false := by
  rw [isBlockStatement, ← List.head?_reverse, ← List.head?_reverse, ← List.tail_reverse]
  match parts.reverse with
  | [] => rfl
  | node kind _ :: _ => cases kind <;> rfl
  | [word _] => rfl
  | word _ :: node kind _ :: _ => cases kind <;> rfl
  | word _ :: word _ :: _ => rfl
  | word _ :: raw _ :: _ => rfl
  | word _ :: group _ _ :: _ => rfl
  | raw _ :: _ => rfl
  | group _ _ :: _ => rfl

theorem isBlockStatement_openEach (parts : List Tree) :
    isBlockStatement (openEach inside parts) = isBlockStatement parts := by
  have opened (t : Tree) : blockOrWord? (t.openWith inside) = blockOrWord? t := by
    cases t with
    | node kind _ => cases kind <;> rfl
    | _ => rfl
  rw [isBlockStatement_eq, isBlockStatement_eq, openEach_eq_map, last_map opened,
    beforeLast_map opened]

theorem steady_branches : Steady branches := by
  intro inside kind parts
  cases kind with
  | matchExpr => exact congrArg (· - 1) (length_arms_openEach inside parts)
  | _ => rfl

theorem steady_statementCount : Steady statementCount := by
  intro inside kind parts
  cases kind with
  | statement =>
    rw [openWith_node (by decide), statementCount, statementCount, children,
      isBlockStatement_openEach]
  | _ => rfl

theorem weigh_branches (nodes : List BodyNode) :
    weigh branches nodes =
      nodes.countP (·.kind ∈ [.ifExpr, .forExpr, .whileExpr, .loopExpr]) +
        ((nodes.filter (·.kind = .matchExpr)).map fun n => (arms n.parts).length - 1).sum := by
  induction nodes with
  | nil => rfl
  | cons n rest ih =>
    have step : weigh branches (n :: rest) = branches n.kind n.parts + weigh branches rest := by
      simp only [weigh, List.map_cons, List.sum_cons]
    rw [step, ih, List.countP_cons, List.filter_cons]
    unfold branches
    split <;> simp_all <;> omega

theorem weigh_statementCount (nodes : List BodyNode) :
    weigh statementCount nodes =
      nodes.countP fun n => n.kind = .statement ∧ ¬ IsBareBlock n.parts := by
  induction nodes with
  | nil => rfl
  | cons n rest ih =>
    have step : weigh statementCount (n :: rest) =
        statementCount n.kind n.parts + weigh statementCount rest := by
      simp only [weigh, List.map_cons, List.sum_cons]
    rw [step, ih, List.countP_cons, statementCount, Nat.add_comm]
    simp [← isBlockStatement_iff]

end Tree

/-! The arms of a match are found at their places among the nodes. -/

/-- The second node is an arm of the first: it stands right in the braces that this ends with. -/
inductive IsArmOf (m : BodyNode) : BodyNode → Prop where
  | inBraces {before content : List Tree} {d : Delimiter} {j : Nat} {parts : List Tree}
      (ends : m.parts = before ++ [.group d content])
      (arm : content[j]? = some (.node .arm parts)) :
      IsArmOf m ⟨m.place ++ [before.length, j], .arm, parts⟩

/-- The arm at an index of the trees between braces that stand at `braces`. -/
def armAt? (braces : List Nat) : Tree × Nat → Option BodyNode
  | (.node .arm parts, j) => some ⟨braces ++ [j], .arm, parts⟩
  | _ => none

theorem armAt?_eq_some_iff {braces : List Nat} {t : Tree} {j : Nat} {a : BodyNode} :
    armAt? braces (t, j) = some a ↔
      ∃ parts, t = .node .arm parts ∧ a = ⟨braces ++ [j], .arm, parts⟩ := by
  unfold armAt?
  split
  · next parts _ same =>
    cases same
    simp [eq_comm]
  · next other =>
    constructor
    · intro none
      cases none
    · rintro ⟨parts, rfl, -⟩
      exact absurd rfl (other parts j)

theorem isSome_armAt? (braces : List Nat) (arm : Tree × Nat) :
    (armAt? braces arm).isSome = arm.1.isNode .arm := by
  obtain ⟨t, j⟩ := arm
  cases t with
  | node kind parts => cases kind <;> rfl
  | _ => rfl

/-- The arms of a node in order. -/
def armsOf (m : BodyNode) : List BodyNode :=
  match m.parts.getLast? with
  | some (.group _ content) =>
    content.zipIdx.filterMap (armAt? (m.place ++ [m.parts.dropLast.length]))
  | _ => []

theorem mem_armsOf {m a : BodyNode} : a ∈ armsOf m ↔ IsArmOf m a := by
  constructor
  · intro mem
    unfold armsOf at mem
    split at mem
    · next d content last =>
      obtain ⟨⟨t, j⟩, at_, arm⟩ := List.mem_filterMap.mp mem
      obtain ⟨parts, rfl, rfl⟩ := armAt?_eq_some_iff.mp arm
      rw [List.append_assoc]
      exact .inBraces (List.dropLast_append_getLast? _ last).symm
        (List.mem_zipIdx_iff_getElem?.mp at_)
    · cases mem
  · rintro ⟨ends, arm⟩
    rw [armsOf, ends, List.getLast?_concat, List.dropLast_concat]
    refine List.mem_filterMap.mpr ⟨(_, _), List.mem_zipIdx_iff_getElem?.mpr arm, ?_⟩
    exact armAt?_eq_some_iff.mpr ⟨_, rfl, by rw [List.append_assoc]; rfl⟩

instance (m : BodyNode) : DecidablePred (IsArmOf m) := fun _ => decidable_of_iff _ mem_armsOf

theorem nodup_armsOf (m : BodyNode) : (armsOf m).Nodup := by
  unfold armsOf
  split
  · next content _ =>
    refine List.Nodup.filterMap ?_ (.of_map _ (List.nodup_zipIdx_map_snd content))
    rintro ⟨t, i⟩ ⟨t', j⟩ a first second
    obtain ⟨parts, rfl, rfl⟩ := armAt?_eq_some_iff.mp first
    obtain ⟨_, rfl, same⟩ := armAt?_eq_some_iff.mp second
    simp only [BodyNode.mk.injEq, List.append_cancel_left_eq, List.cons.injEq, and_true, true_and]
      at same
    rw [same.1, same.2]
  · exact List.nodup_nil

theorem length_armsOf (m : BodyNode) : (armsOf m).length = (Tree.arms m.parts).length := by
  unfold armsOf Tree.arms
  cases m.parts.getLast? with
  | none => rfl
  | some t =>
    cases t with
    | group d content =>
      calc (content.zipIdx.filterMap (armAt? (m.place ++ [m.parts.dropLast.length]))).length
        _ = content.zipIdx.countP (Tree.isNode .arm ∘ Prod.fst) := by
          simp only [List.length_filterMap_eq_countP, isSome_armAt?, Function.comp_def]
        _ = (content.filter (Tree.isNode .arm)).length := by
          rw [← List.countP_map, List.zipIdx_map_fst, List.countP_eq_length_filter]
    | _ => rfl

/-- The arms of a match in a body are nodes of the body. -/
theorem NodeIn.arm {body : List Tree} {m a : BodyNode} (h : NodeIn body m)
    (isMatch : m.kind = .matchExpr) (arm : IsArmOf m a) : NodeIn body a := by
  obtain ⟨i, t, n, tree, node, rfl⟩ := h
  obtain @⟨before, content, d, j, parts, ends, arm⟩ := arm
  have inside : NodeAt (.node .matchExpr n.parts) ⟨[before.length, j], .arm, parts⟩ := by
    have braces : n.parts[before.length]? = some (.group d content) := by
      rw [show n.parts = _ from ends, List.getElem?_concat_length]
    exact .inNode rfl braces (.inGroup arm (.here rfl))
  refine ⟨i, t, _, tree, node.trans (n := ⟨_, _, _⟩) ?_, rfl⟩
  rwa [show n.kind = .matchExpr from isMatch]

/-- Among the nodes of a body, those that are arms of a match are as many as stand in its braces. -/
theorem Enumerates.countP_isArmOf {body : List Tree} {nodes : List BodyNode}
    (listed : Enumerates nodes (NodeIn body)) {m : BodyNode} (mem : m ∈ nodes)
    (isMatch : m.kind = .matchExpr) :
    nodes.countP (fun a => IsArmOf m a) = (Tree.arms m.parts).length := by
  rw [← length_armsOf, List.countP_eq_length_filter]
  apply List.Perm.length_eq
  apply (List.perm_ext_iff_of_nodup (listed.nodup_nodes.filter _) (nodup_armsOf m)).mpr
  intro a
  rw [List.mem_filter, decide_eq_true_iff, mem_armsOf, and_iff_right_iff_imp, listed.mem_iff]
  exact ((listed.mem_iff m).mp mem).arm isMatch

/-- Branches are counted by kind, and a match by its arms among the same nodes. -/
theorem Enumerates.weigh_branches {body : List Tree} {nodes : List BodyNode}
    (listed : Enumerates nodes (NodeIn body)) :
    weigh Tree.branches nodes =
      nodes.countP (·.kind ∈ [.ifExpr, .forExpr, .whileExpr, .loopExpr]) +
        ((nodes.filter (·.kind = .matchExpr)).map fun m =>
          nodes.countP (fun a => IsArmOf m a) - 1).sum := by
  rw [Tree.weigh_branches]
  congr 2
  refine List.map_congr_left fun m mem => ?_
  obtain ⟨mem, isMatch⟩ := List.mem_filter.mp mem
  rw [listed.countP_isArmOf mem (of_decide_eq_true isMatch)]

end Source

namespace FeatureRow

open Source Source.Tree

/-- Reference semantics of the two columns that measure branches and statements. -/
theorem ofFunctions_counts_nodes (f : Source.Function) :
    ∃ nodes : List BodyNode, Enumerates nodes (NodeIn f.body) ∧
      ∀ (fileName : String) (functions : List Source.Function) (i : Nat),
        functions[i]? = some f → ∃ row, (ofFunctions fileName functions)[i]? = some row ∧
          row.cyclomaticComplexity =
            1 + nodes.countP (·.kind ∈ [.ifExpr, .forExpr, .whileExpr, .loopExpr]) +
              ((nodes.filter (·.kind = .matchExpr)).map fun m =>
                nodes.countP (fun a => IsArmOf m a) - 1).sum ∧
          row.statementCount =
            nodes.countP fun n => n.kind = .statement ∧ ¬ IsBareBlock n.parts := by
  obtain ⟨nodes, listed, weighed⟩ := measures_opened f.body
  refine ⟨nodes, listed, fun fileName functions i at_ => ?_⟩
  refine ⟨ofFunction fileName functions f, by rw [ofFunctions, List.getElem?_map, at_]; rfl, ?_, ?_⟩
  · rw [Nat.add_assoc, ← listed.weigh_branches, ← weighed _ steady_branches]
    rfl
  · rw [← weigh_statementCount, ← weighed _ steady_statementCount]
    rfl

/-- The second function has a match in an arm of another and a third in an invocation of
expressions, beside an invocation of statements, a bare block and an item. -/
def nestedMatches : String :=
  "fn g() \x7b\x7d fn f(x: u8) -> u8 \x7b \x7b g(); \x7d fn h() \x7b if true \x7b\x7d \x7d " ++
    "m!(9, match x \x7b 2 => 3, 4 => 5, _ => 6 \x7d); m!(let y = x; while y > 2 \x7b\x7d); " ++
      "match x \x7b 0 => 1, 1 => match x \x7b _ => 2 \x7d, " ++
        "_ => \x7b if x > 9 \x7b g() \x7d \x7d \x7d \x7d"

theorem ofFunctions_counts_nodes_of_matches :
    ∃ functions f nodes, Source.Function.ofSource? nestedMatches = some functions ∧
      functions[1]? = some f ∧ Enumerates nodes (NodeIn f.body) ∧
      1 + nodes.countP (·.kind ∈ [.ifExpr, .forExpr, .whileExpr, .loopExpr]) +
        ((nodes.filter (·.kind = .matchExpr)).map fun m =>
          nodes.countP (fun a => IsArmOf m a) - 1).sum = 7 ∧
      (nodes.countP fun n => n.kind = .statement ∧ ¬ IsBareBlock n.parts) = 6 := by
  obtain ⟨functions, read, columns⟩ := Option.map_eq_some_iff.mp (show
    (Source.Function.ofSource? nestedMatches).map
      (fun functions => (ofFunctions "a.rs" functions).map fun row =>
        (row.cyclomaticComplexity, row.statementCount)) = some [(1, 0), (7, 6)] by decide +kernel)
  have two : functions.length = 2 := by simpa [ofFunctions] using congrArg List.length columns
  have second : functions[1]? = some functions[1] := List.getElem?_eq_getElem (by omega)
  obtain ⟨nodes, listed, rows⟩ := ofFunctions_counts_nodes functions[1]
  obtain ⟨row, found, complexity, statements⟩ := rows "a.rs" functions 1 second
  have measured : ((ofFunctions "a.rs" functions).map fun row =>
      (row.cyclomaticComplexity, row.statementCount))[1]? = some (7, 6) := by
    rw [columns]
    rfl
  rw [List.getElem?_map, found] at measured
  obtain ⟨branches, counted⟩ := Prod.mk.inj (Option.some.inj measured)
  exact ⟨functions, functions[1], nodes, read, second, listed, complexity ▸ branches,
    statements ▸ counted⟩

end FeatureRow
end CallStudy
