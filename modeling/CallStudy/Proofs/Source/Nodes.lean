import CallStudy.Source.Metrics
import Mathlib

/-!
The nodes of a body by the places they stand at, invocations read wherever they stand. Opening the
invocations of a body and adding up over the result measures each of these nodes exactly once: the
bound on the depth of opening is never reached.
-/

set_option autoImplicit false

namespace CallStudy.Source

open Syntax

/-- Items in a body are not measured, and what is kept as tokens has no nodes. -/
def Kind.isMeasured (kind : Kind) : Bool := kind != .nestedItem && kind != .asWritten

/-- A node with its place, the indices that lead to it. -/
structure BodyNode where
  place : List Nat
  kind : Kind
  parts : List Tree
  deriving DecidableEq

/-- The node seen from around its tree, which stands at index `i`. -/
def BodyNode.under (i : Nat) (n : BodyNode) : BodyNode := { n with place := i :: n.place }

/-- The nodes of a tree. The argument tokens of an invocation are expressions with commas between
them or, if they are not, statements; such a statement is no node itself, but what is in it is. -/
inductive NodeAt : Tree → BodyNode → Prop where
  | here {kind : Kind} {parts : List Tree} (measured : kind.isMeasured) :
      NodeAt (.node kind parts) ⟨[], kind, parts⟩
  | inNode {kind : Kind} {parts : List Tree} {i : Nat} {t : Tree} {n : BodyNode}
      (measured : kind.isMeasured) (part : parts[i]? = some t) (node : NodeAt t n) :
      NodeAt (.node kind parts) (n.under i)
  | inGroup {d : Delimiter} {content : List Tree} {i : Nat} {t : Tree} {n : BodyNode}
      (part : content[i]? = some t) (node : NodeAt t n) : NodeAt (.group d content) (n.under i)
  | inArgument {parts trees : List Tree} {j i : Nat} {d : Delimiter} {tokens : List Token}
      {t : Tree} {n : BodyNode} (part : parts[j]? = some (.group d [.raw tokens]))
      (read : parseArguments? tokens = some trees) (argument : trees[i]? = some t)
      (node : NodeAt t n) : NodeAt (.node .invocation parts) ((n.under i).under j)
  | inStatement {parts trees : List Tree} {j i : Nat} {d : Delimiter} {tokens : List Token}
      {t : Tree} {n : BodyNode} (part : parts[j]? = some (.group d [.raw tokens]))
      (unread : parseArguments? tokens = none) (read : parseStatements? tokens = some trees)
      (statement : trees[i]? = some t) (node : NodeAt t n)
      (inner : n.place = [] → n.kind ≠ .statement) :
      NodeAt (.node .invocation parts) ((n.under i).under j)

/-- What holds of a node seen from around the trees, when `holds` says it of the trees. -/
def Among (holds : Tree → BodyNode → Prop) (trees : List Tree) (n : BodyNode) : Prop :=
  ∃ i t m, trees[i]? = some t ∧ holds t m ∧ n = m.under i

/-- The nodes of a body. -/
def NodeIn (body : List Tree) : BodyNode → Prop := Among NodeAt body

/-- The nodes that the tokens of an invocation stand for. -/
def ArgumentNode (tokens : List Token) (n : BodyNode) : Prop :=
  (∃ trees, parseArguments? tokens = some trees ∧ Among NodeAt trees n) ∨
  (parseArguments? tokens = none ∧ ∃ trees, parseStatements? tokens = some trees ∧
    Among (fun t m => NodeAt t m ∧ (m.place = [] → m.kind ≠ .statement)) trees n)

/-- The nodes of a part of an invocation. -/
def PartNode (t : Tree) (n : BodyNode) : Prop :=
  NodeAt t n ∨ ∃ d tokens, t = .group d [.raw tokens] ∧ ArgumentNode tokens n

theorem nodeAt_node_iff {kind : Kind} {parts : List Tree} {n : BodyNode}
    (measured : kind.isMeasured) (ordinary : kind ≠ .invocation) :
    NodeAt (.node kind parts) n ↔ n = ⟨[], kind, parts⟩ ∨ Among NodeAt parts n := by
  constructor
  · intro h
    cases h with
    | here _ => exact .inl rfl
    | inNode _ part node => exact .inr ⟨_, _, _, part, node, rfl⟩
    | inArgument => exact absurd rfl ordinary
    | inStatement => exact absurd rfl ordinary
  · rintro (rfl | ⟨i, t, m, part, node, rfl⟩)
    · exact .here measured
    · exact .inNode measured part node

theorem nodeAt_invocation_iff {parts : List Tree} {n : BodyNode} :
    NodeAt (.node .invocation parts) n ↔
      n = ⟨[], .invocation, parts⟩ ∨ Among PartNode parts n := by
  constructor
  · intro h
    cases h with
    | here _ => exact .inl rfl
    | inNode _ part node => exact .inr ⟨_, _, _, part, .inl node, rfl⟩
    | inArgument part read argument node =>
      exact .inr ⟨_, _, _, part,
        .inr ⟨_, _, rfl, .inl ⟨_, read, _, _, _, argument, node, rfl⟩⟩, rfl⟩
    | inStatement part unread read statement node inner =>
      exact .inr ⟨_, _, _, part,
        .inr ⟨_, _, rfl, .inr ⟨unread, _, read, _, _, _, statement, ⟨node, inner⟩, rfl⟩⟩, rfl⟩
  · rintro (rfl | ⟨j, t, m, part, node | ⟨d, tokens, rfl, argument⟩, rfl⟩)
    · exact .here rfl
    · exact .inNode rfl part node
    · rcases argument with ⟨trees, read, i, t, n, argument, node, rfl⟩ |
        ⟨unread, trees, read, i, t, n, statement, ⟨node, inner⟩, rfl⟩
      · exact .inArgument part read argument node
      · exact .inStatement part unread read statement node inner

theorem nodeAt_group_iff {d : Delimiter} {content : List Tree} {n : BodyNode} :
    NodeAt (.group d content) n ↔ Among NodeAt content n := by
  constructor
  · rintro (_ | _ | ⟨part, node⟩)
    exact ⟨_, _, _, part, node, rfl⟩
  · rintro ⟨i, t, m, part, node, rfl⟩
    exact .inGroup part node

theorem not_nodeAt_word {tokens : List Token} {n : BodyNode} : ¬ NodeAt (.word tokens) n := nofun

theorem not_nodeAt_raw {tokens : List Token} {n : BodyNode} : ¬ NodeAt (.raw tokens) n := nofun

theorem not_nodeAt_of_not_measured {kind : Kind} {parts : List Tree} {n : BodyNode}
    (unmeasured : kind.isMeasured = false) : ¬ NodeAt (.node kind parts) n := by
  intro h
  cases h with
  | here measured => simp [unmeasured] at measured
  | inNode measured => simp [unmeasured] at measured
  | inArgument => cases unmeasured
  | inStatement => cases unmeasured

theorem kind_of_nodeAt {kind : Kind} {parts : List Tree} {n : BodyNode}
    (h : NodeAt (.node kind parts) n) (top : n.place = []) : n.kind = kind := by
  cases h with
  | here => rfl
  | inNode => cases top
  | inArgument => cases top
  | inStatement => cases top

/-- The nodes of a node stand at places that begin with its own. -/
theorem NodeAt.trans {t : Tree} {m n : BodyNode} (h : NodeAt t m)
    (inner : NodeAt (.node m.kind m.parts) n) : NodeAt t { n with place := m.place ++ n.place } := by
  induction h with
  | here => exact inner
  | inNode measured part _ ih => exact .inNode measured part (ih inner)
  | inGroup part _ ih => exact .inGroup part (ih inner)
  | inArgument part read argument _ ih => exact .inArgument part read argument (ih inner)
  | inStatement part unread read statement _ notStatement ih =>
    refine .inStatement part unread read statement (ih inner) fun top => ?_
    obtain ⟨outer, top⟩ := List.append_eq_nil_iff.mp top
    rw [kind_of_nodeAt inner top]
    exact notStatement outer

/-- A measure that opening the invocations in a node leaves as it is. -/
def Steady (f : Kind → List Tree → Nat) : Prop :=
  ∀ inside kind parts, f kind ((Tree.node kind parts).openWith inside).children = f kind parts

/-- The list has the nodes of which `holds` is true, each exactly once. -/
structure Enumerates (nodes : List BodyNode) (holds : BodyNode → Prop) : Prop where
  nodup : (nodes.map BodyNode.place).Nodup
  mem_iff : ∀ n, n ∈ nodes ↔ holds n

theorem Enumerates.nodup_nodes {nodes : List BodyNode} {holds : BodyNode → Prop}
    (listed : Enumerates nodes holds) : nodes.Nodup := .of_map _ listed.nodup

/-- The sum of a measure over nodes. -/
def weigh (f : Kind → List Tree → Nat) (nodes : List BodyNode) : Nat :=
  (nodes.map fun n => f n.kind n.parts).sum

/-- The nodes of which `holds` is true can be listed, and `total` adds up over them. -/
def Measures (holds : BodyNode → Prop) (total : (Kind → List Tree → Nat) → Nat) : Prop :=
  ∃ nodes, Enumerates nodes holds ∧ ∀ f, Steady f → total f = weigh f nodes

namespace Measures

variable {holds also : BodyNode → Prop} {total more : (Kind → List Tree → Nat) → Nat}

theorem congr (h : Measures holds total) (same : ∀ n, also n ↔ holds n)
    (equal : ∀ f, Steady f → more f = total f) : Measures also more := by
  obtain ⟨nodes, listed, weighed⟩ := h
  refine ⟨nodes, ⟨listed.nodup, fun n => ?_⟩, fun f steady => ?_⟩
  · rw [listed.mem_iff, same]
  · rw [equal f steady, weighed f steady]

/-- Whatever measures the same nodes comes to the same. -/
theorem unique (first : Measures holds total) (second : Measures holds more)
    {f : Kind → List Tree → Nat} (steady : Steady f) : total f = more f := by
  obtain ⟨nodes, listed, weighed⟩ := first
  obtain ⟨others, listed', weighed'⟩ := second
  have perm : nodes.Perm others :=
    (List.perm_ext_iff_of_nodup listed.nodup_nodes listed'.nodup_nodes).mpr fun n =>
      (listed.mem_iff n).trans (listed'.mem_iff n).symm
  rw [weighed f steady, weighed' f steady]
  exact (perm.map _).sum_eq

theorem empty (absent : ∀ n, ¬ holds n) (zero : ∀ f, total f = 0) : Measures holds total :=
  ⟨[], ⟨List.nodup_nil, fun n => by simpa using absent n⟩, fun f _ => zero f⟩

theorem single (n : BodyNode) : Measures (· = n) fun f => f n.kind n.parts :=
  ⟨[n], ⟨List.nodup_singleton _, fun m => by simp⟩, fun f _ => by simp [weigh]⟩

theorem under (i : Nat) (h : Measures holds total) :
    Measures (fun n => ∃ m, holds m ∧ n = m.under i) total := by
  obtain ⟨nodes, listed, weighed⟩ := h
  refine ⟨nodes.map (BodyNode.under i), ⟨?_, fun n => ?_⟩, fun f steady => ?_⟩
  · have places : (nodes.map (BodyNode.under i)).map BodyNode.place =
        (nodes.map BodyNode.place).map (List.cons i) := by
      simp only [List.map_map]
      rfl
    rw [places]
    exact listed.nodup.map fun _ _ equal => List.tail_eq_of_cons_eq equal
  · simp only [List.mem_map, listed.mem_iff, eq_comm]
  · rw [weighed f steady, weigh, weigh, List.map_map]
    rfl

theorem append (first : Measures holds total) (second : Measures also more)
    (apart : ∀ n m, holds n → also m → n.place ≠ m.place) :
    Measures (fun n => holds n ∨ also n) fun f => total f + more f := by
  obtain ⟨nodes, listed, weighed⟩ := first
  obtain ⟨others, listed', weighed'⟩ := second
  refine ⟨nodes ++ others, ⟨?_, fun n => ?_⟩, fun f steady => ?_⟩
  · rw [List.map_append]
    apply listed.nodup.append listed'.nodup
    intro place left right
    obtain ⟨n, hn, rfl⟩ := List.mem_map.mp left
    obtain ⟨m, hm, same⟩ := List.mem_map.mp right
    exact apart n m ((listed.mem_iff n).mp hn) ((listed'.mem_iff m).mp hm) same.symm
  · rw [List.mem_append, listed.mem_iff, listed'.mem_iff]
  · simp only [weighed f steady, weighed' f steady, weigh, List.map_append, List.sum_append]

/-- A node with what is under it. -/
theorem node {kind : Kind} {parts trees : List Tree} {holds : Tree → BodyNode → Prop}
    (below : Measures (Among holds trees) total) :
    Measures (fun n => n = ⟨[], kind, parts⟩ ∨ Among holds trees n)
      fun f => f kind parts + total f := by
  apply (single ⟨[], kind, parts⟩).append below
  rintro _ _ rfl ⟨i, t, m, -, -, rfl⟩ same
  cases same

theorem among {holds : Tree → BodyNode → Prop} {total : Tree → (Kind → List Tree → Nat) → Nat}
    {trees : List Tree} (each : ∀ t ∈ trees, Measures (holds t) (total t)) :
    Measures (Among holds trees) fun f => (trees.map fun t => total t f).sum := by
  -- Places move by one when a tree is put in front, so the first index varies in the induction.
  have shifted : ∀ start, Measures
      (fun n => ∃ i t m, trees[i]? = some t ∧ holds t m ∧ n = m.under (start + i))
      fun f => (trees.map fun t => total t f).sum := by
    induction trees with
    | nil => exact fun _ => empty (by simp) fun _ => rfl
    | cons t rest ih =>
      intro start
      rw [List.forall_mem_cons] at each
      refine ((each.1.under start).append (ih each.2 (start + 1)) ?_).congr ?_ ?_
      · rintro _ _ ⟨n, -, rfl⟩ ⟨i, t, m, -, -, rfl⟩ same
        have first : start = start + 1 + i := List.head_eq_of_cons_eq same
        omega
      · intro n
        constructor
        · rintro ⟨i, t', m, part, node, rfl⟩
          cases i with
          | zero =>
            cases part
            exact .inl ⟨m, node, rfl⟩
          | succ i => exact .inr ⟨i, t', m, part, node, by rw [Nat.add_right_comm, Nat.add_assoc]⟩
        · rintro (⟨m, node, rfl⟩ | ⟨i, t', m, part, node, rfl⟩)
          · exact ⟨0, t, m, rfl, node, rfl⟩
          · exact ⟨i + 1, t', m, part, node, by rw [Nat.add_right_comm, Nat.add_assoc]⟩
      · intro f _
        rfl
  refine (shifted 0).congr (fun n => ?_) fun _ _ => rfl
  simp only [Among, Nat.zero_add]

end Measures

namespace Tree

theorem openEach_eq_map (inside : List Token → List Tree) (trees : List Tree) :
    openEach inside trees = trees.map (openWith inside) := by
  induction trees with
  | nil => rfl
  | cons t rest ih => rw [openEach, ih, List.map_cons]

theorem totalOf_eq_sum (f : Kind → List Tree → Nat) (trees : List Tree) :
    totalOf f trees = (trees.map (total f)).sum := by
  induction trees with
  | nil => rfl
  | cons t rest ih => rw [totalOf, ih, List.map_cons, List.sum_cons]

theorem totalOf_append (f : Kind → List Tree → Nat) (first second : List Tree) :
    totalOf f (first ++ second) = totalOf f first + totalOf f second := by
  simp only [totalOf_eq_sum, List.map_append, List.sum_append]

theorem totalOf_openEach_flatMap (inside : List Token → List Tree) (f : Kind → List Tree → Nat)
    (g : Tree → List Tree) (trees : List Tree) :
    totalOf f (openEach inside (trees.flatMap g)) =
      (trees.map fun t => totalOf f (openEach inside (g t))).sum := by
  induction trees with
  | nil => rfl
  | cons t rest ih =>
    rw [openEach_eq_map] at ih ⊢
    rw [List.flatMap_cons, List.map_append, totalOf_append, ih, ← openEach_eq_map,
      List.map_cons, List.sum_cons]

theorem openWith_node {kind : Kind} (ordinary : kind ≠ .invocation)
    (inside : List Token → List Tree) (parts : List Tree) :
    (node kind parts).openWith inside = node kind (openEach inside parts) := by
  cases kind <;> first | rfl | contradiction

theorem total_node {kind : Kind} (measured : kind.isMeasured) (f : Kind → List Tree → Nat)
    (parts : List Tree) : (node kind parts).total f = f kind parts + totalOf f parts := by
  cases kind <;> first | rfl | cases measured

theorem total_of_not_measured {kind : Kind} (unmeasured : kind.isMeasured = false)
    (f : Kind → List Tree → Nat) (parts : List Tree) : (node kind parts).total f = 0 := by
  cases kind <;> first | rfl | cases unmeasured

theorem size_le_of_mem {t : Tree} {trees : List Tree} (mem : t ∈ trees) :
    Token.sizeList t.tokens ≤ Token.sizeList (tokensList trees) := by
  induction trees with
  | nil => cases mem
  | cons first rest ih =>
    rw [tokensList, Token.sizeList_append]
    rcases List.mem_cons.mp mem with rfl | later
    · omega
    · have := ih later
      omega

/-- What a part of an invocation adds to a measure. -/
def partTotal (inside : List Token → List Tree) (f : Kind → List Tree → Nat) : Tree → Nat
  | group _ [raw tokens] => totalOf f (inside tokens)
  | t => (t.openWith inside).total f

theorem totalOf_openArguments (inside : List Token → List Tree) (f : Kind → List Tree → Nat)
    (parts : List Tree) :
    totalOf f (openArguments inside parts) = (parts.map (partTotal inside f)).sum := by
  induction parts with
  | nil => rfl
  | cons t rest ih =>
    rw [openArguments.eq_def]
    split
    · contradiction
    · next equal =>
      cases equal
      rw [totalOf, ih, List.map_cons, List.sum_cons]
      rfl
    · next no equal =>
      cases equal
      rw [totalOf, ih, List.map_cons, List.sum_cons, partTotal]
      exact no

section Opening

variable {inside : List Token → List Tree} {bound : Nat}

/-- Opening with an `inside` that reads the tokens of arguments as their nodes. -/
def ReadsArguments (inside : List Token → List Tree) (bound : Nat) : Prop :=
  ∀ tokens, Token.sizeList tokens < bound →
    Measures (ArgumentNode tokens) fun f => totalOf f (inside tokens)

theorem measures_part (reads : ReadsArguments inside bound) {t : Tree}
    (small : Token.sizeList t.tokens ≤ bound)
    (nodes : Measures (NodeAt t) fun f => (t.openWith inside).total f) :
    Measures (PartNode t) fun f => partTotal inside f t := by
  by_cases arguments : ∃ d tokens, t = group d [raw tokens]
  · obtain ⟨d, tokens, rfl⟩ := arguments
    simp only [Tree.tokens, tokensList, Token.sizeList, Token.size, List.append_nil] at small
    refine (reads tokens (by omega)).congr (fun n => ?_) fun f _ => rfl
    constructor
    · rintro (node | ⟨_, _, same, argument⟩)
      · obtain ⟨i, t, m, part, node, -⟩ := nodeAt_group_iff.mp node
        obtain rfl : raw tokens = t := List.mem_singleton.mp (List.mem_of_getElem? part) |>.symm
        exact absurd node not_nodeAt_raw
      · cases same
        exact argument
    · exact fun argument => .inr ⟨d, tokens, rfl, argument⟩
  · refine nodes.congr (fun n => ?_) fun f _ => ?_
    · apply or_iff_left
      rintro ⟨d, tokens, same, -⟩
      exact arguments ⟨d, tokens, same⟩
    · rw [partTotal]
      rintro d tokens rfl
      exact arguments ⟨d, tokens, rfl⟩

mutual
theorem measures_openWith (reads : ReadsArguments inside bound) (t : Tree)
    (small : Token.sizeList t.tokens ≤ bound) :
    Measures (NodeAt t) fun f => (t.openWith inside).total f := by
  match t with
  | word _ => exact .empty (fun _ => not_nodeAt_word) fun _ => rfl
  | raw _ => exact .empty (fun _ => not_nodeAt_raw) fun _ => rfl
  | group d content =>
    simp only [tokens, Token.sizeList, Token.size] at small
    have each := measures_each reads content (by omega)
    apply (Measures.among each).congr (fun _ => nodeAt_group_iff)
    intro f _
    simp only [openWith, total, totalOf_eq_sum, openEach_eq_map, List.map_map]
    rfl
  | node kind parts =>
    have each := measures_each reads parts small
    by_cases measured : kind.isMeasured
    · by_cases invocation : kind = .invocation
      · subst invocation
        have part : ∀ t ∈ parts, Measures (PartNode t) fun f => partTotal inside f t :=
          fun t mem => measures_part reads (Nat.le_trans (size_le_of_mem mem) small) (each t mem)
        apply (Measures.node (Measures.among part)).congr (fun _ => nodeAt_invocation_iff)
        intro f steady
        have same := steady inside .invocation parts
        rw [openWith] at same ⊢
        rw [total_node measured, totalOf_openArguments]
        exact congrArg (· + _) same
      · refine (Measures.node (Measures.among each)).congr
          (fun _ => nodeAt_node_iff measured invocation) fun f steady => ?_
        have same := steady inside kind parts
        rw [openWith_node invocation] at same ⊢
        rw [total_node measured, totalOf_eq_sum, openEach_eq_map, List.map_map]
        rw [openEach_eq_map] at same
        exact congrArg (· + _) same
    · rw [Bool.not_eq_true] at measured
      refine .empty (fun _ => not_nodeAt_of_not_measured measured) fun f => ?_
      have ordinary : kind ≠ .invocation := by
        rintro rfl
        cases measured
      rw [openWith_node ordinary, total_of_not_measured measured]

theorem measures_each (reads : ReadsArguments inside bound) (trees : List Tree)
    (small : Token.sizeList (tokensList trees) ≤ bound) :
    ∀ t ∈ trees, Measures (NodeAt t) fun f => (t.openWith inside).total f := by
  match trees with
  | [] => exact fun _ mem => absurd mem List.not_mem_nil
  | t :: rest =>
    rw [tokensList, Token.sizeList_append] at small
    refine List.forall_mem_cons.mpr ⟨measures_openWith reads t (by omega), ?_⟩
    exact measures_each reads rest (by omega)
end

theorem measures_openEach (reads : ReadsArguments inside bound) {trees : List Tree}
    (small : Token.sizeList (tokensList trees) ≤ bound) :
    Measures (Among NodeAt trees) fun f => totalOf f (openEach inside trees) := by
  apply (Measures.among (measures_each reads trees small)).congr (fun _ => Iff.rfl)
  intro f _
  rw [totalOf_eq_sum, openEach_eq_map, List.map_map]
  rfl

/-- A statement in an invocation has the nodes of its parts. -/
theorem measures_statementParts (reads : ReadsArguments inside bound) {t : Tree}
    (small : Token.sizeList t.tokens ≤ bound) :
    Measures (fun m => NodeAt t m ∧ (m.place = [] → m.kind ≠ .statement))
      fun f => totalOf f (openEach inside (statementParts t)) := by
  have alone (other : ∀ n, NodeAt t n → n.place = [] → n.kind ≠ .statement) :
      Measures (fun m => NodeAt t m ∧ (m.place = [] → m.kind ≠ .statement))
        fun f => totalOf f (openEach inside [t]) := by
    refine (measures_openWith reads t small).congr (fun n => ?_) fun f _ => rfl
    exact and_iff_left_of_imp (other n)
  unfold statementParts
  split
  · next parts =>
    refine (measures_openEach reads small).congr (fun n => ?_) fun f _ => rfl
    rw [nodeAt_node_iff (show Kind.statement.isMeasured from rfl) (by decide)]
    constructor
    · rintro ⟨rfl | among, inner⟩
      · exact absurd rfl (inner rfl)
      · exact among
    · rintro ⟨i, t, m, part, node, rfl⟩
      exact ⟨.inr ⟨i, t, m, part, node, rfl⟩, nofun⟩
  · exact .empty (fun _ h => not_nodeAt_of_not_measured rfl h.1) fun _ => rfl
  · next notStatement notItem =>
    apply alone
    intro n node top statement
    cases node with
    | here =>
      cases statement
      exact notStatement _ rfl
    | inNode => cases top
    | inGroup => cases top
    | inArgument => cases top
    | inStatement => cases top

theorem readsArguments_argumentsOpened (depth : Nat) :
    ReadsArguments (argumentsOpened depth) depth := by
  induction depth with
  | zero => exact fun _ small => absurd small (Nat.not_lt_zero _)
  | succ depth ih =>
    intro tokens small
    have within {trees : List Tree} (kept : tokensList trees = tokens) :
        Token.sizeList (tokensList trees) ≤ depth := by
      rw [kept]
      omega
    simp only [argumentsOpened, argumentTrees]
    cases arguments : parseArguments? tokens with
    | some trees =>
      refine (measures_openEach ih (within (Grammar.tokensList_of_parse? arguments))).congr
        (fun n => ?_) fun _ _ => rfl
      simp [ArgumentNode, arguments]
    | none =>
      cases statements : parseStatements? tokens with
      | some trees =>
        have size := within (Grammar.tokensList_of_parse? statements)
        have each t (mem : t ∈ trees) := measures_statementParts ih
          (Nat.le_trans (size_le_of_mem mem) size)
        refine (Measures.among each).congr (fun n => ?_) fun f _ => ?_
        · simp [ArgumentNode, arguments, statements]
        · exact totalOf_openEach_flatMap _ f _ trees
      | none => exact .empty (fun n => by simp [ArgumentNode, arguments, statements]) fun _ => rfl

/-- The bound on the depth of opening is high enough. -/
theorem measures_opened (trees : List Tree) :
    Measures (NodeIn trees) fun f => totalOf f (opened trees) :=
  measures_openEach (readsArguments_argumentsOpened _) (Nat.le_refl _)

end Opening

end Tree

end CallStudy.Source
