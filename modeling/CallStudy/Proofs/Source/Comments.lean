import CallStudy.Source.Metrics
import CallStudy.Proofs.Feature.Calls
import CallStudy.Proofs.Source.Collected

/-!
Trees without the comments that document them. A comment is read as an attribute, so it stands in
front of what it documents or at the start of its braces. Comments at other places stay in the tree;
`Kind.commentPlace` says which these are.
-/

set_option autoImplicit false

namespace CallStudy.Source

/-- Where the comments of a node are taken out. -/
inductive CommentPlace where
  | nowhere
  /-- In the brackets at its end. -/
  | brackets
  /-- In front of its parts and in the brackets at its end. -/
  | members
  /-- In front of its parts and inside of them. -/
  | front

/-- Comments are taken out at the start of a node and of its brackets: those of items, members,
parameters, statements, arms and fields of a pattern or of a structure that is built. Those behind
another part of the node stay: in front of an operand behind its operator or keyword, of every
argument or element but the first, of a parameter of a closure, of a field or variant that an item
declares. So do all in generics, conditions, paths, return types, in the types that implementations
are for and in the arguments of invocations. -/
def Kind.commentPlace : Kind → CommentPlace
  | .outerAttribute | .innerAttribute | .name | .path | .qualifiedPath | .pathExpr | .generics
  | .capturedParameters | .genericArguments | .bounds | .whereClause | .returnType | .invocation
  | .tupleIndices | .asWritten | .unprinted => .nowhere
  | .block | .parameters => .brackets
  | .implItem => .members
  | _ => .front

namespace Tree

/-- What the brackets of a comment hold once it is read. -/
def docBrackets (text : String) : Tree :=
  group .bracket [node .path [node .segment [word [.ident "doc"]]], word [.punct '=' false],
    node .literal [word [.literal text]]]

def isDocBrackets : Tree → Bool
  | group .bracket [node .path [node .segment [word [.ident name]]], word [.punct '=' false],
      node .literal [word [.literal _]]] => name = "doc"
  | _ => false

/-- Whether a tree is what a comment is read as. -/
def isDocComment : Tree → Bool
  | node .outerAttribute [word [.punct '#' false], brackets] => isDocBrackets brackets
  | node .innerAttribute [word [.punct '#' false], word [.punct '!' false], brackets] =>
    isDocBrackets brackets
  | _ => false

/-- Whether the first tree behind attributes is a word. -/
def isHeaded (parts : List Tree) : Bool :=
  match parts.find? (! Attribute.isAttribute ·) with
  | some (word _) => true
  | _ => false

/-- Parts without the comments in front of a word. -/
def dropComments : List Tree → List Tree
  | [] => []
  | t :: rest =>
    if t.isDocComment ∧ isHeaded rest then dropComments rest else t :: dropComments rest

/-- The comments in front of a word. -/
def headComments : List Tree → List Tree
  | [] => []
  | t :: rest =>
    if t.isDocComment ∧ isHeaded rest then t :: headComments rest else headComments rest

mutual
/-- The tree without its comments. -/
def bare : Tree → Tree
  | node kind parts =>
    node kind <| match kind.commentPlace with
      | .nowhere => parts
      | .brackets => bareLast parts
      | .members => dropComments (bareLast parts)
      | .front => bareFront parts
  | group d content => group d (bareFront content)
  | t => t

/-- Parts without the comments among the attributes in front. -/
def bareFront : List Tree → List Tree
  | [] => []
  | t :: rest =>
    if t.isDocComment then bareFront rest
    else if Attribute.isAttribute t then t :: bareFront rest
    else t.bare :: bareEach rest

def bareEach : List Tree → List Tree
  | [] => []
  | t :: rest => t.bare :: bareEach rest

def bareLast : List Tree → List Tree
  | [] => []
  | [t] =>
    match t with
    | group d content => [group d (bareFront content)]
    | t => [t]
  | t :: next :: rest => t :: bareLast (next :: rest)
end

mutual
/-- The comments that are taken out of a tree. -/
def comments : Tree → List Tree
  | node kind parts =>
    match kind.commentPlace with
    | .nowhere => []
    | .brackets => commentsLast parts
    | .members => headComments (bareLast parts) ++ commentsLast parts
    | .front => commentsFront parts
  | group _ content => commentsFront content
  | _ => []

def commentsFront : List Tree → List Tree
  | [] => []
  | t :: rest =>
    if t.isDocComment then t :: commentsFront rest
    else if Attribute.isAttribute t then commentsFront rest
    else t.comments ++ commentsEach rest

def commentsEach : List Tree → List Tree
  | [] => []
  | t :: rest => t.comments ++ commentsEach rest

def commentsLast : List Tree → List Tree
  | [] => []
  | [t] =>
    match t with
    | group _ content => commentsFront content
    | _ => []
  | _ :: next :: rest => commentsLast (next :: rest)
end

theorem isDocBrackets_iff {t : Tree} : t.isDocBrackets ↔ ∃ text, t = docBrackets text := by
  constructor
  · intro h
    unfold isDocBrackets at h
    split at h
    · next name text =>
      obtain rfl := of_decide_eq_true h
      exact ⟨text, rfl⟩
    · cases h
  · rintro ⟨text, rfl⟩
    rfl

theorem isDocComment_iff {t : Tree} : t.isDocComment ↔ ∃ text,
    t = node .outerAttribute [word [.punct '#' false], docBrackets text] ∨
      t = node .innerAttribute [word [.punct '#' false], word [.punct '!' false],
        docBrackets text] := by
  constructor
  · intro h
    unfold isDocComment at h
    split at h
    · obtain ⟨text, rfl⟩ := isDocBrackets_iff.mp h
      exact ⟨text, .inl rfl⟩
    · obtain ⟨text, rfl⟩ := isDocBrackets_iff.mp h
      exact ⟨text, .inr rfl⟩
    · cases h
  · rintro ⟨text, rfl | rfl⟩ <;> rfl

theorem isAttribute_of_isDocComment {t : Tree} (h : t.isDocComment) : Attribute.isAttribute t := by
  obtain ⟨text, rfl | rfl⟩ := isDocComment_iff.mp h <;> rfl

theorem isNamed_of_isDocComment {t : Tree} (h : t.isDocComment) : Attribute.isNamed "doc" t := by
  obtain ⟨text, rfl | rfl⟩ := isDocComment_iff.mp h <;> rfl

/-- A comment is six words, and seven inside of what it documents. -/
theorem printedCount_of_isDocComment {t : Tree} (h : t.isDocComment) :
    t.printedCount = 6 ∨ t.printedCount = 7 := by
  obtain ⟨text, rfl | rfl⟩ := isDocComment_iff.mp h
  · exact .inl rfl
  · exact .inr rfl

/-! What stays of a tree. -/

theorem bare_node (kind : Kind) (parts : List Tree) :
    ∃ parts', (node kind parts).bare = node kind parts' := ⟨_, rfl⟩

theorem bare_of_nowhere {kind : Kind} (nowhere : kind.commentPlace = .nowhere)
    (parts : List Tree) : (node kind parts).bare = node kind parts := by
  rw [bare, nowhere]

theorem bare_of_isAttribute {t : Tree} (h : Attribute.isAttribute t) : t.bare = t := by
  cases t with
  | node kind parts =>
    obtain outer | inner := Bool.or_eq_true_iff.mp h
    · obtain rfl := eq_of_beq outer
      rfl
    · obtain rfl := eq_of_beq inner
      rfl
  | _ => cases h

@[simp] theorem isNode_bare (kind : Kind) (t : Tree) : t.bare.isNode kind = t.isNode kind := by
  cases t <;> simp only [bare, isNode]

@[simp] theorem isAttribute_bare (t : Tree) :
    Attribute.isAttribute t.bare = Attribute.isAttribute t := by
  simp only [Attribute.isAttribute, isNode_bare]

@[simp] theorem wordText?_bare (t : Tree) : t.bare.wordText? = t.wordText? := by
  cases t <;> simp only [bare] <;> rfl

theorem bareEach_eq_map (trees : List Tree) : bareEach trees = trees.map bare := by
  induction trees with
  | nil => rfl
  | cons t rest ih => rw [bareEach, ih, List.map_cons]

/-- Parts are attributes with other trees behind them, and comments are taken out of the former. -/
theorem exists_bareFront_eq (parts : List Tree) : ∃ attributes rest,
    parts = attributes ++ rest ∧ (∀ a ∈ attributes, Attribute.isAttribute a) ∧
      bareFront parts = attributes.filter (! isDocComment ·) ++ rest.map bare := by
  induction parts with
  | nil => exact ⟨[], [], rfl, nofun, rfl⟩
  | cons t rest ih =>
    obtain ⟨attributes, others, rfl, each, same⟩ := ih
    rw [bareFront]
    by_cases outer : Attribute.isAttribute t
    · refine ⟨t :: attributes, others, rfl, List.forall_mem_cons.mpr ⟨outer, each⟩, ?_⟩
      by_cases comment : t.isDocComment
      · rw [if_pos comment, same, List.filter_cons_of_neg (by simpa using comment)]
      · rw [if_neg comment, if_pos outer, same,
          List.filter_cons_of_pos (by simpa using comment)]
        rfl
    · have comment : ¬ t.isDocComment := fun comment =>
        outer (isAttribute_of_isDocComment comment)
      refine ⟨[], t :: (attributes ++ others), rfl, nofun, ?_⟩
      rw [if_neg comment, if_neg outer, bareEach_eq_map]
      rfl

/-- Parts of a kind other than attributes are found where they were. -/
theorem findNode?_bareFront {kind : Kind} (outer : kind ≠ .outerAttribute)
    (inner : kind ≠ .innerAttribute) (parts : List Tree) :
    findNode? kind (bareFront parts) = (findNode? kind parts).map bare := by
  obtain ⟨attributes, rest, rfl, each, same⟩ := exists_bareFront_eq parts
  have absent (a : Tree) (attr : Attribute.isAttribute a) : ¬ a.isNode kind := by
    intro found
    obtain ⟨_, rfl⟩ := exists_eq_node_of_isNode found
    simp only [Attribute.isAttribute, isNode, Bool.or_eq_true, beq_iff_eq] at attr
    exact attr.elim outer inner
  have front : findNode? kind attributes = none :=
    List.find?_eq_none.mpr fun a mem => absent a (each a mem)
  have kept : findNode? kind (attributes.filter (! isDocComment ·)) = none :=
    List.find?_eq_none.mpr fun a mem => absent a (each a (List.mem_filter.mp mem).1)
  rw [findNode?] at front kept ⊢
  rw [same, findNode?, List.find?_append, List.find?_append, front, kept, Option.none_or,
    Option.none_or, List.find?_map]
  simp only [Function.comp_def, isNode_bare]

/-! Measures in which comments have no part. -/

/-- A measure that taking out the comments of a node leaves as it is. -/
structure IgnoresComments (f : Kind → List Tree → Nat) : Prop where
  node : ∀ kind parts, f kind (node kind parts).bare.children = f kind parts
  comment : ∀ t : Tree, t.isDocComment → t.total f = 0

theorem exists_eq_of_isAttribute {a : Tree} (h : Attribute.isAttribute a) :
    ∃ parts, a = node .outerAttribute parts ∨ a = node .innerAttribute parts := by
  obtain outer | inner := Bool.or_eq_true_iff.mp h
  · obtain ⟨parts, rfl⟩ := exists_eq_node_of_isNode outer
    exact ⟨parts, .inl rfl⟩
  · obtain ⟨parts, rfl⟩ := exists_eq_node_of_isNode inner
    exact ⟨parts, .inr rfl⟩

/-- A view of parts in which attributes in front have no part, and what becomes of it without the
comments further inside. -/
theorem map_view_bareFront {β : Type} (view : List Tree → β) (b : β → β)
    (front : ∀ a rest, Attribute.isAttribute a → view (a :: rest) = view rest)
    (inside : ∀ rest, view (rest.map bare) = b (view rest)) (parts : List Tree) :
    view (bareFront parts) = b (view parts) := by
  have fronts (attributes rest : List Tree) (each : ∀ a ∈ attributes, Attribute.isAttribute a) :
      view (attributes ++ rest) = view rest := by
    induction attributes with
    | nil => rfl
    | cons a others ih =>
      obtain ⟨first, later⟩ := List.forall_mem_cons.mp each
      rw [List.cons_append, front a _ first, ih later]
  obtain ⟨attributes, rest, rfl, each, same⟩ := exists_bareFront_eq parts
  rw [same, fronts attributes rest each, ← inside rest]
  exact fronts _ _ fun a mem => each a (List.mem_filter.mp mem).1

/-- A view of parts that neither attributes in front nor comments inside of them change. -/
theorem view_bareFront {β : Type} (view : List Tree → β)
    (front : ∀ a rest, Attribute.isAttribute a → view (a :: rest) = view rest)
    (inside : ∀ rest, view (rest.map bare) = view rest) (parts : List Tree) :
    view (bareFront parts) = view parts :=
  map_view_bareFront view id front inside parts

section View

variable {β : Type} {g : Tree → Option β} (attributes : ∀ a, Attribute.isAttribute a → g a = none)
  (bared : ∀ t, g t.bare = g t)

include attributes bared

theorem last_bareFront (parts : List Tree) :
    (bareFront parts).getLast?.bind g = parts.getLast?.bind g := by
  refine view_bareFront (fun parts => parts.getLast?.bind g) (fun a rest attr => ?_)
    (fun rest => ?_) parts
  · cases rest with
    | nil => exact attributes a attr
    | cons t rest => rw [List.getLast?_cons_cons]
  · exact last_map bared rest

theorem beforeLast_bareFront (parts : List Tree) :
    (bareFront parts).dropLast.getLast?.bind g = parts.dropLast.getLast?.bind g := by
  refine view_bareFront (fun parts => parts.dropLast.getLast?.bind g) (fun a rest attr => ?_)
    (fun rest => ?_) parts
  · match rest with
    | [] => rfl
    | [_] => exact attributes a attr
    | _ :: _ :: _ => rw [List.dropLast_cons_cons, List.dropLast_cons_cons, List.getLast?_cons_cons]
  · exact beforeLast_map bared rest

end View

theorem length_filter_bareFront {kind : Kind} (outer : kind ≠ .outerAttribute)
    (inner : kind ≠ .innerAttribute) (parts : List Tree) :
    ((bareFront parts).filter (isNode kind)).length = (parts.filter (isNode kind)).length := by
  refine view_bareFront (fun parts => (parts.filter (isNode kind)).length) (fun a rest attr => ?_)
    (fun rest => ?_) parts
  · have absent : ¬ a.isNode kind := by
      obtain ⟨_, rfl | rfl⟩ := exists_eq_of_isAttribute attr
      · exact fun found => outer (eq_of_beq found).symm
      · exact fun found => inner (eq_of_beq found).symm
    rw [List.filter_cons_of_neg absent]
  · simp only [List.filter_map, List.length_map, Function.comp_def, isNode_bare]

theorem length_arms_bareFront (parts : List Tree) :
    (arms (bareFront parts)).length = (arms parts).length := by
  rw [length_arms_eq, length_arms_eq, last_bareFront (g := armCount?)]
  · intro a attr
    obtain ⟨_, rfl | rfl⟩ := exists_eq_of_isAttribute attr <;> rfl
  · intro t
    cases t with
    | group d content =>
      exact congrArg some (length_filter_bareFront (by decide) (by decide) content)
    | _ => rfl

theorem ignoresComments_branches : IgnoresComments branches where
  node kind parts := by
    cases kind with
    | matchExpr => exact congrArg (· - 1) (length_arms_bareFront parts)
    | _ => rfl
  comment t h := by obtain ⟨text, rfl | rfl⟩ := isDocComment_iff.mp h <;> rfl

theorem isBlockStatement_bareFront (parts : List Tree) :
    isBlockStatement (bareFront parts) = isBlockStatement parts := by
  have attributes (a : Tree) (attr : Attribute.isAttribute a) : blockOrWord? a = none := by
    obtain ⟨_, rfl | rfl⟩ := exists_eq_of_isAttribute attr <;> rfl
  have bared (t : Tree) : blockOrWord? t.bare = blockOrWord? t := by
    cases t with
    | node kind _ => cases kind <;> rfl
    | _ => rfl
  rw [isBlockStatement_eq, isBlockStatement_eq, last_bareFront attributes bared,
    beforeLast_bareFront attributes bared]

theorem ignoresComments_statementCount : IgnoresComments statementCount where
  node kind parts := by
    cases kind with
    | statement =>
      change statementCount .statement (bareFront parts) = _
      rw [statementCount, statementCount, isBlockStatement_bareFront]
    | _ => rfl
  comment t h := by obtain ⟨text, rfl | rfl⟩ := isDocComment_iff.mp h <;> rfl

theorem nameOf_bareFront (parts : List Tree) : nameOf (bareFront parts) = nameOf parts := by
  rw [nameOf, nameOf, findNode?_bareFront (by decide) (by decide)]
  cases h : findNode? .name parts with
  | none => rfl
  | some t =>
    obtain ⟨content, rfl⟩ := exists_eq_node_of_isNode (List.find?_some h)
    rw [Option.map_some, bare_of_nowhere rfl]

theorem calledName?_bareFront (parts : List Tree) :
    calledName? .call (bareFront parts) = calledName? .call parts := by
  rw [calledName?_call_eq, calledName?_call_eq, beforeLast_bareFront]
  · intro a attr
    obtain ⟨_, rfl | rfl⟩ := exists_eq_of_isAttribute attr <;> rfl
  · intro t
    cases t with
    | node kind _ => cases kind <;> rfl
    | _ => rfl

theorem ignoresComments_callCount (name : String) : IgnoresComments (callCount name) where
  node kind parts := by
    cases kind with
    | call =>
      change callCount name .call (bareFront parts) = _
      rw [callCount, callCount, calledName?_bareFront]
    | methodCall =>
      change callCount name .methodCall (bareFront parts) = _
      rw [callCount, callCount, calledName?, calledName?, nameOf_bareFront]
    | _ => rfl
  comment t h := by obtain ⟨text, rfl | rfl⟩ := isDocComment_iff.mp h <;> rfl

/-! Weights of trees. -/

def weightOf (m : Tree → Nat) (trees : List Tree) : Nat := (trees.map m).sum

@[simp] theorem weightOf_nil (m : Tree → Nat) : weightOf m [] = 0 := rfl

@[simp] theorem weightOf_cons (m : Tree → Nat) (t : Tree) (rest : List Tree) :
    weightOf m (t :: rest) = m t + weightOf m rest := by
  rw [weightOf, List.map_cons, List.sum_cons]
  rfl

@[simp] theorem weightOf_append (m : Tree → Nat) (first second : List Tree) :
    weightOf m (first ++ second) = weightOf m first + weightOf m second := by
  simp only [weightOf, List.map_append, List.sum_append]

/-- A tree loses no more of its weight than its parts do. -/
structure Weighs (m : Tree → Nat) : Prop where
  ofGroup : ∀ d content, weightOf m content =
      weightOf m (bareFront content) + weightOf m (commentsFront content) →
    m (group d content) = m (group d content).bare + weightOf m (group d content).comments
  ofNode : ∀ kind parts, kind.commentPlace ≠ .nowhere → weightOf m parts =
      weightOf m (node kind parts).bare.children + weightOf m (node kind parts).comments →
    m (node kind parts) = m (node kind parts).bare + weightOf m (node kind parts).comments

section Weighs

variable {m : Tree → Nat}

theorem weightOf_dropComments (parts : List Tree) :
    weightOf m parts = weightOf m (dropComments parts) + weightOf m (headComments parts) := by
  induction parts with
  | nil => rfl
  | cons t rest ih =>
    rw [dropComments, headComments]
    split <;> rw [weightOf_cons, weightOf_cons] <;> omega

mutual
/-- What is taken out of a tree is all that its weight loses. -/
theorem weight_bare (weighs : Weighs m) (t : Tree) : m t = m t.bare + weightOf m t.comments := by
  match t with
  | word _ => rfl
  | raw _ => rfl
  | group d content => exact weighs.ofGroup d content (weightOf_bareFront weighs content)
  | node kind parts =>
    cases place : kind.commentPlace with
    | nowhere =>
      rw [bare_of_nowhere place, comments, place]
      rfl
    | brackets =>
      refine weighs.ofNode kind parts (by simp [place]) ?_
      rw [bare, comments, place]
      exact weightOf_bareLast weighs parts
    | members =>
      refine weighs.ofNode kind parts (by simp [place]) ?_
      have head : weightOf m (bareLast parts) = _ := weightOf_dropComments (bareLast parts)
      have last := weightOf_bareLast weighs parts
      rw [bare, comments, place, weightOf_append]
      dsimp only [children]
      omega
    | front =>
      refine weighs.ofNode kind parts (by simp [place]) ?_
      rw [bare, comments, place]
      exact weightOf_bareFront weighs parts

theorem weightOf_bareEach (weighs : Weighs m) (parts : List Tree) :
    weightOf m parts = weightOf m (bareEach parts) + weightOf m (commentsEach parts) := by
  match parts with
  | [] => rfl
  | t :: rest =>
    have first := weight_bare weighs t
    have others := weightOf_bareEach weighs rest
    simp only [bareEach, commentsEach, weightOf_cons, weightOf_append]
    omega

theorem weightOf_bareFront (weighs : Weighs m) (parts : List Tree) :
    weightOf m parts = weightOf m (bareFront parts) + weightOf m (commentsFront parts) := by
  match parts with
  | [] => rfl
  | t :: rest =>
    have first := weight_bare weighs t
    have others := weightOf_bareEach weighs rest
    have front := weightOf_bareFront weighs rest
    rw [bareFront, commentsFront]
    split
    · rw [weightOf_cons, weightOf_cons]
      omega
    split
    · rw [weightOf_cons, weightOf_cons]
      omega
    · rw [weightOf_cons, weightOf_cons, weightOf_append]
      omega

theorem weightOf_bareLast (weighs : Weighs m) (parts : List Tree) :
    weightOf m parts = weightOf m (bareLast parts) + weightOf m (commentsLast parts) := by
  match parts with
  | [] => rfl
  | [t] =>
    cases t with
    | group d content =>
      have inner := weighs.ofGroup d content (weightOf_bareFront weighs content)
      rw [bare, comments] at inner
      rw [bareLast, commentsLast, weightOf_cons, weightOf_cons, weightOf_nil]
      omega
    | _ => rfl
  | t :: next :: rest =>
    have others := weightOf_bareLast weighs (next :: rest)
    rw [bareLast, commentsLast, weightOf_cons m t, weightOf_cons m t]
    omega
end

theorem isDocComment_of_mem_headComments {c : Tree} {parts : List Tree}
    (mem : c ∈ headComments parts) : c.isDocComment := by
  induction parts with
  | nil => cases mem
  | cons t rest ih =>
    rw [headComments] at mem
    split at mem
    · next comment =>
      obtain rfl | later := List.mem_cons.mp mem
      · exact comment.1
      · exact ih later
    · exact ih mem

mutual
theorem isDocComment_of_mem_comments {c : Tree} (t : Tree) (mem : c ∈ t.comments) :
    c.isDocComment := by
  match t with
  | word _ => cases mem
  | raw _ => cases mem
  | group d content => exact isDocComment_of_mem_commentsFront content mem
  | node kind parts =>
    rw [comments] at mem
    split at mem
    · cases mem
    · exact isDocComment_of_mem_commentsLast parts mem
    · obtain head | inner := List.mem_append.mp mem
      · exact isDocComment_of_mem_headComments head
      · exact isDocComment_of_mem_commentsLast parts inner
    · exact isDocComment_of_mem_commentsFront parts mem

theorem isDocComment_of_mem_commentsEach {c : Tree} (parts : List Tree)
    (mem : c ∈ commentsEach parts) : c.isDocComment := by
  match parts with
  | [] => cases mem
  | t :: rest =>
    obtain first | later := List.mem_append.mp mem
    · exact isDocComment_of_mem_comments t first
    · exact isDocComment_of_mem_commentsEach rest later

theorem isDocComment_of_mem_commentsFront {c : Tree} (parts : List Tree)
    (mem : c ∈ commentsFront parts) : c.isDocComment := by
  match parts with
  | [] => cases mem
  | t :: rest =>
    rw [commentsFront] at mem
    split at mem
    · next comment =>
      obtain rfl | later := List.mem_cons.mp mem
      · exact comment
      · exact isDocComment_of_mem_commentsFront rest later
    split at mem
    · exact isDocComment_of_mem_commentsFront rest mem
    · obtain first | later := List.mem_append.mp mem
      · exact isDocComment_of_mem_comments t first
      · exact isDocComment_of_mem_commentsEach rest later

theorem isDocComment_of_mem_commentsLast {c : Tree} (parts : List Tree)
    (mem : c ∈ commentsLast parts) : c.isDocComment := by
  match parts with
  | [] => cases mem
  | [t] =>
    cases t with
    | group d content => exact isDocComment_of_mem_commentsFront content mem
    | _ => cases mem
  | _ :: next :: rest => exact isDocComment_of_mem_commentsLast (next :: rest) mem
end

theorem weightOf_comments_eq_zero (weightless : ∀ c : Tree, c.isDocComment → m c = 0)
    {comments : List Tree} (each : ∀ c ∈ comments, c.isDocComment) : weightOf m comments = 0 := by
  refine List.sum_eq_zero fun n mem => ?_
  obtain ⟨c, found, rfl⟩ := List.mem_map.mp mem
  exact weightless c (each c found)

end Weighs

theorem ordinary_of_commentPlace {kind : Kind} (elsewhere : kind.commentPlace ≠ .nowhere) :
    kind ≠ .invocation ∧ kind ≠ .asWritten := by
  constructor <;> rintro rfl <;> exact elsewhere rfl

/-! The identifiers that are bound. -/

theorem bindings_node {kind : Kind} (invocation : kind ≠ .invocation) (written : kind ≠ .asWritten)
    (parts : List Tree) : (node kind parts).bindings =
      (if kind = .identPattern then 1 else 0) + bindingsOf parts := by
  cases kind <;> first | rfl | contradiction

theorem bindingsOf_eq (trees : List Tree) : bindingsOf trees = weightOf bindings trees := by
  induction trees with
  | nil => rfl
  | cons t rest ih => rw [bindingsOf, ih, weightOf_cons]

theorem weighs_bindings : Weighs bindings where
  ofGroup d content same := by
    rw [bare, comments, bindings, bindings, bindingsOf_eq, bindingsOf_eq, same]
  ofNode kind parts elsewhere same := by
    obtain ⟨invocation, written⟩ := ordinary_of_commentPlace elsewhere
    rw [bare, bindings_node invocation written, bindings_node invocation written, bindingsOf_eq,
      bindingsOf_eq, same, Nat.add_assoc]
    rfl

theorem bindings_comment (c : Tree) (h : c.isDocComment) : c.bindings = 0 := by
  obtain ⟨text, rfl | rfl⟩ := isDocComment_iff.mp h <;> rfl

theorem bindings_bare (t : Tree) : t.bare.bindings = t.bindings := by
  rw [weight_bare weighs_bindings t, weightOf_comments_eq_zero bindings_comment fun _ =>
    isDocComment_of_mem_comments t, Nat.add_zero]

mutual
theorem bindings_openWith (inside : List Token → List Tree) (t : Tree) :
    (t.openWith inside).bindings = t.bindings := by
  match t with
  | word _ => rfl
  | raw _ => rfl
  | group d content =>
    rw [openWith, bindings, bindings, bindingsOf_openEach inside content]
  | node kind parts =>
    by_cases invocation : kind = .invocation
    · subst invocation
      rfl
    · rw [openWith_node invocation]
      by_cases written : kind = .asWritten
      · subst written
        rfl
      · rw [bindings_node invocation written, bindings_node invocation written,
          bindingsOf_openEach inside parts]

theorem bindingsOf_openEach (inside : List Token → List Tree) (trees : List Tree) :
    bindingsOf (openEach inside trees) = bindingsOf trees := by
  match trees with
  | [] => rfl
  | t :: rest =>
    rw [openEach, bindingsOf, bindingsOf, bindings_openWith inside t,
      bindingsOf_openEach inside rest]
end

theorem after_map {g : Tree → Tree} (words : ∀ t, (g t).wordText? = t.wordText?) (text : String)
    (parts : List Tree) : after text (parts.map g) = (after text parts).map g := by
  match parts with
  | [] => rfl
  | [_] => rfl
  | t :: next :: rest =>
    have later := after_map words text (next :: rest)
    rw [List.map_cons] at later
    rw [List.map_cons, List.map_cons, after, after, words, later]
    split <;> rfl

/-- What a `let` or a `for` binds, when trees are changed but not what they bind. -/
theorem bound_map {g : Tree → Tree} (words : ∀ t, (g t).wordText? = t.wordText?)
    (same : ∀ t, (g t).bindings = t.bindings) (text : String) (parts : List Tree) :
    (after text (parts.map g)).map bindings = (after text parts).map bindings := by
  rw [after_map words, Option.map_map]
  exact congrArg (Option.map · _) (funext same)

theorem steady_localCount : Steady localCount := by
  intro inside kind parts
  have opened := bound_map (wordText?_openWith inside) (bindings_openWith inside)
  cases kind with
  | localVariable =>
    rw [openWith_node (by decide), openEach_eq_map]
    exact congrArg (·.getD 0) (opened "let" parts)
  | forExpr =>
    rw [openWith_node (by decide), openEach_eq_map]
    exact congrArg (·.getD 0) (opened "for" parts)
  | _ => rfl

theorem bound_bareFront (text : String) (parts : List Tree) :
    (after text (bareFront parts)).map bindings = (after text parts).map bindings := by
  refine view_bareFront (fun parts => (after text parts).map bindings) (fun a rest attr => ?_)
    (bound_map wordText?_bare bindings_bare text) parts
  obtain ⟨_, rfl | rfl⟩ := exists_eq_of_isAttribute attr <;> cases rest <;> rfl

theorem ignoresComments_localCount : IgnoresComments localCount where
  node kind parts := by
    cases kind with
    | localVariable => exact congrArg (·.getD 0) (bound_bareFront "let" parts)
    | forExpr => exact congrArg (·.getD 0) (bound_bareFront "for" parts)
    | _ => rfl
  comment t h := by obtain ⟨text, rfl | rfl⟩ := isDocComment_iff.mp h <;> rfl

/-! Totals over nodes. -/

section Total

variable {f : Kind → List Tree → Nat} (inside : List Token → List Tree)

/-- What is measured of a tree whose invocations are opened. -/
def openedTotal (f : Kind → List Tree → Nat) (t : Tree) : Nat := (t.openWith inside).total f

theorem totalOf_openEach (trees : List Tree) :
    totalOf f (openEach inside trees) = weightOf (openedTotal inside f) trees := by
  rw [totalOf_eq_sum, openEach_eq_map, List.map_map]
  rfl

theorem IgnoresComments.openedTotal_eq_zero (ignores : IgnoresComments f) (c : Tree)
    (h : c.isDocComment) : openedTotal inside f c = 0 := by
  have same : c.openWith inside = c := by
    obtain ⟨text, rfl | rfl⟩ := isDocComment_iff.mp h <;> rfl
  rw [openedTotal, same, ignores.comment c h]

theorem weighs_openedTotal (steady : Steady f) (ignores : IgnoresComments f) :
    Weighs (openedTotal inside f) where
  ofGroup d content same := by
    rw [bare, comments, openedTotal, openedTotal, openWith, openWith, total, total,
      totalOf_openEach, totalOf_openEach, same]
  ofNode kind parts elsewhere same := by
    have ordinary := (ordinary_of_commentPlace elsewhere).1
    have nothing : weightOf (openedTotal inside f) (node kind parts).comments = 0 :=
      weightOf_comments_eq_zero (ignores.openedTotal_eq_zero inside) fun _ =>
        isDocComment_of_mem_comments _
    have own := ignores.node kind parts
    have first := steady inside kind parts
    obtain ⟨parts', bared⟩ := bare_node kind parts
    have second := steady inside kind parts'
    rw [bared] at own same ⊢
    rw [openWith_node ordinary, children] at first second
    rw [nothing, Nat.add_zero] at same ⊢
    rw [openedTotal, openedTotal, openWith_node ordinary, openWith_node ordinary]
    by_cases measured : kind.isMeasured
    · rw [total_node measured, total_node measured, first, second, totalOf_openEach,
        totalOf_openEach, same]
      exact congrArg (· + _) own.symm
    · rw [Bool.not_eq_true] at measured
      rw [total_of_not_measured measured, total_of_not_measured measured]

end Total

/-! The tokens that trees were built from. -/

theorem sizeList_tokensList (trees : List Tree) :
    Token.sizeList (tokensList trees) = weightOf (fun t => Token.sizeList t.tokens) trees := by
  induction trees with
  | nil => rfl
  | cons t rest ih => rw [tokensList, Token.sizeList_append, ih, weightOf_cons]

theorem weighs_size : Weighs fun t => Token.sizeList t.tokens where
  ofGroup d content same := by
    rw [bare, comments]
    simp only [tokens, Token.sizeList, Token.size, sizeList_tokensList, same]
    omega
  ofNode kind parts _ same := by
    rw [bare] at same ⊢
    rw [tokens, tokens, sizeList_tokensList, sizeList_tokensList, same]
    rfl

/-- Opening that is deep enough for all trees is deep enough for some of them. -/
theorem totalOf_opened_of_le {f : Kind → List Tree → Nat} (steady : Steady f) {trees : List Tree}
    {depth : Nat} (enough : Token.sizeList (tokensList trees) ≤ depth) :
    totalOf f (openEach (argumentsOpened depth) trees) = totalOf f (opened trees) :=
  (measures_openEach (readsArguments_argumentsOpened depth) enough).unique (measures_opened trees)
    steady

/-! The words that are printed. -/

theorem flatMap_printedEach (trees : List Tree) :
    (printedEach trees).flatMap (·.2) = trees.flatMap printed := by
  induction trees with
  | nil => rfl
  | cons t rest ih => rw [printedEach, List.flatMap_cons, List.flatMap_cons, ih]

theorem countList_flatMap_printed (trees : List Tree) :
    Piece.countList (trees.flatMap printed) = weightOf printedCount trees := by
  induction trees with
  | nil => rfl
  | cons t rest ih =>
    rw [List.flatMap_cons, Piece.countList_append, ih, weightOf_cons]
    rfl

/-- Parts are printed one after the other, with two words put in where a parameter has no name. -/
theorem printedCount_node {kind : Kind} (elsewhere : kind.commentPlace ≠ .nowhere)
    (parts : List Tree) : (node kind parts).printedCount =
      weightOf printedCount parts + if kind = .typeOnlyParameter then 2 else 0 := by
  have all : Piece.countList ((printedEach parts).flatMap (·.2)) = weightOf printedCount parts := by
    rw [flatMap_printedEach, countList_flatMap_printed]
  rw [printedCount, printed]
  by_cases unnamed : kind = .typeOnlyParameter
  · subst unnamed
    have split : (printedEach parts).dropLast ++ (printedEach parts).getLast?.toList =
        printedEach parts := by
      obtain none | ⟨front, t, last⟩ := List.eq_nil_or_concat (printedEach parts)
      · rw [none]
        rfl
      · rw [last]
        simp
    rw [← all, ← split, List.flatMap_append, Piece.countList_append, split, arrange,
      Piece.countList_append, Piece.countList_append, Nat.add_right_comm]
    rfl
  · rw [if_neg unnamed, Nat.add_zero, ← all]
    cases kind <;> first | rfl | exact absurd rfl elsewhere | exact absurd rfl unnamed

theorem weighs_printedCount : Weighs printedCount where
  ofGroup d content same := by
    have count (content : List Tree) :
        (group d content).printedCount = 2 + weightOf printedCount content := by
      rw [← countList_flatMap_printed, ← flatMap_printedEach, printedCount, printed]
      rfl
    rw [bare, comments, count, count, same, Nat.add_assoc]
  ofNode kind parts elsewhere same := by
    obtain ⟨parts', bared⟩ := bare_node kind parts
    rw [bared] at same ⊢
    rw [printedCount_node elsewhere, printedCount_node elsewhere, same, Nat.add_right_comm]
    rfl

end Tree

end CallStudy.Source
