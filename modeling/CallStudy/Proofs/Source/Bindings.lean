import CallStudy.Proofs.Source.Comments

/-!
What `let` and `for` bind. The identifiers that count are all those of the tree that stands for the
pattern. Some belong to the pattern itself; the others belong to patterns in blocks and closures of
its types and expressions.
-/

set_option autoImplicit false

namespace CallStudy.Source

/-- Patterns that other patterns may stand in. -/
def Kind.isPattern : Kind → Bool
  | .identPattern | .tupleStructPattern | .structPattern | .fieldPattern | .tuplePattern
  | .parenthesizedPattern | .slicePattern | .referencePattern | .orPattern | .typedPattern => true
  | _ => false

namespace Tree

mutual
/-- The identifier patterns of a pattern itself. -/
def ownBindings : Tree → Nat
  | node kind parts =>
    if kind.isPattern then (if kind = .identPattern then 1 else 0) + ownBindingsOf parts else 0
  | group _ content => ownBindingsOf content
  | _ => 0

def ownBindingsOf : List Tree → Nat
  | [] => 0
  | t :: ts => t.ownBindings + ownBindingsOf ts
end

mutual
/-- The types, expressions and attributes that stand in a pattern. -/
def embedded : Tree → List Tree
  | node kind parts => if kind.isPattern then embeddedIn parts else [node kind parts]
  | group _ content => embeddedIn content
  | _ => []

def embeddedIn : List Tree → List Tree
  | [] => []
  | t :: ts => t.embedded ++ embeddedIn ts
end

theorem bindingsOf_append (first second : List Tree) :
    bindingsOf (first ++ second) = bindingsOf first + bindingsOf second := by
  simp only [bindingsOf_eq, weightOf_append]

theorem bindings_of_isPattern {kind : Kind} (pattern : kind.isPattern) (parts : List Tree) :
    (node kind parts).bindings = (if kind = .identPattern then 1 else 0) + bindingsOf parts := by
  apply bindings_node <;> rintro rfl <;> cases pattern

mutual
theorem bindings_eq (t : Tree) : t.bindings = t.ownBindings + bindingsOf t.embedded := by
  match t with
  | word _ => rfl
  | raw _ => rfl
  | group d content => exact bindingsOf_eq_own content
  | node kind parts =>
    rw [ownBindings, embedded]
    by_cases pattern : kind.isPattern
    · rw [if_pos pattern, if_pos pattern, bindings_of_isPattern pattern, bindingsOf_eq_own parts,
        Nat.add_assoc]
    · rw [if_neg pattern, if_neg pattern, Nat.zero_add]
      rfl

theorem bindingsOf_eq_own (trees : List Tree) :
    bindingsOf trees = ownBindingsOf trees + bindingsOf (embeddedIn trees) := by
  match trees with
  | [] => rfl
  | t :: rest =>
    rw [bindingsOf, ownBindingsOf, embeddedIn, bindingsOf_append, bindings_eq t,
      bindingsOf_eq_own rest]
    omega
end

mutual
theorem ownBindings_openWith (inside : List Token → List Tree) (t : Tree) :
    (t.openWith inside).ownBindings = t.ownBindings := by
  match t with
  | word _ => rfl
  | raw _ => rfl
  | group d content => exact ownBindingsOf_openEach inside content
  | node kind parts =>
    by_cases invocation : kind = .invocation
    · subst invocation
      rfl
    · rw [openWith_node invocation, ownBindings, ownBindings, ownBindingsOf_openEach inside parts]

theorem ownBindingsOf_openEach (inside : List Token → List Tree) (trees : List Tree) :
    ownBindingsOf (openEach inside trees) = ownBindingsOf trees := by
  match trees with
  | [] => rfl
  | t :: rest =>
    rw [openEach, ownBindingsOf, ownBindingsOf, ownBindings_openWith inside t,
      ownBindingsOf_openEach inside rest]
end

/-- The identifiers of the types and expressions in a pattern. -/
def embeddedBindings (t : Tree) : Nat := bindingsOf t.embedded

theorem embeddedBindings_openWith (inside : List Token → List Tree) (t : Tree) :
    (t.openWith inside).embeddedBindings = t.embeddedBindings := by
  have opened := bindings_eq (t.openWith inside)
  rw [bindings_openWith, ownBindings_openWith, bindings_eq t] at opened
  exact (Nat.add_left_cancel opened).symm

/-- The pattern of a `let` or a `for`. -/
def pattern? (kind : Kind) (parts : List Tree) : Option Tree :=
  match kind with
  | .localVariable => after "let" parts
  | .forExpr => after "for" parts
  | _ => none

/-- What `w` measures of the pattern of a `let` or a `for`. -/
def ofPattern (w : Tree → Nat) (kind : Kind) (parts : List Tree) : Nat :=
  ((pattern? kind parts).map w).getD 0

theorem localCount_eq (kind : Kind) (parts : List Tree) :
    localCount kind parts = ofPattern bindings kind parts := by
  cases kind <;> rfl

theorem localCount_eq_add (kind : Kind) (parts : List Tree) : localCount kind parts =
    ofPattern ownBindings kind parts + ofPattern embeddedBindings kind parts := by
  rw [localCount_eq, ofPattern, ofPattern, ofPattern]
  cases pattern? kind parts with
  | none => rfl
  | some pattern => exact bindings_eq pattern

theorem pattern?_map {g : Tree → Tree} (words : ∀ t, (g t).wordText? = t.wordText?) (kind : Kind)
    (parts : List Tree) : pattern? kind (parts.map g) = (pattern? kind parts).map g := by
  cases kind with
  | localVariable => exact after_map words "let" parts
  | forExpr => exact after_map words "for" parts
  | _ => rfl

theorem ofPattern_map {g : Tree → Tree} {w : Tree → Nat}
    (words : ∀ t, (g t).wordText? = t.wordText?) (same : ∀ t, w (g t) = w t) (kind : Kind)
    (parts : List Tree) : ofPattern w kind (parts.map g) = ofPattern w kind parts := by
  rw [ofPattern, ofPattern, pattern?_map words, Option.map_map]
  exact congrArg (fun w => ((pattern? kind parts).map w).getD 0) (funext same)

theorem steady_ofPattern {w : Tree → Nat} (opened : ∀ inside t, w (openWith inside t) = w t) :
    Steady (ofPattern w) := by
  intro inside kind parts
  by_cases invocation : kind = .invocation
  · subst invocation
    rfl
  · rw [openWith_node invocation, children, openEach_eq_map]
    exact ofPattern_map (wordText?_openWith inside) (opened inside) kind parts

theorem weigh_ofPattern (w : Tree → Nat) (nodes : List BodyNode) :
    weigh (ofPattern w) nodes = ((nodes.filterMap fun n => pattern? n.kind n.parts).map w).sum := by
  induction nodes with
  | nil => rfl
  | cons n rest ih =>
    have step : weigh (ofPattern w) (n :: rest) =
        ofPattern w n.kind n.parts + weigh (ofPattern w) rest := by
      simp only [weigh, List.map_cons, List.sum_cons]
    rw [step, ih, List.filterMap_cons, ofPattern]
    cases pattern? n.kind n.parts <;> simp

end Tree
end CallStudy.Source
