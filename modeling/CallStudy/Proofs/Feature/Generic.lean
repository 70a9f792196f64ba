import CallStudy.Feature.Row
import CallStudy.Proofs.Source.Comments

/-!
What the column of generic functions says of the types of parameters. It sees a type made of bounds
where it is the whole type of a parameter, and misses one that stands inside of another type.
-/

set_option autoImplicit false

namespace CallStudy

namespace Source

namespace Tree

mutual
/-- Whether a node of the kind stands in a tree, at any depth. -/
def mentions (kind : Kind) : Tree → Bool
  | node k parts => k == kind || mentionsAny kind parts
  | group _ content => mentionsAny kind content
  | _ => false

def mentionsAny (kind : Kind) : List Tree → Bool
  | [] => false
  | t :: ts => t.mentions kind || mentionsAny kind ts
end

/-- A node of the kind is the tree itself or stands inside of it. -/
theorem mentions_iff {kind : Kind} {t : Tree} :
    t.mentions kind = true ↔ t.isNode kind = true ∨ mentionsAny kind t.children = true := by
  cases t with
  | word tokens => simp [mentions, isNode, children, mentionsAny]
  | raw tokens => simp [mentions, isNode, children, mentionsAny]
  | group d content => simp [mentions, isNode, children]
  | node k parts => simp [mentions, isNode, children]

end Tree

namespace Function

variable (f : Function)

/-- Whether some parameter has a type of which `holds` is true. -/
def takes (holds : Tree → Bool) : Bool :=
  f.typedParameters.any fun p => ((parameterType? p).map holds).getD false

def declaresType : Bool := f.genericParameters.any (Tree.isNode .typeParameter)

/-- Whether each use of the function may be compiled for types of its own: it declares a type, or
takes a value of a type made of bounds, which may be a part of the parameter's type. -/
def isInstantiated : Bool := f.declaresType || f.takes (Tree.mentions .implType)

/-- Whether a parameter has a type made of bounds inside of its own type. -/
def takesNested : Bool := f.takes fun type => Tree.mentionsAny .implType type.children

variable {f}

theorem takes_iff {holds : Tree → Bool} : f.takes holds = true ↔
    ∃ p ∈ f.typedParameters, ∃ type, parameterType? p = some type ∧ holds type = true := by
  simp only [takes, List.any_eq_true]
  apply exists_congr
  intro p
  cases parameterType? p with
  | none => simp
  | some type => simp

theorem takes_mentions_iff : f.takes (Tree.mentions .implType) = true ↔
    f.takes (Tree.isNode .implType) = true ∨ f.takesNested = true := by
  simp only [takesNested, takes_iff, Tree.mentions_iff]
  constructor
  · intro some
    obtain ⟨p, mem, type, found, here⟩ := some
    cases here with
    | inl outside => exact .inl ⟨p, mem, type, found, outside⟩
    | inr inside => exact .inr ⟨p, mem, type, found, inside⟩
  · intro either
    rcases either with ⟨p, mem, type, found, outside⟩ | ⟨p, mem, type, found, inside⟩
    · exact ⟨p, mem, type, found, .inl outside⟩
    · exact ⟨p, mem, type, found, .inr inside⟩

theorem isGeneric_iff : f.isGeneric = true ↔ f.declaresType = true ∨ ∃ p ∈ f.typedParameters,
    ∃ parts, parameterType? p = some (.node .implType parts) := by
  have generic : f.isGeneric = (f.declaresType || f.takes (Tree.isNode .implType)) := rfl
  rw [generic, Bool.or_eq_true, takes_iff]
  apply or_congr_right
  constructor
  · intro found
    obtain ⟨p, mem, type, found, outside⟩ := found
    obtain ⟨parts, rfl⟩ := Tree.exists_eq_node_of_isNode outside
    exact ⟨p, mem, parts, found⟩
  · intro found
    obtain ⟨p, mem, parts, found⟩ := found
    exact ⟨p, mem, _, found, rfl⟩

/-- What is called generic is instantiated, and what else is instantiated has a nested type made of
bounds. -/
theorem isInstantiated_iff : f.isInstantiated = true ↔ f.isGeneric = true ∨ f.takesNested = true := by
  have generic : f.isGeneric = (f.declaresType || f.takes (Tree.isNode .implType)) := rfl
  rw [generic, isInstantiated, Bool.or_eq_true, Bool.or_eq_true, takes_mentions_iff, or_assoc]

end Function

end Source

namespace FeatureRow

open Source

/-- The column is one for just those functions that declare a type or of which a parameter's whole
type is made of bounds. All others that are instantiated have bounds nested in a parameter's type, so
the column tells which functions are instantiated just where such a nesting makes no difference. -/
theorem isGeneric_misses_nested_bounds (f : Source.Function) (fileName : String)
    (functions : List Source.Function) (i : Nat) (at_ : functions[i]? = some f) :
    ∃ row, (ofFunctions fileName functions)[i]? = some row ∧ row.isGeneric ≤ 1 ∧
      (row.isGeneric = 1 ↔ f.declaresType = true ∨ ∃ p ∈ f.typedParameters, ∃ parts,
        Function.parameterType? p = some (.node .implType parts)) ∧
      (f.isInstantiated = true ↔ row.isGeneric = 1 ∨ f.takesNested = true) ∧
      ((row.isGeneric = 1 ↔ f.isInstantiated = true) ↔
        (f.takesNested = true → row.isGeneric = 1)) := by
  have one : f.isGeneric.toNat = 1 ↔ f.isGeneric = true := Bool.toNat_eq_one
  have instantiated : f.isInstantiated = true ↔ f.isGeneric.toNat = 1 ∨ f.takesNested = true := by
    rw [one, Function.isInstantiated_iff]
  refine ⟨ofFunction fileName functions f, ?_, f.isGeneric.toNat_le, ?_, instantiated, ?_⟩
  · rw [ofFunctions, List.getElem?_map, at_]
    rfl
  · exact one.trans Function.isGeneric_iff
  · change (f.isGeneric.toNat = 1 ↔ _) ↔ (_ → f.isGeneric.toNat = 1)
    rw [instantiated]
    constructor
    · intro same nested
      exact same.mpr (.inr nested)
    · intro covered
      exact ⟨.inl, fun either => either.elim id covered⟩

/-- A function whose parameter is a reference to a value of a type made of bounds. -/
def referencedBounds : String := "fn f(g: &impl Fn(i64) -> i64) -> i64 \x7b g(1) \x7d"

/-- A reference changes nothing where a type is declared as well. -/
theorem isGeneric_misses_nested_bounds_beside_declared_type :
    ∃ f, Function.ofSource? "fn f<T>(g: &impl Fn(T)) \x7b\x7d" = some [f] ∧ [f][0]? = some f ∧
      f.takesNested = true ∧ ∃ row, (ofFunctions "a.rs" [f])[0]? = some row ∧ row.isGeneric = 1 := by
  have measured : (Function.ofSource? "fn f<T>(g: &impl Fn(T)) \x7b\x7d").map (·.map fun f =>
      (f.declaresType, f.takesNested)) = some [(true, true)] := by decide +kernel
  obtain ⟨functions, collected, each⟩ := Option.map_eq_some_iff.mp measured
  obtain ⟨f, rfl, both⟩ := List.map_eq_singleton_iff.mp each
  obtain ⟨declared, nested⟩ := Prod.mk.inj both
  obtain ⟨row, found, -, one, -⟩ := isGeneric_misses_nested_bounds f "a.rs" [f] 0 rfl
  exact ⟨f, collected, rfl, nested, row, found, one.mpr (.inl declared)⟩

theorem nested_bounds_not_generic :
    ∃ f, Function.ofSource? referencedBounds = some [f] ∧ f.isInstantiated = true ∧
      ∃ row, (ofFunctions "a.rs" [f])[0]? = some row ∧ row.isGeneric = 0 := by
  have measured : (Function.ofSource? referencedBounds).map (·.map fun f => (f.isInstantiated,
      f.isGeneric)) = some [(true, false)] := by decide +kernel
  obtain ⟨functions, collected, each⟩ := Option.map_eq_some_iff.mp measured
  obtain ⟨f, rfl, both⟩ := List.map_eq_singleton_iff.mp each
  obtain ⟨instantiated, generic⟩ := Prod.mk.inj both
  refine ⟨f, collected, instantiated, _, rfl, ?_⟩
  change f.isGeneric.toNat = 0
  rw [generic]
  rfl

end FeatureRow
end CallStudy
