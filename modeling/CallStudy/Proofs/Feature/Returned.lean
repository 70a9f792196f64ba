import CallStudy.Proofs.Feature.Calls

/-!
What the column of complex return types says of types in parentheses. It sees the unit type and the
primitive types where they stand alone, and takes them for complex ones as soon as they are
parenthesized.
-/

set_option autoImplicit false

namespace CallStudy

namespace Source

/-- The unit type, or the name of a primitive type as a path of its own. -/
inductive IsScalar : Tree → Prop where
  | unit (d : Delimiter) : IsScalar (.node .tupleType [.group d []])
  | primitive {name : Tree} {word : String} (text : name.wordText? = some word)
      (known : word ∈ primitiveTypes) :
      IsScalar (.node .pathType [.node .path [.node .segment [name]]])

namespace Tree

/-- A type without the parentheses around it. -/
def unparenthesized : Tree → Tree
  | node .parenthesizedType [group _ [inner]] => inner.unparenthesized
  | t => t

theorem unparenthesized_of_not_isNode {t : Tree} (bare : t.isNode .parenthesizedType = false) :
    t.unparenthesized = t := by
  unfold unparenthesized
  split
  · cases bare
  · rfl

end Tree

theorem IsScalar.not_parenthesized {t : Tree} (h : IsScalar t) :
    t.isNode .parenthesizedType = false := by
  cases h with
  | unit d => rfl
  | primitive text known => rfl

namespace Function

/-- Types that are not complex are just the scalar ones, as they are written. -/
theorem isComplexType_eq_false_iff {type : Tree} : isComplexType type = false ↔ IsScalar type := by
  constructor
  · intro simple
    unfold isComplexType at simple
    split at simple
    · exact .unit _
    · next path =>
      split at simple
      · next word sole =>
        obtain ⟨name, rfl, text⟩ := Tree.soleWord?_eq_some_iff.mp sole
        exact .primitive text (by simpa using simple)
      · cases simple
    · cases simple
  · intro scalar
    cases scalar with
    | unit d => rfl
    | @primitive name word text known =>
      have sole : Tree.soleWord? (.node .path [.node .segment [name]]) = some word :=
        Tree.soleWord?_eq_some_iff.mpr ⟨name, rfl, text⟩
      simpa [isComplexType, sole] using known

variable (f : Function)

/-- The function returns nothing, or a scalar however many parentheses stand around its type. -/
def ReturnsScalar : Prop :=
  ∀ type, f.returnType? = some type → IsScalar type.unparenthesized

/-- The function returns a scalar the type of which is parenthesized. -/
def ReturnsParenthesizedScalar : Prop :=
  ∃ parts, f.returnType? = some (.node .parenthesizedType parts) ∧
    IsScalar (Tree.node .parenthesizedType parts).unparenthesized

variable {f}

theorem isComplexReturn_eq_false_iff :
    f.isComplexReturn = false ↔ ∀ type, f.returnType? = some type → IsScalar type := by
  rw [isComplexReturn]
  cases f.returnType? with
  | none => simp
  | some type => simp [isComplexType_eq_false_iff]

theorem returnsScalar_iff :
    f.ReturnsScalar ↔ f.isComplexReturn = false ∨ f.ReturnsParenthesizedScalar := by
  rw [isComplexReturn_eq_false_iff]
  constructor
  · intro scalar
    cases found : f.returnType? with
    | none => exact .inl nofun
    | some type =>
      cases parenthesized : type.isNode .parenthesizedType with
      | true =>
        obtain ⟨parts, rfl⟩ := Tree.exists_eq_node_of_isNode parenthesized
        exact .inr ⟨parts, found, scalar _ found⟩
      | false =>
        have bare := scalar type found
        rw [Tree.unparenthesized_of_not_isNode parenthesized] at bare
        refine .inl fun same equal => ?_
        cases equal
        exact bare
  · intro either type found
    cases either with
    | inl scalar =>
      have bare := scalar type found
      rwa [Tree.unparenthesized_of_not_isNode bare.not_parenthesized]
    | inr parenthesized =>
      obtain ⟨parts, same, scalar⟩ := parenthesized
      rw [found, Option.some.injEq] at same
      rwa [same]

/-- A type in parentheses counts as complex. -/
theorem ReturnsParenthesizedScalar.isComplexReturn (h : f.ReturnsParenthesizedScalar) :
    f.isComplexReturn = true := by
  obtain ⟨parts, found, -⟩ := h
  rw [Function.isComplexReturn, found]
  rfl

end Function

end Source

namespace FeatureRow

open Source

/-- The column is zero for just those functions that return nothing or a scalar without parentheses.
All others that return a scalar have it in parentheses, and for just those the column says that the
type is complex. -/
theorem isComplexReturn_depends_on_parentheses (f : Source.Function) (fileName : String)
    (functions : List Source.Function) (i : Nat) (at_ : functions[i]? = some f) :
    ∃ row, (ofFunctions fileName functions)[i]? = some row ∧ row.isComplexReturn ≤ 1 ∧
      (row.isComplexReturn = 0 ↔ ∀ type, f.returnType? = some type → IsScalar type) ∧
      (f.ReturnsScalar ↔ row.isComplexReturn = 0 ∨ f.ReturnsParenthesizedScalar) ∧
      ((row.isComplexReturn = 0 ↔ f.ReturnsScalar) ↔ ¬ f.ReturnsParenthesizedScalar) := by
  have zero : f.isComplexReturn.toNat = 0 ↔ f.isComplexReturn = false := Bool.toNat_eq_zero
  have scalar : f.ReturnsScalar ↔
      f.isComplexReturn.toNat = 0 ∨ f.ReturnsParenthesizedScalar := by
    rw [zero, Function.returnsScalar_iff]
  refine ⟨ofFunction fileName functions f, ?_, f.isComplexReturn.toNat_le, ?_, scalar, ?_⟩
  · rw [ofFunctions, List.getElem?_map, at_]
    rfl
  · exact zero.trans Function.isComplexReturn_eq_false_iff
  · change (f.isComplexReturn.toNat = 0 ↔ _) ↔ _
    rw [scalar]
    constructor
    · intro same parenthesized
      have simple := zero.mp (same.mpr (.inr parenthesized))
      rw [parenthesized.isComplexReturn] at simple
      cases simple
    · intro bare
      exact ⟨.inl, fun either => either.resolve_right bare⟩

/-- A function that returns a primitive type without parentheses. -/
theorem isComplexReturn_depends_on_parentheses_of_bare_type :
    ∃ f, Function.ofSource? "fn f() -> u32 \x7b 0 \x7d" = some [f] ∧ [f][0]? = some f ∧
      f.ReturnsScalar ∧
      ∃ row, (ofFunctions "a.rs" [f])[0]? = some row ∧ row.isComplexReturn = 0 := by
  have measured : (Function.ofSource? "fn f() -> u32 \x7b 0 \x7d").map
      (·.map Function.isComplexReturn) = some [false] := by decide +kernel
  obtain ⟨functions, collected, each⟩ := Option.map_eq_some_iff.mp measured
  obtain ⟨f, rfl, simple⟩ := List.map_eq_singleton_iff.mp each
  obtain ⟨row, found, -, zero, scalar, -⟩ :=
    isComplexReturn_depends_on_parentheses f "a.rs" [f] 0 rfl
  have none : row.isComplexReturn = 0 := zero.mpr (Function.isComplexReturn_eq_false_iff.mp simple)
  exact ⟨f, collected, rfl, scalar.mpr (.inl none), row, found, none⟩

/-- A primitive type in parentheses. -/
def parenthesizedPrimitive : Tree :=
  .node .parenthesizedType [.group .parenthesis
    [.node .pathType [.node .path [.node .segment [.word [.ident "u32"]]]]]]

theorem parenthesized_scalar_is_complex :
    ∃ f, Function.ofSource? "fn f() -> (u32) \x7b 0 \x7d" = some [f] ∧ f.ReturnsScalar ∧
      ∃ row, (ofFunctions "a.rs" [f])[0]? = some row ∧ row.isComplexReturn = 1 := by
  have measured : (Function.ofSource? "fn f() -> (u32) \x7b 0 \x7d").map (·.map fun f =>
      f.returnType?) = some [some parenthesizedPrimitive] := by decide +kernel
  obtain ⟨functions, collected, each⟩ := Option.map_eq_some_iff.mp measured
  obtain ⟨f, rfl, returns⟩ := List.map_eq_singleton_iff.mp each
  have scalar : f.ReturnsParenthesizedScalar :=
    ⟨_, returns, @IsScalar.primitive _ "u32" rfl (by decide)⟩
  refine ⟨f, collected, Function.returnsScalar_iff.mpr (.inr scalar), _, rfl, ?_⟩
  change f.isComplexReturn.toNat = 1
  rw [scalar.isComplexReturn]
  rfl

end FeatureRow
end CallStudy
