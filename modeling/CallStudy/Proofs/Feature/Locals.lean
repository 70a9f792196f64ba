import CallStudy.Proofs.Feature.Row
import CallStudy.Proofs.Source.Bindings

/-!
What the column of local variables says of the patterns in a body.
-/

set_option autoImplicit false

namespace CallStudy

namespace Source

/-- The pattern of a node that is a `let` or a `for`. -/
def BodyNode.pattern? (n : BodyNode) : Option Tree := Tree.pattern? n.kind n.parts

namespace Tree

/-- The identifiers that patterns bind, and those of the types and expressions in them again. -/
theorem totalOf_localCount_eq {body : List Tree} {nodes : List BodyNode}
    (weighed : ∀ f, Steady f → totalOf f (opened body) = weigh f nodes) :
    totalOf localCount (opened body) = ((nodes.filterMap BodyNode.pattern?).map ownBindings).sum +
      ((nodes.filterMap BodyNode.pattern?).map embeddedBindings).sum := by
  have patterns (w : Tree → Nat) := weigh_ofPattern w nodes
  have split : weigh localCount nodes =
      weigh (ofPattern ownBindings) nodes + weigh (ofPattern embeddedBindings) nodes := by
    simp only [weigh, localCount_eq_add, List.sum_map_add]
  rw [weighed _ steady_localCount, split, patterns, patterns]
  rfl

end Tree
end Source

namespace FeatureRow

open Source Source.Tree

/-- The column of local variables has the identifiers in the patterns of every `let` and `for`
themselves, each once, and all of the types and expressions in these patterns on top. So a variable
of a block in a type is counted with its own `let` and again with the one whose type it is. -/
theorem localVariableCount_counts_bindings (f : Source.Function) :
    ∃ nodes : List BodyNode, Enumerates nodes (NodeIn f.body) ∧
      ∀ (fileName : String) (functions : List Source.Function) (i : Nat),
        functions[i]? = some f → ∃ row, (ofFunctions fileName functions)[i]? = some row ∧
          row.localVariableCount = ((nodes.filterMap BodyNode.pattern?).map ownBindings).sum +
            ((nodes.filterMap BodyNode.pattern?).map embeddedBindings).sum ∧
          (row.localVariableCount = ((nodes.filterMap BodyNode.pattern?).map ownBindings).sum ↔
            ∀ n ∈ nodes, ∀ pattern, n.pattern? = some pattern →
              ∀ t ∈ pattern.embedded, t.bindings = 0) := by
  obtain ⟨nodes, listed, weighed⟩ := measures_opened f.body
  refine ⟨nodes, listed, fun fileName functions i at_ => ?_⟩
  have counted := totalOf_localCount_eq weighed
  refine ⟨ofFunction fileName functions f, by rw [ofFunctions, List.getElem?_map, at_]; rfl,
    counted, ?_⟩
  have column : (ofFunction fileName functions f).localVariableCount =
      totalOf localCount (opened f.body) := rfl
  rw [column, counted, Nat.add_eq_left, List.sum_eq_zero_iff]
  simp only [List.forall_mem_map, List.forall_mem_filterMap, embeddedBindings, bindingsOf_eq,
    weightOf, List.sum_eq_zero_iff]

/-- A function with a `let` in the type of another one. -/
def nestedLet : String := "fn f() \x7b let x: [u8; \x7b let y = 1; y \x7d] = [0]; \x7d"

theorem localVariableCount_counts_bindings_of_nested_let :
    ∃ f, Function.ofSource? nestedLet = some [f] ∧
      ∃ nodes : List BodyNode, Enumerates nodes (NodeIn f.body) ∧
        ((nodes.filterMap BodyNode.pattern?).map ownBindings).sum +
          ((nodes.filterMap BodyNode.pattern?).map embeddedBindings).sum = 3 := by
  have counted : (Function.ofSource? nestedLet).map (·.map Function.localVariableCount) = some [3] :=
    by decide +kernel
  obtain ⟨functions, collected, each⟩ := Option.map_eq_some_iff.mp counted
  obtain ⟨f, rfl, three⟩ := List.map_eq_singleton_iff.mp each
  obtain ⟨nodes, listed, rows⟩ := localVariableCount_counts_bindings f
  obtain ⟨row, found, sum, -⟩ := rows "a.rs" [f] 0 rfl
  cases found
  exact ⟨f, collected, nodes, listed, sum.symm.trans three⟩

/-- Two variables are bound there, each by a `let` of its own, and three are counted. -/
theorem variable_of_nested_let_counted_twice :
    ∃ f, Function.ofSource? nestedLet = some [f] ∧ f.localVariableCount = 3 ∧
      ∀ nodes, Enumerates nodes (NodeIn f.body) →
        ((nodes.filterMap BodyNode.pattern?).map ownBindings).sum = 2 := by
  have counted : (Function.ofSource? nestedLet).map (·.map fun f => (f.localVariableCount,
      totalOf (ofPattern ownBindings) f.openedBody)) = some [(3, 2)] := by decide +kernel
  obtain ⟨functions, collected, each⟩ := Option.map_eq_some_iff.mp counted
  obtain ⟨f, rfl, both⟩ := List.map_eq_singleton_iff.mp each
  obtain ⟨three, two⟩ := Prod.mk.inj both
  refine ⟨f, collected, three, fun nodes listed => ?_⟩
  have weighed : Measures (NodeIn f.body) (weigh · nodes) := ⟨nodes, listed, fun _ _ => rfl⟩
  have same := weighed.unique (measures_opened f.body) (steady_ofPattern ownBindings_openWith)
  exact ((weigh_ofPattern ownBindings nodes).symm.trans same).trans two

end FeatureRow
end CallStudy
