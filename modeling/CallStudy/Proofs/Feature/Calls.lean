import CallStudy.Proofs.Feature.Row

/-!
What the last column of a row says of the bodies of all functions. It counts the nodes that call
the function by its bare name, so it is a sum over the functions and their order has no part in it.
-/

set_option autoImplicit false

namespace CallStudy

namespace Source

/-- A call of a path that ends in `name`, or of a method called `name`. -/
inductive BodyNode.Calls (name : String) : BodyNode → Prop where
  | path {place : List Nat} {before : List Tree} {callee arguments : Tree}
      (last : callee.lastWord? = some name) :
      Calls name ⟨place, .call, before ++ [.node .pathExpr [callee], arguments]⟩
  | method {place : List Nat} {parts : List Tree} (named : Tree.nameOf parts = name) :
      Calls name ⟨place, .methodCall, parts⟩

theorem BodyNode.calls_iff {name : String} {n : BodyNode} :
    n.Calls name ↔ Tree.calledName? n.kind n.parts = some name := by
  constructor
  · intro calls
    cases calls with
    | path last => simpa [Tree.calledName?] using last
    | method named => exact congrArg some named
  · obtain ⟨place, kind, parts⟩ := n
    intro called
    cases kind with
    | call =>
      dsimp only [Tree.calledName?] at called
      split at called
      · next arguments callee before equal =>
        have parts_eq : parts = before.reverse ++ [.node .pathExpr [callee], arguments] := by
          simpa using congrArg List.reverse equal
        rw [parts_eq]
        exact .path called
      · cases called
    | methodCall => exact .method (Option.some.inj called)
    | _ => cases called

instance (name : String) (n : BodyNode) : Decidable (n.Calls name) :=
  decidable_of_iff _ BodyNode.calls_iff.symm

namespace Tree

variable (inside : List Token → List Tree)

@[simp] theorem wordText?_openWith (t : Tree) : (t.openWith inside).wordText? = t.wordText? := by
  cases t with
  | node kind _ => cases kind <;> rfl
  | word _ => rfl
  | raw _ => rfl
  | group _ _ => rfl

theorem exists_eq_node_of_isNode {kind : Kind} {t : Tree} (h : t.isNode kind) :
    ∃ parts, t = node kind parts := by
  cases t with
  | node k parts => exact ⟨parts, by rw [eq_of_beq h]⟩
  | _ => cases h

theorem soleWord?_eq_some_iff {t : Tree} {text : String} : t.soleWord? = some text ↔
    ∃ name, t = node .path [node .segment [name]] ∧ name.wordText? = some text := by
  unfold soleWord?
  split <;> simp_all

/-- A change of trees that keeps the nodes of a kind, and changes what is in them. -/
structure Maps (g : Tree → Tree) (kind : Kind) : Prop where
  isNode (t : Tree) : (g t).isNode kind = t.isNode kind
  node (parts : List Tree) : g (node kind parts) = node kind (parts.map g)

section Maps

variable {g : Tree → Tree} (words : ∀ t, (g t).wordText? = t.wordText?)

include words

/-- The words of a path stand in its segments. -/
theorem pathWords_map (segments : Maps g .segment) (parts : List Tree) :
    (node .path (parts.map g)).pathWords = (node .path parts).pathWords := by
  simp only [pathWords, List.filterMap_map]
  apply List.filterMap_congr
  intro part _
  have kept := segments.isNode part
  by_cases segment : part.isNode .segment
  · obtain ⟨content, rfl⟩ := exists_eq_node_of_isNode segment
    rw [Function.comp_apply, segments.node]
    cases content with
    | nil => rfl
    | cons first rest => exact words first
  · rw [Function.comp_apply]
    split
    · next same =>
      rw [same] at kept
      exact absurd kept.symm segment
    · split
      · exact absurd rfl segment
      · rfl

theorem nameOf_map (names : Maps g .name) (parts : List Tree) :
    nameOf (parts.map g) = nameOf parts := by
  have found : findNode? .name (parts.map g) = (findNode? .name parts).map g := by
    rw [findNode?, List.find?_map]
    simp only [Function.comp_def, names.isNode]
    rfl
  rw [nameOf, nameOf, found]
  cases h : findNode? .name parts with
  | none => rfl
  | some t =>
    obtain ⟨content, rfl⟩ := exists_eq_node_of_isNode (List.find?_some h)
    rw [Option.map_some, names.node]
    match content with
    | [] => rfl
    | [one] => exact congrArg (·.getD "") (words one)
    | _ :: _ :: _ => rfl

end Maps

theorem maps_openWith {kind : Kind} (ordinary : kind ≠ .invocation) :
    Maps (openWith inside) kind where
  isNode := isNode_openWith inside kind
  node parts := by rw [openWith_node ordinary, openEach_eq_map]

theorem pathWords_openWith (t : Tree) : (t.openWith inside).pathWords = t.pathWords := by
  have segments (parts : List Tree) : (node .path (openEach inside parts)).pathWords =
      (node .path parts).pathWords := by
    rw [openEach_eq_map]
    exact pathWords_map (wordText?_openWith inside) (maps_openWith inside nofun) parts
  cases t with
  | node kind parts =>
    cases kind with
    | path => exact segments parts
    | qualifiedPath => exact segments parts
    | _ => rfl
  | _ => rfl

theorem nameOf_openEach (parts : List Tree) : nameOf (openEach inside parts) = nameOf parts := by
  rw [openEach_eq_map]
  exact nameOf_map (wordText?_openWith inside) (maps_openWith inside nofun) parts

/-- The last word of a callee that is a path. -/
def calleeWord? : Tree → Option String
  | node .pathExpr [path] => path.lastWord?
  | _ => none

theorem calleeWord?_map {g : Tree → Tree} (callees : Maps g .pathExpr)
    (paths : ∀ t, (g t).pathWords = t.pathWords) (t : Tree) :
    calleeWord? (g t) = calleeWord? t := by
  have kept := callees.isNode t
  by_cases callee : t.isNode .pathExpr
  · obtain ⟨content, rfl⟩ := exists_eq_node_of_isNode callee
    rw [callees.node]
    match content with
    | [] => rfl
    | [path] => exact congrArg List.getLast? (paths path)
    | _ :: _ :: _ => rfl
  · unfold calleeWord?
    split
    · next same =>
      rw [same] at kept
      exact absurd kept.symm callee
    · split
      · exact absurd rfl callee
      · rfl

theorem calledName?_call_eq (parts : List Tree) :
    calledName? .call parts = parts.dropLast.getLast?.bind calleeWord? := by
  rw [calledName?, ← List.head?_reverse, ← List.tail_reverse]
  match parts.reverse with
  | [] => rfl
  | [_] => rfl
  | _ :: t :: _ =>
    dsimp only [List.tail_cons, List.head?_cons, Option.bind_some]
    unfold calleeWord?
    split <;> split <;> simp_all

theorem calledName?_openEach (parts : List Tree) :
    calledName? .call (openEach inside parts) = calledName? .call parts := by
  have opened := calleeWord?_map (maps_openWith inside nofun) (pathWords_openWith inside)
  rw [calledName?_call_eq, calledName?_call_eq, openEach_eq_map, beforeLast_map opened]

theorem steady_callCount (name : String) : Steady (callCount name) := by
  intro inside kind parts
  cases kind with
  | call =>
    rw [openWith_node (by decide), children, callCount, calledName?_openEach]
    rfl
  | methodCall =>
    rw [openWith_node (by decide), children, callCount, calledName?, nameOf_openEach]
    rfl
  | _ => rfl

theorem weigh_callCount (name : String) (nodes : List BodyNode) :
    weigh (callCount name) nodes = nodes.countP (·.Calls name) := by
  induction nodes with
  | nil => rfl
  | cons n rest ih =>
    have step : weigh (callCount name) (n :: rest) =
        callCount name n.kind n.parts + weigh (callCount name) rest := by
      simp only [weigh, List.map_cons, List.sum_cons]
    rw [step, ih, List.countP_cons, callCount, Nat.add_comm]
    simp only [BodyNode.calls_iff, decide_eq_true_eq]

end Tree
end Source

namespace FeatureRow

open Source

/-- How many of the nodes in some bodies call `name`, given the nodes of every body. -/
def callsAmong (nodesOf : Source.Function → List BodyNode) (name : String)
    (functions : List Source.Function) : Nat :=
  (functions.map fun g => (nodesOf g).countP (·.Calls name)).sum

/-- A row with more calls. -/
def withCalls (more : Nat) (r : FeatureRow) : FeatureRow :=
  { r with callSiteCount := r.callSiteCount + more }

section

variable {nodesOf : Source.Function → List BodyNode}
  (counts : ∀ name g, g.callsOf name = (nodesOf g).countP (·.Calls name))

include counts

theorem callSiteCount_ofFunction (fileName : String) (functions : List Source.Function)
    (f : Source.Function) :
    (ofFunction fileName functions f).callSiteCount = callsAmong nodesOf f.bareName functions := by
  have each : Source.Function.callsOf f.bareName =
      fun g => (nodesOf g).countP (·.Calls f.bareName) := funext (counts f.bareName)
  rw [ofFunction, each]
  rfl

theorem ofFunction_perm (fileName : String) {functions others : List Source.Function}
    (perm : functions.Perm others) : ofFunction fileName functions = ofFunction fileName others := by
  funext f
  have same : callsAmong nodesOf f.bareName functions = callsAmong nodesOf f.bareName others :=
    (perm.map _).sum_eq
  rw [← callSiteCount_ofFunction counts fileName, ← callSiteCount_ofFunction counts fileName] at same
  exact congrArg (fun calls => { ofFunction fileName functions f with callSiteCount := calls }) same

theorem ofFunction_append (fileName : String) (first second : List Source.Function)
    (f : Source.Function) : ofFunction fileName (first ++ second) f =
      (ofFunction fileName first f).withCalls (callsAmong nodesOf f.bareName second) := by
  have sum : callsAmong nodesOf f.bareName (first ++ second) =
      callsAmong nodesOf f.bareName first + callsAmong nodesOf f.bareName second := by
    rw [callsAmong, List.map_append, List.sum_append]
    rfl
  rw [← callSiteCount_ofFunction counts fileName, ← callSiteCount_ofFunction counts fileName] at sum
  exact congrArg (fun calls => { ofFunction fileName first f with callSiteCount := calls }) sum

end

/-- Calls are counted exactly and additively. The last column adds up, over the bodies of all
functions, the nodes that call the function's bare name. So functions of one bare name have one
count, the order of functions only orders the rows, and of two lists in a row each adds to the rows
of the other nothing but its calls. -/
theorem callSiteCount_counts_calls :
    ∃ nodesOf : Source.Function → List BodyNode, (∀ g, Enumerates (nodesOf g) (NodeIn g.body)) ∧
      ∀ (fileName : String) (functions : List Source.Function),
        (∀ (i : Nat) (f : Source.Function), functions[i]? = some f →
          ∃ row, (ofFunctions fileName functions)[i]? = some row ∧
            row.callSiteCount = callsAmong nodesOf f.bareName functions) ∧
        (∀ (i j : Nat) (f g : Source.Function), functions[i]? = some f → functions[j]? = some g →
          f.bareName = g.bareName → ∃ row row', (ofFunctions fileName functions)[i]? = some row ∧
            (ofFunctions fileName functions)[j]? = some row' ∧
            row.callSiteCount = row'.callSiteCount) ∧
        (∀ others : List Source.Function, functions.Perm others →
          ∃ row : Source.Function → FeatureRow, ofFunctions fileName functions = functions.map row ∧
            ofFunctions fileName others = others.map row) ∧
        ∀ first second : List Source.Function, functions = first ++ second →
          ofFunctions fileName functions =
            first.zipWith (fun f row => row.withCalls (callsAmong nodesOf f.bareName second))
              (ofFunctions fileName first) ++
            second.zipWith (fun f row => row.withCalls (callsAmong nodesOf f.bareName first))
              (ofFunctions fileName second) := by
  choose nodesOf listed weighed using fun g : Source.Function => Tree.measures_opened g.body
  have counts (name : String) (g : Source.Function) :
      g.callsOf name = (nodesOf g).countP (·.Calls name) := by
    rw [← Tree.weigh_callCount, ← weighed g _ (Tree.steady_callCount name)]
    rfl
  refine ⟨nodesOf, listed, fun fileName functions => ⟨?_, ?_, ?_, ?_⟩⟩
  · intro i f at_
    refine ⟨ofFunction fileName functions f, ?_, callSiteCount_ofFunction counts _ _ f⟩
    rw [ofFunctions, List.getElem?_map, at_]
    rfl
  · intro i j f g at_ at_' same
    refine ⟨ofFunction fileName functions f, ofFunction fileName functions g, ?_, ?_, ?_⟩
    · rw [ofFunctions, List.getElem?_map, at_]
      rfl
    · rw [ofFunctions, List.getElem?_map, at_']
      rfl
    · rw [callSiteCount_ofFunction counts, callSiteCount_ofFunction counts, same]
  · intro others perm
    refine ⟨ofFunction fileName functions, rfl, ?_⟩
    rw [ofFunction_perm counts fileName perm]
    rfl
  · rintro first second rfl
    have before := ofFunction_append counts fileName first second
    have behind (f : Source.Function) : ofFunction fileName (first ++ second) f =
        (ofFunction fileName second f).withCalls (callsAmong nodesOf f.bareName first) := by
      rw [ofFunction_perm counts fileName List.perm_append_comm]
      exact ofFunction_append counts fileName second first f
    simp only [ofFunctions, List.map_append, List.zipWith_map_right, List.zipWith_self]
    exact congrArg₂ _ (List.map_congr_left fun f _ => before f)
      (List.map_congr_left fun f _ => behind f)

theorem callSiteCount_counts_calls_in_two_bodies :
    let name : Tree := .word [.ident "g"]
    let callee : Tree := .node .pathExpr [.node .path [.node .segment [name]]]
    let f : Source.Function := ⟨"f", "f", [.node .block [.group .brace
      [.node .statement [.node .call [callee, .group .parenthesis []]]]]]⟩
    let g : Source.Function := ⟨"T::g", "g", [.node .block [.group .brace
      [.node .statement [.node .methodCall [.node .name [name], .group .parenthesis []]]]]]⟩
    ∃ nodesOf : Source.Function → List BodyNode, (∀ h, Enumerates (nodesOf h) (NodeIn h.body)) ∧
      callsAmong nodesOf "g" [f, g] = 2 ∧
      (∃ row row', (ofFunctions "a.rs" [g, g])[0]? = some row ∧
        (ofFunctions "a.rs" [g, g])[1]? = some row' ∧ row.callSiteCount = row'.callSiteCount) ∧
      (∃ row, ofFunctions "a.rs" [f, g] = [f, g].map row ∧
        ofFunctions "a.rs" [g, f] = [g, f].map row) ∧
      ofFunctions "a.rs" [f, g] =
        [f].zipWith (fun h row => row.withCalls (callsAmong nodesOf h.bareName [g]))
          (ofFunctions "a.rs" [f]) ++
        [g].zipWith (fun h row => row.withCalls (callsAmong nodesOf h.bareName [f]))
          (ofFunctions "a.rs" [g]) := by
  intro name callee f g
  obtain ⟨nodesOf, listed, rows⟩ := callSiteCount_counts_calls
  obtain ⟨each, -, permuted, split⟩ := rows "a.rs" [f, g]
  refine ⟨nodesOf, listed, ?_, (rows "a.rs" [g, g]).2.1 0 1 g g rfl rfl rfl,
    permuted [g, f] (.swap g f []), split [f] [g] rfl⟩
  obtain ⟨row, found, calls⟩ := each 1 g rfl
  cases found
  exact calls.symm

end FeatureRow
end CallStudy
