import CallStudy.Feature.Row
import CallStudy.Proofs.Source.Undocumented

/-!
What comments have to do with rows. Those of an item itself have nothing to do with them, and
those inside of a function only add their words to its count of tokens.
-/

set_option autoImplicit false

namespace CallStudy

namespace FeatureRow

open Source Source.Tree

/-- A row with more tokens. -/
def withTokens (more : Nat) (r : FeatureRow) : FeatureRow :=
  { r with tokenCount := r.tokenCount + more }

theorem ofFunction_bare (fileName : String) (functions : List Source.Function)
    (f : Source.Function) : ofFunction fileName functions f =
      (ofFunction fileName (functions.map Function.bare) f.bare).withTokens f.commentWords := by
  have branches := f.totalOf_openedBody_bare steady_branches ignoresComments_branches
  have locals := f.totalOf_openedBody_bare steady_localCount ignoresComments_localCount
  have statements := f.totalOf_openedBody_bare steady_statementCount ignoresComments_statementCount
  have calls : Source.Function.callsOf f.bareName ∘ Function.bare =
      Source.Function.callsOf f.bareName := funext fun g =>
    g.totalOf_openedBody_bare (steady_callCount _) (ignoresComments_callCount _)
  have sites : ((functions.map Function.bare).map (Source.Function.callsOf f.bareName)) =
      functions.map (Source.Function.callsOf f.bareName) := by rw [List.map_map, calls]
  have complexReturn : f.bare.isComplexReturn = f.isComplexReturn := by
    rw [Source.Function.isComplexReturn, Source.Function.isComplexReturn, f.returnType?_bare]
  unfold withTokens ofFunction
  rw [f.tokenCount_eq, f.parameterCount_bare, f.isGeneric_bare, complexReturn]
  congr 1
  · exact congrArg (1 + ·) branches.symm
  · exact locals.symm
  · exact statements.symm
  · exact congrArg (List.foldr (· + ·) 0) sites.symm

/-- Rows to which the words of the comments inside of their functions are added. -/
def withComments (functions : List Source.Function) (rows : List FeatureRow) : List FeatureRow :=
  List.zipWith (fun f row => row.withTokens f.commentWords) functions rows

theorem ofFunctions_eq_withComments (fileName : String) (functions : List Source.Function) :
    ofFunctions fileName functions =
      withComments functions (ofFunctions fileName (functions.map Function.bare)) := by
  rw [withComments, ofFunctions, ofFunctions, List.map_map, List.zipWith_map_right,
    List.zipWith_self]
  exact List.map_congr_left fun f _ => ofFunction_bare fileName functions f

/-- Comments are counted as tokens, and that is all they do. Two texts with the same trees but for
comments have the same functions and rows, to which each adds the words of the comments that stand
inside of its functions: six or seven for a comment, and none for those of the function itself. The
comments meant are those that `bareFront` takes out, not those that `Kind.commentPlace` names as
staying, such as those in generics or among the parameters of a closure. -/
theorem comments_only_count_as_tokens (fileName : String) {source source' : String}
    {items items' : List Tree}
    (parsed : (Lexer.fileTokens? source).bind Syntax.parseFile? = some items)
    (parsed' : (Lexer.fileTokens? source').bind Syntax.parseFile? = some items')
    (same : bareFront items = bareFront items') :
    ∃ (functions functions' : List Source.Function) (rows : List FeatureRow),
      Function.ofSource? source = some functions ∧ functions.length = rows.length ∧
      Function.ofSource? source' = some functions' ∧ functions'.length = rows.length ∧
      ofSource? fileName source = some (withComments functions rows) ∧
      ofSource? fileName source' = some (withComments functions' rows) ∧
      ∀ f ∈ functions ++ functions',
        (∀ c ∈ f.comments, c.printedCount = 6 ∨ c.printedCount = 7) ∧
          ∀ c : Tree, c.isDocComment → ¬ f.Bears c := by
  have collected : Function.ofSource? source = some (Function.collectAll items) := by
    rw [Function.ofSource?_eq, parsed]
    rfl
  have collected' : Function.ofSource? source' = some (Function.collectAll items') := by
    rw [Function.ofSource?_eq, parsed']
    rfl
  have bared : (Function.collectAll items').map Function.bare =
      (Function.collectAll items).map Function.bare := by
    rw [← Function.collectAll_bareFront, ← same, Function.collectAll_bareFront]
  have length := congrArg List.length bared
  rw [List.length_map, List.length_map] at length
  refine ⟨_, _, ofFunctions fileName ((Function.collectAll items).map Function.bare), collected,
    ?_, collected', ?_, ?_, ?_, fun f mem => ⟨fun c inside => ?_, fun c comment => ?_⟩⟩
  · rw [ofFunctions, List.length_map, List.length_map]
  · rw [ofFunctions, List.length_map, List.length_map, length]
  · rw [ofSource?, collected, Option.map_some, ofFunctions_eq_withComments]
  · rw [ofSource?, collected', Option.map_some, ofFunctions_eq_withComments, bared]
  · exact printedCount_of_isDocComment (f.isDocComment_of_mem_comments inside)
  · obtain first | second := List.mem_append.mp mem
    · obtain ⟨item, -, from_⟩ := (Function.mem_collectAll_iff f items).mp first
      exact Function.not_bears_comment from_ comment
    · obtain ⟨item, -, from_⟩ := (Function.mem_collectAll_iff f items').mp second
      exact Function.not_bears_comment from_ comment

theorem comments_only_count_as_tokens_on_a_statement :
    ∃ (functions functions' : List Source.Function) (rows : List FeatureRow),
      ofSource? "a.rs" "fn f() \x7b\n    /// note\n    let x = 1;\n\x7d\n" =
        some (withComments functions rows) ∧
      ofSource? "a.rs" "fn f() \x7b\n    let x = 1;\n\x7d\n" = some (withComments functions' rows) ∧
      functions.map Function.commentWords = [6] ∧ functions'.map Function.commentWords = [0] := by
  let source := "fn f() \x7b\n    /// note\n    let x = 1;\n\x7d\n"
  let source' := "fn f() \x7b\n    let x = 1;\n\x7d\n"
  let parse (text : String) := (Lexer.fileTokens? text).bind Syntax.parseFile?
  let words (text : String) := (Function.ofSource? text).map (·.map Function.commentWords)
  obtain ⟨items, parsed⟩ := Option.isSome_iff_exists.mp
    (show (parse source).isSome from by decide +kernel)
  obtain ⟨items', parsed'⟩ := Option.isSome_iff_exists.mp
    (show (parse source').isSome from by decide +kernel)
  have same : (parse source).map bareFront = (parse source').map bareFront := by decide +kernel
  rw [parsed, parsed'] at same
  obtain ⟨functions, functions', rows, collected, -, collected', -, first, second, -⟩ :=
    comments_only_count_as_tokens "a.rs" parsed parsed' (Option.some.inj same)
  have counted : words source = some [6] := by decide +kernel
  have counted' : words source' = some [0] := by decide +kernel
  dsimp only [words] at counted counted'
  rw [collected] at counted
  rw [collected'] at counted'
  exact ⟨functions, functions', rows, first, second, Option.some.inj counted,
    Option.some.inj counted'⟩

/-- A comment on a statement makes a row another one. -/
theorem comment_on_a_statement_counted :
    ofSource? "a.rs" "fn f() \x7b\n    /// note\n    let x = 1;\n\x7d\n" ≠
      ofSource? "a.rs" "fn f() \x7b\n    let x = 1;\n\x7d\n" := by
  decide +kernel

end FeatureRow
end CallStudy
