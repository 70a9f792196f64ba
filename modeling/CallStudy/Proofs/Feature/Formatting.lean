import CallStudy.Proofs.Source.Gaps

/-!
What the count of tokens owes to formatting. Gaps in a text show only where its tokens were left
unread, in the arguments of attributes and invocations: there punctuation characters without a gap
between them count as one.
-/

set_option autoImplicit false

namespace CallStudy.Source

/-- Texts of the same tokens with other gaps between them, but none between two characters that some
operator has next to each other. Texts such as `&&&` and `&& &` or `===` and `== =`, which have the
same operators only because the longest is taken first, are not among them. -/
def SameTokens (source source' : String) : Prop :=
  (Lexer.fileTokens? source).map Token.spaced = (Lexer.fileTokens? source').map Token.spaced

instance (source source' : String) : Decidable (SameTokens source source') :=
  inferInstanceAs (Decidable (_ = _))

/-- Texts that are read as the same trees but for gaps, or are both no source files. -/
def ReadAlike (source source' : String) : Prop :=
  ((Lexer.fileTokens? source).bind Syntax.parseFile?).map (List.map Tree.loose) =
    ((Lexer.fileTokens? source').bind Syntax.parseFile?).map (List.map Tree.loose)

theorem readAlike_of_sameTokens {source source' : String} (same : SameTokens source source') :
    ReadAlike source source' := by
  have spaced (tokens : List Token) := Grammar.parse?_spaced Syntax.blind_rules .file tokens
  rw [SameTokens] at same
  rw [ReadAlike]
  match Lexer.fileTokens? source, Lexer.fileTokens? source', same with
  | none, none, _ => rfl
  | some tokens, some tokens', same =>
    have equal : Token.spaced tokens = Token.spaced tokens' := Option.some.inj same
    change (Grammar.parse? Syntax.rules .file tokens).map _ =
      (Grammar.parse? Syntax.rules .file tokens').map _
    rw [← spaced tokens, equal, spaced tokens']

namespace Function

/-- Functions that differ in no more than gaps and what their names are qualified by. They count the
same tokens once every word does that runs on into the next one. -/
structure SameButGaps (f f' : Function) : Prop where
  bareName : f.bareName = f'.bareName
  tokenCount : f.tokenCount + f.runs = f'.tokenCount + f'.runs
  read : f.isRead → f.tokenCount = f'.tokenCount

theorem sameButGaps_of_unqualified_eq {f f' : Function} (same : f.unqualified = f'.unqualified) :
    SameButGaps f f' := by
  obtain ⟨bareName, parts⟩ := Prod.mk.inj same
  have words : f.tokenCount + f.runs = f'.tokenCount + f'.runs := by
    rw [tokenCount_add_runs, tokenCount_add_runs, parts]
  refine ⟨bareName, words, fun read => ?_⟩
  have read' : f'.isRead := by
    rw [isRead, ← Tree.isReadEach_looseEach, Tree.looseEach_eq_map, ← parts,
      ← Tree.looseEach_eq_map, Tree.isReadEach_looseEach]
    exact read
  rwa [runs_eq_zero_of_isRead read, runs_eq_zero_of_isRead read'] at words

theorem forall₂_sameButGaps {functions functions' : List Function}
    (same : functions.map unqualified = functions'.map unqualified) :
    List.Forall₂ SameButGaps functions functions' := by
  have each : List.Forall₂ (fun f f' => f.unqualified = f'.unqualified) functions functions' := by
    rw [← List.forall₂_map_right_iff, ← List.forall₂_map_left_iff, List.forall₂_eq_eq_eq]
    exact same
  exact each.imp fun _ _ => sameButGaps_of_unqualified_eq

/-- Formatting shows in the count of tokens only where tokens were left unread. Texts of the same
tokens are read alike. Texts that are read alike have the same functions in the same order, and the
counts of two of them differ by the words that run on into the next one, of which a function with
nothing left unread has none. -/
theorem formatting_shows_only_in_runs (source source' : String) :
    (SameTokens source source' → ReadAlike source source') ∧
    (ReadAlike source source' → (ofSource? source = none ∧ ofSource? source' = none) ∨
      ∃ functions functions', ofSource? source = some functions ∧
        ofSource? source' = some functions' ∧ List.Forall₂ SameButGaps functions functions') := by
  refine ⟨readAlike_of_sameTokens, fun alike => ?_⟩
  rw [ReadAlike] at alike
  rw [ofSource?_eq, ofSource?_eq]
  match (Lexer.fileTokens? source).bind Syntax.parseFile?,
    (Lexer.fileTokens? source').bind Syntax.parseFile?, alike with
  | none, none, _ => exact .inl ⟨rfl, rfl⟩
  | some items, some items', alike =>
    have equal : items.map Tree.loose = items'.map Tree.loose := Option.some.inj alike
    refine .inr ⟨_, _, rfl, rfl, forall₂_sameButGaps ?_⟩
    rw [← collectAll_loose, ← collectAll_loose items', Tree.looseEach_eq_map, equal,
      Tree.looseEach_eq_map]

/-- An invocation of an assignment of a negated name, without a gap between the signs or with one. -/
def negated (gap : String) : String := "fn f() \x7b m!(a =" ++ gap ++ "- b); \x7d"

theorem formatting_shows_only_in_runs_of_negated :
    ∃ f f', ofSource? (negated "") = some [f] ∧ ofSource? (negated " ") = some [f'] ∧
      SameButGaps f f' ∧ f.runs = 1 ∧ f'.runs = 0 := by
  have counted : (ofSource? (negated "")).map (·.map runs) = some [1] ∧
      (ofSource? (negated " ")).map (·.map runs) = some [0] := by decide +kernel
  obtain ⟨functions, collected, each⟩ := Option.map_eq_some_iff.mp counted.1
  obtain ⟨functions', collected', each'⟩ := Option.map_eq_some_iff.mp counted.2
  obtain ⟨f, rfl, one⟩ := List.map_eq_singleton_iff.mp each
  obtain ⟨f', rfl, zero⟩ := List.map_eq_singleton_iff.mp each'
  refine ⟨f, f', collected, collected', ?_, one, zero⟩
  obtain ⟨alike, read⟩ := formatting_shows_only_in_runs (negated "") (negated " ")
  rcases read (alike (by decide +kernel)) with ⟨none_, -⟩ | ⟨functions, functions', found, found', same⟩
  · rw [none_] at collected
    cases collected
  · obtain rfl : functions = [f] := Option.some.inj (found.symm.trans collected)
    obtain rfl : functions' = [f'] := Option.some.inj (found'.symm.trans collected')
    exact (List.forall₂_cons.mp same).1

/-- The same tokens count differently. -/
theorem gap_in_invocation_counted :
    SameTokens (negated "") (negated " ") ∧
      (ofSource? (negated "")).map (·.map tokenCount) = some [14] ∧
      (ofSource? (negated " ")).map (·.map tokenCount) = some [15] := by
  decide +kernel

end Function
end CallStudy.Source
