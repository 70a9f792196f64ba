import CallStudy.Proofs.Toml.Scalar
import CallStudy.Toml.Quoted

/-!
Written texts of a document read back, in each of the four styles. The style decides what a text
may hold: between single quotes nothing is escaped, so texts with escapes are between double ones.
-/

set_option autoImplicit false

namespace CallStudy.Toml

open Style

theorem isPlain_of_not_needsEscape {c : Char} (h : needsEscape c = false) (line : c ≠ '\n') :
    isPlain c := by
  simp only [needsEscape, isPlain] at *
  simp_all

theorem Ends.head_ne {rest : List Char} (ends : Ends rest) {quote : Char}
    (isQuote : quote = '"' ∨ quote = '\'') : rest.head? ≠ some quote := by
  obtain ⟨c, more, rfl, stop⟩ := ends
  rcases isQuote with rfl | rfl <;> rcases stop with rfl | rfl | rfl <;> simp

namespace Reader

/-! Plain characters. -/

theorem ne_of_isPlain {c : Char} (h : isPlain c) : c ≠ '\n' ∧ c ≠ '\r' := by
  constructor <;>
    · rintro rfl
      cases h

theorem basic_plain {c : Char} (text : List Char) (plain : isPlain c) (quote : c ≠ '"')
    (backslash : c ≠ '\\') : basic (c :: text) = cons c (basic text) := by
  rw [basic.eq_def]
  split <;> simp_all

theorem literal_plain {c : Char} (text : List Char) (plain : isPlain c) (quote : c ≠ '\'') :
    literal (c :: text) = cons c (literal text) := by
  rw [literal.eq_def]
  split <;> simp_all

theorem basicLines_plain {c : Char} (text : List Char) (plain : isPlain c) (quote : c ≠ '"')
    (backslash : c ≠ '\\') : basicLines false (c :: text) = cons c (basicLines false text) := by
  obtain ⟨line, carriage⟩ := ne_of_isPlain plain
  rw [basicLines.eq_def]
  split <;> simp_all

theorem literalLines_plain {c : Char} (text : List Char) (plain : isPlain c) (quote : c ≠ '\'') :
    literalLines (c :: text) = cons c (literalLines text) := by
  obtain ⟨line, carriage⟩ := ne_of_isPlain plain
  rw [literalLines.eq_def]
  split <;> simp_all

/-- A quote among lines that does not stand before two more belongs to the text. -/
theorem basicLines_quote {text : List Char} (alone : text.take 2 ≠ ['"', '"']) :
    basicLines false ('"' :: text) = cons '"' (basicLines false text) := by
  rw [basicLines.eq_def]
  split <;> simp_all
  next same =>
    obtain ⟨rfl, rfl⟩ := same
    rfl

theorem literalLines_quote {text : List Char} (alone : text.take 2 ≠ ['\'', '\'']) :
    literalLines ('\'' :: text) = cons '\'' (literalLines text) := by
  rw [literalLines.eq_def]
  split <;> simp_all
  next same =>
    obtain ⟨rfl, rfl⟩ := same
    rfl

/-! Escapes. -/

theorem ofCode_control : ∀ n < 128, ofCode ['0', '0', hexadecimalDigit (n / 16),
    hexadecimalDigit (n % 16)] = some (Char.ofNat n) := by
  decide +kernel

/-- A character between double quotes is written as itself, behind a backslash, or by its code. -/
theorem escape_cases (lines : Bool) {c : Char} (quote : c ≠ '"') :
    (escape lines c = [c] ∧ ((isPlain c ∧ c ≠ '\\') ∨ (lines ∧ c = '\n'))) ∨
      (∃ letter, escape lines c = ['\\', letter] ∧ unescaped letter = some c) ∨
      ∃ a b, escape lines c = ['\\', 'u', '0', '0', a, b] ∧ ofCode ['0', '0', a, b] = some c := by
  unfold escape
  split
  · next code =>
    obtain rfl : c = '\x08' := Char.toNat_inj.mp code
    exact .inr (.inl ⟨'b', rfl, rfl⟩)
  split
  · next tab => exact .inr (.inl ⟨'t', rfl, by rw [tab]; rfl⟩)
  split
  · next line =>
    cases lines with
    | true => exact .inl ⟨rfl, .inr ⟨rfl, line⟩⟩
    | false => exact .inr (.inl ⟨'n', rfl, by rw [line]; rfl⟩)
  split
  · next code =>
    obtain rfl : c = '\x0c' := Char.toNat_inj.mp code
    exact .inr (.inl ⟨'f', rfl, rfl⟩)
  split
  · next carriage => exact .inr (.inl ⟨'r', rfl, by rw [carriage]; rfl⟩)
  split
  · next backslash => exact .inr (.inl ⟨'\\', rfl, by rw [backslash]; rfl⟩)
  split
  · next control =>
    have code := ofCode_control c.toNat (by simp at control; omega)
    rw [Char.ofNat_toNat] at code
    exact .inr (.inr ⟨_, _, rfl, code⟩)
  · next backslash control =>
    refine .inl ⟨rfl, .inl ⟨?_, backslash⟩⟩
    simp only [isPlain]
    simp at control ⊢
    omega

theorem basic_escape {c : Char} (text : List Char) (quote : c ≠ '"') :
    basic (escape false c ++ text) = cons c (basic text) := by
  rcases escape_cases false quote with ⟨itself, ⟨plain, backslash⟩ | ⟨lines, -⟩⟩ |
    ⟨letter, written, read⟩ | ⟨a, b, written, read⟩
  · rw [itself]
    exact basic_plain text plain quote backslash
  · cases lines
  · rw [written]
    unfold unescaped at read
    split at read <;> cases read <;> rfl
  · simp only [written, List.cons_append, List.nil_append, basic, read, Option.bind_some]

theorem basicLines_escape {c : Char} (text : List Char) (quote : c ≠ '"') :
    basicLines false (escape true c ++ text) = cons c (basicLines false text) := by
  rcases escape_cases true quote with ⟨itself, ⟨plain, backslash⟩ | ⟨-, line⟩⟩ |
    ⟨letter, written, read⟩ | ⟨a, b, written, read⟩
  · rw [itself]
    exact basicLines_plain text plain quote backslash
  · rw [itself, line]
    rfl
  · rw [written]
    unfold unescaped at read
    split at read <;> cases read <;> rfl
  · simp only [written, List.cons_append, List.nil_append, basicLines, read, Option.bind_some]

/-- Nothing but a quote is written with a quote in front. -/
theorem head_escape (lines : Bool) {c : Char} (quote : c ≠ '"') :
    ∃ d more, escape lines c = d :: more ∧ d ≠ '"' := by
  rcases escape_cases lines quote with ⟨itself, -⟩ | ⟨letter, written, -⟩ | ⟨a, b, written, -⟩
  · exact ⟨c, [], itself, quote⟩
  · exact ⟨'\\', _, written, by decide⟩
  · exact ⟨'\\', _, written, by decide⟩

/-! Whole texts. -/

theorem basic_escaped (text rest : List Char) :
    basic (escaped false 0 text ++ '"' :: rest) = some (text, rest) := by
  induction text with
  | nil => rfl
  | cons c text ih =>
    by_cases quote : c = '"'
    · subst quote
      have backslash : basic ('\\' :: '"' :: (escaped false 0 text ++ '"' :: rest)) =
          cons '"' (basic (escaped false 0 text ++ '"' :: rest)) := rfl
      rw [escaped, if_pos rfl, if_neg (by decide)]
      simp only [List.cons_append, backslash, ih, cons, Option.map_some]
    · rw [escaped, if_neg quote, List.append_assoc, basic_escape _ quote, ih]
      rfl

theorem literal_plain_text {text : List Char} (plain : ∀ c ∈ text, isPlain c ∧ c ≠ '\'')
    (rest : List Char) : literal (text ++ '\'' :: rest) = some (text, rest) := by
  induction text with
  | nil => rfl
  | cons c text ih =>
    obtain ⟨first, others⟩ := List.forall_mem_cons.mp plain
    rw [List.cons_append, literal_plain _ first.1 first.2, ih others]
    rfl

/-- Behind `run` quotes the text goes on without two more, or ends with at most two in all. -/
theorem take_escaped {run : Nat} (few : run ≤ 2) (begun : 0 < run) (text rest : List Char) :
    text = [] ∨ (run = 1 ∧ text = ['"']) ∨
      (escaped true run text ++ rest).take 2 ≠ ['"', '"'] := by
  have apart {c : Char} (more : List Char) (quote : c ≠ '"') (run : Nat) :
      ∃ d after, escaped true run (c :: more) = d :: after ∧ d ≠ '"' := by
    obtain ⟨d, after, written, other⟩ := head_escape true quote
    exact ⟨d, after ++ escaped true 0 more, by rw [escaped, if_neg quote, written]; rfl, other⟩
  cases text with
  | nil => exact .inl rfl
  | cons c text =>
    refine .inr ?_
    by_cases quote : c = '"'
    · subst quote
      by_cases one : run = 1
      · subst one
        cases text with
        | nil => exact .inl ⟨rfl, rfl⟩
        | cons d text =>
          refine .inr ?_
          rw [escaped, if_pos rfl, if_pos (by decide)]
          by_cases second : d = '"'
          · rw [escaped, if_pos second, if_neg (by decide)]
            simp
          · obtain ⟨e, after, written, other⟩ := apart text second 2
            rw [written]
            simp [other]
      · rw [escaped, if_pos rfl, if_neg (by simp; omega)]
        simp
    · obtain ⟨e, after, written, other⟩ := apart text quote run
      rw [written]
      simp [other]

theorem basicLines_closing {rest : List Char} (after : rest.head? ≠ some '"') :
    basicLines false ('"' :: '"' :: '"' :: rest) = some ([], rest) ∧
      basicLines false ('"' :: '"' :: '"' :: '"' :: rest) = some (['"'], rest) := by
  cases rest with
  | nil => exact ⟨rfl, rfl⟩
  | cons c rest =>
    have other : c ≠ '"' := fun same => after (congrArg some same)
    constructor <;>
      · rw [basicLines] <;> simp [other]

theorem basicLines_escaped {run : Nat} (few : run ≤ 2) (text : List Char) {rest : List Char}
    (after : rest.head? ≠ some '"') :
    basicLines false (escaped true run text ++ '"' :: '"' :: '"' :: rest) = some (text, rest) := by
  induction text generalizing run with
  | nil => exact (basicLines_closing after).1
  | cons c text ih =>
    by_cases quote : c = '"'
    · subst quote
      by_cases room : run < 2
      · rw [escaped, if_pos rfl, if_pos (by simpa using room), List.cons_append]
        have few : run + 1 ≤ 2 := by omega
        rcases take_escaped few (Nat.succ_pos run) text ('"' :: '"' :: '"' :: rest) with
          rfl | ⟨one, rfl⟩ | alone
        · exact (basicLines_closing after).2
        · rw [one]
          rfl
        · rw [basicLines_quote alone, ih few]
          rfl
      · have backslash (text : List Char) : basicLines false ('\\' :: '"' :: text) =
          cons '"' (basicLines false text) := rfl
        rw [escaped, if_pos rfl, if_neg (by simpa using room)]
        simp only [List.cons_append, backslash, ih (Nat.zero_le 2), cons, Option.map_some]
    · rw [escaped, if_neg quote, List.append_assoc, basicLines_escape _ quote, ih (Nat.zero_le 2)]
      rfl

theorem le_longestRun (quote : Char) (run : Nat) (text : List Char) :
    run ≤ longestRun quote run text := by
  induction text generalizing run with
  | nil => exact Nat.le_refl run
  | cons c text ih =>
    rw [longestRun]
    split
    · have := ih (run + 1)
      omega
    · exact Nat.le_max_left _ _

theorem literalLines_closing {rest : List Char} (after : rest.head? ≠ some '\'') :
    literalLines ('\'' :: '\'' :: '\'' :: rest) = some ([], rest) ∧
      literalLines ('\'' :: '\'' :: '\'' :: '\'' :: rest) = some (['\''], rest) := by
  cases rest with
  | nil => exact ⟨rfl, rfl⟩
  | cons c rest =>
    have other : c ≠ '\'' := fun same => after (congrArg some same)
    constructor <;>
      · rw [literalLines] <;> simp [other]

/-- Behind a quote the text goes on without two more, or ends with at most two in all. -/
theorem take_text {run : Nat} {text : List Char} (runs : longestRun '\'' (run + 1) text ≤ 2)
    (rest : List Char) : text = [] ∨ text = ['\''] ∨ (text ++ rest).take 2 ≠ ['\'', '\''] := by
  cases text with
  | nil => exact .inl rfl
  | cons c text =>
    refine .inr ?_
    by_cases quote : c = '\''
    · subst quote
      cases text with
      | nil => exact .inl rfl
      | cons d text =>
        have other : d ≠ '\'' := by
          rintro rfl
          have := le_longestRun '\'' (run + 1 + 1 + 1) text
          simp only [longestRun, ↓reduceIte] at runs
          omega
        exact .inr (by simp [other])
    · exact .inr (by simp [quote])

theorem literalLines_text {run : Nat} {text : List Char} (runs : longestRun '\'' run text ≤ 2)
    (plain : ∀ c ∈ text, isPlain c ∨ c = '\n') {rest : List Char}
    (after : rest.head? ≠ some '\'') :
    literalLines (text ++ '\'' :: '\'' :: '\'' :: rest) = some (text, rest) := by
  induction text generalizing run with
  | nil => exact (literalLines_closing after).1
  | cons c text ih =>
    obtain ⟨first, others⟩ := List.forall_mem_cons.mp plain
    rw [longestRun] at runs
    by_cases quote : c = '\''
    · subst quote
      rw [if_pos rfl] at runs
      rw [List.cons_append]
      rcases take_text runs ('\'' :: '\'' :: '\'' :: rest) with rfl | rfl | alone
      · exact (literalLines_closing after).2
      · rfl
      · rw [literalLines_quote alone, ih runs others]
        rfl
    · rw [if_neg quote] at runs
      have read := ih (Nat.le_trans (Nat.le_max_right _ _) runs) others
      rcases first with first | rfl
      · rw [List.cons_append, literalLines_plain _ first quote, read]
        rfl
      · exact congrArg (cons '\n') read

/-! The four styles. -/

theorem dropLineEnd_lineStart {text written : List Char}
    (start : '\n' ∈ text ∨ (written.head? ≠ some '\n' ∧ written.head? ≠ some '\r')) :
    dropLineEnd (lineStart text ++ written) = written := by
  unfold lineStart
  split
  · rfl
  · next line =>
    obtain ⟨first, second⟩ := start.resolve_left (by simpa using line)
    cases written with
    | nil => rfl
    | cons c more =>
      rw [List.nil_append, dropLineEnd]
      · rintro text same
        exact first (congrArg some (List.head_eq_of_cons_eq same))
      · rintro text same
        exact second (congrArg some (List.head_eq_of_cons_eq same))

theorem quoted_basic {text : List Char} (open_ : text.take 2 ≠ ['"', '"']) :
    quoted ('"' :: text) = basic text := by
  rw [quoted]
  rintro more rfl
  exact open_ rfl

theorem quoted_literal {text : List Char} (open_ : text.take 2 ≠ ['\'', '\'']) :
    quoted ('\'' :: text) = literal text := by
  rw [quoted]
  rintro more rfl
  exact open_ rfl

theorem quoted_write_basic (text : List Char) {rest : List Char} (ends : Ends rest) :
    quoted (Style.write text .basic ++ rest) = some (text, rest) := by
  have after := ends.head_ne (.inl rfl)
  have single : (escaped false 0 text ++ '"' :: rest).take 2 ≠ ['"', '"'] := by
    cases text with
    | nil =>
      cases rest with
      | nil => simp [escaped]
      | cons c rest => simpa [escaped] using after
    | cons c text =>
      by_cases quote : c = '"'
      · rw [escaped, if_pos quote, if_neg (by decide)]
        simp
      · obtain ⟨d, more, written, other⟩ := head_escape false quote
        rw [escaped, if_neg quote, written]
        simp [other]
  rw [Style.write, List.cons_append, List.cons_append, List.append_assoc, List.singleton_append,
    quoted_basic single, basic_escaped]

theorem quoted_write_literal {text : List Char} (plain : ∀ c ∈ text, isPlain c ∧ c ≠ '\'')
    {rest : List Char} (ends : Ends rest) :
    quoted (Style.write text .literal ++ rest) = some (text, rest) := by
  have after := ends.head_ne (.inr rfl)
  have single : (text ++ '\'' :: rest).take 2 ≠ ['\'', '\''] := by
    cases text with
    | nil =>
      cases rest with
      | nil => simp
      | cons c rest => simpa using after
    | cons c text => simp [(plain c List.mem_cons_self).2]
  rw [Style.write, List.cons_append, List.cons_append, List.append_assoc, List.singleton_append,
    quoted_literal single, literal_plain_text plain]

theorem quoted_write_basicLines (text : List Char) {rest : List Char} (ends : Ends rest) :
    quoted (Style.write text .basicLines ++ rest) = some (text, rest) := by
  have start : '\n' ∈ text ∨
      ((escaped true 0 text ++ '"' :: '"' :: '"' :: rest).head? ≠ some '\n' ∧
        (escaped true 0 text ++ '"' :: '"' :: '"' :: rest).head? ≠ some '\r') := by
    cases text with
    | nil => exact .inr ⟨by simp [escaped], by simp [escaped]⟩
    | cons c text =>
      by_cases quote : c = '"'
      · subst quote
        exact .inr ⟨by simp [escaped], by simp [escaped]⟩
      · rw [escaped, if_neg quote]
        rcases escape_cases true quote with ⟨itself, ⟨plain, -⟩ | ⟨-, rfl⟩⟩ |
          ⟨letter, written, -⟩ | ⟨a, b, written, -⟩
        · exact .inr (by simpa [itself] using ne_of_isPlain plain)
        · exact .inl List.mem_cons_self
        · exact .inr (by simp [written])
        · exact .inr (by simp [written])
  have parts : Style.write text .basicLines ++ rest = '"' :: '"' :: '"' ::
      (lineStart text ++ (escaped true 0 text ++ '"' :: '"' :: '"' :: rest)) := by
    simp [Style.write]
  rw [parts, quoted, dropLineEnd_lineStart start,
    basicLines_escaped (Nat.zero_le 2) text (ends.head_ne (.inl rfl))]

theorem quoted_write_literalLines {text : List Char} (runs : longestRun '\'' 0 text ≤ 2)
    (plain : ∀ c ∈ text, isPlain c ∨ c = '\n') {rest : List Char} (ends : Ends rest) :
    quoted (Style.write text .literalLines ++ rest) = some (text, rest) := by
  have start : '\n' ∈ text ∨ ((text ++ '\'' :: '\'' :: '\'' :: rest).head? ≠ some '\n' ∧
      (text ++ '\'' :: '\'' :: '\'' :: rest).head? ≠ some '\r') := by
    cases text with
    | nil => exact .inr ⟨by simp, by simp⟩
    | cons c text =>
      rcases plain c List.mem_cons_self with first | rfl
      · exact .inr (by simpa using ne_of_isPlain first)
      · exact .inl List.mem_cons_self
  have parts : Style.write text .literalLines ++ rest = '\'' :: '\'' :: '\'' ::
      (lineStart text ++ (text ++ '\'' :: '\'' :: '\'' :: rest)) := by
    simp [Style.write]
  rw [parts, quoted, dropLineEnd_lineStart start,
    literalLines_text runs plain (ends.head_ne (.inr rfl))]

theorem not_mem_of_longestRun_eq_zero {quote : Char} {text : List Char}
    (h : longestRun quote 0 text = 0) : quote ∉ text := by
  induction text with
  | nil => exact List.not_mem_nil
  | cons c text ih =>
    rw [longestRun] at h
    split at h
    · have := le_longestRun quote (0 + 1) text
      omega
    · next other =>
      have rest := ih (by omega)
      simp [rest, Ne.symm other]

/-- Every text reads back from the quotes it is written in. -/
theorem quoted_quote (text : List Char) {rest : List Char} (ends : Ends rest) :
    quoted (quote text ++ rest) = some (text, rest) := by
  have plain (unescaped : text.any needsEscape = false) (c : Char) (mem : c ∈ text) :
      isPlain c ∨ c = '\n' := by
    by_cases line : c = '\n'
    · exact .inr line
    · have kept := List.any_eq_false.mp unescaped c mem
      exact .inl (isPlain_of_not_needsEscape (by simpa using kept) line)
  unfold quote choose
  simp only [Bool.and_eq_true, Bool.not_eq_true', decide_eq_true_eq]
  split
  · exact quoted_write_basic text ends
  split
  · next literal =>
    obtain ⟨⟨unescaped, lines⟩, singles⟩ := literal
    refine quoted_write_literal (fun c mem => ⟨?_, ?_⟩) ends
    · apply (plain unescaped c mem).resolve_right
      rintro rfl
      simp [mem] at lines
    · rintro rfl
      exact not_mem_of_longestRun_eq_zero singles mem
  split
  · exact quoted_write_basicLines text ends
  split
  · next literalLines =>
    exact quoted_write_literalLines literalLines.2 (plain literalLines.1) ends
  split
  · exact quoted_write_basicLines text ends
  · exact quoted_write_basic text ends

end Reader

end CallStudy.Toml
