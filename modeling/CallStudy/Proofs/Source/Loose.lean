import CallStudy.Proofs.Source.Spacing

/-!
Trees with a gap behind every punctuation character. What the grammar asks of the trees read so far
is the same for them.
-/

set_option autoImplicit false

namespace CallStudy.Source

namespace Tree

mutual
/-- The tree with a gap behind every punctuation character. -/
def loose : Tree → Tree
  | word ts => word (Token.looseEach ts)
  | raw ts => raw (Token.looseEach ts)
  | group d content => group d (looseEach content)
  | node kind parts => node kind (looseEach parts)

def looseEach : List Tree → List Tree
  | [] => []
  | t :: rest => t.loose :: looseEach rest
end

theorem looseEach_eq_map (trees : List Tree) : looseEach trees = trees.map loose := by
  induction trees with
  | nil => rfl
  | cons t rest ih => rw [looseEach, ih, List.map_cons]

mutual
@[simp] theorem loose_loose (t : Tree) : t.loose.loose = t.loose := by
  match t with
  | word ts => simp only [loose, Token.looseEach_looseEach]
  | raw ts => simp only [loose, Token.looseEach_looseEach]
  | group d content => simp only [loose, looseEach_looseEach content]
  | node kind parts => simp only [loose, looseEach_looseEach parts]

theorem looseEach_looseEach (trees : List Tree) :
    looseEach (looseEach trees) = looseEach trees := by
  match trees with
  | [] => rfl
  | t :: rest => simp only [looseEach, loose_loose t, looseEach_looseEach rest]
end

theorem loose_comp_loose : loose ∘ loose = loose := funext loose_loose

@[simp] theorem loose_group (d : Delimiter) (content : List Tree) :
    (group d content).loose = group d (content.map loose) := by
  rw [loose, looseEach_eq_map]

@[simp] theorem loose_node (kind : Kind) (parts : List Tree) :
    (node kind parts).loose = node kind (parts.map loose) := by
  rw [loose, looseEach_eq_map]

@[simp] theorem children_loose (t : Tree) : t.loose.children = t.children.map loose := by
  cases t with
  | node _ _ => rw [loose_node, children, children]
  | group _ _ => rw [loose_group, children, children]
  | _ => rfl

@[simp] theorem isNode_loose (kind : Kind) (t : Tree) : t.loose.isNode kind = t.isNode kind := by
  cases t with
  | node _ _ => simp [isNode]
  | group _ _ => simp [isNode]
  | _ => rfl

theorem loose_word (ts : List Token) : (word ts).loose = word (ts.map Token.loose) := by
  rw [loose, Token.looseEach_eq_map]

@[simp] theorem wordText?_loose (t : Tree) : t.loose.wordText? = t.wordText? := by
  match t with
  | word [] => rfl
  | word [one] => cases one <;> rfl
  | word (first :: _ :: _) => cases first <;> rfl
  | raw _ => rfl
  | group _ _ => rfl
  | node _ _ => rfl

@[simp] theorem isOperator_loose (text : String) (t : Tree) :
    t.loose.isOperator text = t.isOperator text := by
  match t with
  | word ts =>
    rw [loose_word, isOperator, isOperator, List.length_map, List.zip_map_left, List.all_map]
    congr 2
    funext ⟨token, _⟩
    cases token <;> rfl
  | raw _ => rfl
  | group _ _ => rfl
  | node _ _ => rfl

theorem loose_eq_node_iff {t : Tree} {kind : Kind} {parts : List Tree} :
    t.loose = node kind parts ↔ ∃ inner, t = node kind inner ∧ inner.map loose = parts := by
  cases t <;> simp [loose, looseEach_eq_map]

theorem loose_eq_group_iff {t : Tree} {d : Delimiter} {content : List Tree} :
    t.loose = group d content ↔ ∃ inner, t = group d inner ∧ inner.map loose = content := by
  cases t <;> simp [loose, looseEach_eq_map]

theorem looseEach_eq_ident_iff {ts : List Token} {text : String} :
    Token.looseEach ts = [.ident text] ↔ ts = [.ident text] := by
  match ts with
  | [] => simp [Token.looseEach]
  | [one] => cases one <;> simp [Token.looseEach, Token.loose]
  | _ :: _ :: _ => simp [Token.looseEach]

theorem loose_eq_word_ident_iff {t : Tree} {text : String} :
    t.loose = word [.ident text] ↔ t = word [.ident text] := by
  cases t <;> simp [loose, looseEach_eq_ident_iff]

theorem loose_eq_raw_ident_iff {t : Tree} {text : String} :
    t.loose = raw [.ident text] ↔ t = raw [.ident text] := by
  cases t <;> simp [loose, looseEach_eq_ident_iff]

mutual
theorem tokens_loose (t : Tree) : t.loose.tokens = t.tokens.map Token.loose := by
  match t with
  | word ts => exact Token.looseEach_eq_map ts
  | raw ts => exact Token.looseEach_eq_map ts
  | group d content =>
    rw [loose, tokens, tokens, tokensList_looseEach content, ← Token.looseEach_eq_map]
    rfl
  | node kind parts => exact tokensList_looseEach parts

theorem tokensList_looseEach (trees : List Tree) :
    tokensList (looseEach trees) = (tokensList trees).map Token.loose := by
  match trees with
  | [] => rfl
  | t :: rest =>
    rw [looseEach, tokensList, tokensList, tokens_loose t, tokensList_looseEach rest, List.map_append]
end

end Tree

namespace Syntax

open Source.Tree

section Views

variable (built : List Tree)

@[simp] theorem hasNode_loose (kind : Kind) : hasNode kind (built.map loose) = hasNode kind built := by
  simp [hasNode, Function.comp_def]

@[simp] theorem hasOperator_loose (text : String) :
    hasOperator text (built.map loose) = hasOperator text built := by
  simp [hasOperator, Function.comp_def]

@[simp] theorem hasWord_loose (text : String) : hasWord text (built.map loose) = hasWord text built := by
  simp [hasWord, Function.comp_def]

@[simp] theorem headIs_loose (kind : Kind) : headIs kind (built.map loose) = headIs kind built := by
  cases built with
  | nil => rfl
  | cons t _ => exact isNode_loose kind t

@[simp] theorem blockLike_loose : blockLike (built.map loose) = blockLike built := by
  cases built with
  | nil => rfl
  | cons t _ => cases t <;> rfl

@[simp] theorem isHalfOpen_loose : isHalfOpen (built.map loose) = isHalfOpen built := by
  match built with
  | [] => rfl
  | .node kind _ :: _ => cases kind <;> simp [isHalfOpen]
  | .word _ :: _ => rfl
  | .raw _ :: _ => rfl
  | .group _ _ :: _ => rfl

theorem namesAssociated_iff : namesAssociated built ↔
    ∃ rest words, built = .node .pathType [.node .path [.node .segment words]] :: rest := by
  unfold namesAssociated
  split <;> simp_all

@[simp] theorem namesAssociated_loose :
    namesAssociated (built.map loose) = namesAssociated built := by
  rw [Bool.eq_iff_iff, namesAssociated_iff, namesAssociated_iff]
  simp [List.map_eq_cons_iff, loose_eq_node_iff]

theorem isPlainPath_iff : isPlainPath built ↔ ∃ rest parts, built = .node .path parts :: rest ∧
    ∀ words, .node .segment words ∈ parts → words.length = 1 := by
  unfold isPlainPath
  split
  · next parts rest =>
    rw [List.all_eq_true]
    constructor
    · intro each
      refine ⟨rest, parts, rfl, fun words mem => ?_⟩
      simpa using each _ mem
    · intro ⟨_, _, same, each⟩ part mem
      cases same
      split
      · simpa using each _ mem
      · rfl
  · simp_all

@[simp] theorem isPlainPath_loose : isPlainPath (built.map loose) = isPlainPath built := by
  rw [Bool.eq_iff_iff, isPlainPath_iff, isPlainPath_iff]
  simp [List.map_eq_cons_iff, loose_eq_node_iff]

@[simp] theorem invoked_loose (ts : List Token) :
    invoked (built.map loose) (Token.spaced ts) = invoked built ts := by
  simp [invoked, Ahead.fits, Token.joins]

theorem endsBare_iff : endsBare built ↔ ∃ rest parts words, built = .node .path parts :: rest ∧
    parts.getLast? = some (.node .segment words) ∧ ((∃ word, words = [word]) ∨
      ∃ word arguments, words = [word, .node .genericArguments arguments] ∧
        ∀ a ∈ arguments, ∃ tokens, a = .word tokens) := by
  constructor
  · intro bare
    unfold endsBare at bare
    split at bare
    · split at bare
      · next last => exact ⟨_, _, _, rfl, last, .inl ⟨_, rfl⟩⟩
      · next arguments last =>
        refine ⟨_, _, _, rfl, last, .inr ⟨_, arguments, rfl, fun a mem => ?_⟩⟩
        have word := List.all_eq_true.mp bare a mem
        split at word
        · exact ⟨_, rfl⟩
        · cases word
      · cases bare
    · cases bare
  · rintro ⟨rest, parts, _, rfl, last, ⟨word, rfl⟩ | ⟨word, arguments, rfl, each⟩⟩
    · simp only [endsBare, last]
    · simp only [endsBare, last, List.all_eq_true]
      intro a mem
      obtain ⟨tokens, rfl⟩ := each a mem
      rfl

theorem exists_loose_eq_word {t : Tree} : (∃ tokens, t.loose = .word tokens) ↔
    ∃ tokens, t = .word tokens := by
  cases t <;> simp [loose]

@[simp] theorem endsBare_loose : endsBare (built.map loose) = endsBare built := by
  rw [Bool.eq_iff_iff, endsBare_iff, endsBare_iff]
  simp [List.map_eq_cons_iff, loose_eq_node_iff, exists_loose_eq_word]

theorem couldBeBound_iff : couldBeBound built ↔
    (∃ parts, built = [.node .pathType [.node .path parts]]) ∨
      ∃ trees, built = [.node .objectType trees] ∧ hasNode .bound trees ∧ ¬ hasOperator "+" trees ∧
        ¬ hasWord "dyn" trees := by
  unfold couldBeBound
  split
  · simp
  · simp [hasWord, and_assoc]
  · next path object =>
    simp only [Bool.false_eq_true, false_iff, not_or, not_exists, not_and]
    exact ⟨path, fun trees same => absurd same (object trees)⟩

@[simp] theorem couldBeBound_loose : couldBeBound (built.map loose) = couldBeBound built := by
  rw [Bool.eq_iff_iff, couldBeBound_iff, couldBeBound_iff]
  simp [List.map_eq_cons_iff, List.map_eq_nil_iff, loose_eq_node_iff]

@[simp] theorem endsInBrace_loose : endsInBrace (built.map loose) = endsInBrace built := by
  cases built with
  | nil => rfl
  | cons t _ =>
    rw [List.map_cons, endsInBrace, endsInBrace, tokens_loose, List.getLast?_map]
    cases t.tokens.getLast? with
    | none => rfl
    | some last =>
      cases last with
      | group d _ => cases d <;> rfl
      | _ => rfl

/-- Whether a statement that ends with this tree has to be the last one. -/
def mustEnd : Tree → Bool
  | .node .localVariable _ => false
  | .node .invocation parts => !endsInBrace parts.reverse
  | .word _ => false
  | last => !blockLike [last]

theorem mustEnd_loose (t : Tree) : mustEnd t.loose = mustEnd t := by
  match t with
  | .node kind parts =>
    have reversed := endsInBrace_loose parts.reverse
    rw [List.map_reverse] at reversed
    cases kind <;> simp [mustEnd, blockLike, reversed]
  | .word _ => rfl
  | .raw _ => rfl
  | .group _ _ => rfl

theorem mustBeLast_iff : mustBeLast built ↔ ∃ rest parts last, built = .node .statement parts :: rest ∧
    parts.getLast? = some last ∧ mustEnd last := by
  constructor
  · intro must
    unfold mustBeLast at must
    split at must
    · split at must
      · cases must
      · next last => exact ⟨_, _, _, rfl, last, must⟩
      · cases must
      · next t variable_ invocation word last =>
        refine ⟨_, _, t, rfl, last, ?_⟩
        rw [mustEnd]
        · exact must
        · exact variable_
        · exact invocation
        · exact word
      · cases must
    · cases must
  · rintro ⟨rest, parts, last, rfl, at_, must⟩
    unfold mustEnd at must
    simp only [mustBeLast, at_]
    split at must
    · cases must
    · exact must
    · cases must
    · split <;> simp_all

@[simp] theorem mustBeLast_loose : mustBeLast (built.map loose) = mustBeLast built := by
  rw [Bool.eq_iff_iff, mustBeLast_iff, mustBeLast_iff]
  simp [List.map_eq_cons_iff, loose_eq_node_iff, mustEnd_loose]

theorem implementsPath_iff : implementsPath built ↔ ∃ before rest path,
    built = before ++ .word [.ident "for"] :: .node .pathType [.node .path path] :: rest := by
  fun_induction implementsPath built with
  | case1 path rest =>
    simp only [true_iff]
    exact ⟨[], rest, path, rfl⟩
  | case2 first rest other ih =>
    rw [ih]
    constructor
    · rintro ⟨before, behind, path, rfl⟩
      exact ⟨first :: before, behind, path, rfl⟩
    · rintro ⟨before, behind, path, same⟩
      cases before with
      | nil =>
        cases same
        exact absurd rfl (other path behind rfl)
      | cons _ before =>
        cases same
        exact ⟨before, behind, path, rfl⟩
  | case3 => simp

@[simp] theorem implementsPath_loose : implementsPath (built.map loose) = implementsPath built := by
  rw [Bool.eq_iff_iff, implementsPath_iff, implementsPath_iff]
  simp [List.map_eq_cons_iff, List.map_eq_append_iff, loose_eq_node_iff, loose_eq_word_ident_iff]

end Views
end Syntax
end CallStudy.Source
