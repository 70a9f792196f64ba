import CallStudy.Source.Tree

/-!
Grammars as data, and the one function that reads tokens by them. A grammar decides by looking at
the trees built so far and the tokens ahead, and never backs up. What has been read is always the
tokens of the trees built (`Grammar.Keeps`), so a tree that spans a whole text has its tokens.
-/

namespace CallStudy.Source

/-- A grammar over rule names `ρ`. -/
inductive Grammar (ρ : Type) where
  /-- Reads nothing. -/
  | empty
  /-- Reads nothing and is refused. -/
  | refuse
  /-- One word made of as many of the tokens ahead as `width` says; none is a refusal. -/
  | word (width : List Token → Nat)
  /-- All tokens that are left, unread. -/
  | remainder
  /-- A group of brackets whose whole content the inner grammar reads. -/
  | group (delimiter : Delimiter) (content : Grammar ρ)
  | seq (first second : Grammar ρ)
  /-- What the inner grammar reads, as one node. -/
  | node (kind : Kind) (content : Grammar ρ)
  /-- What the inner grammar reads, as trees of their own that it alone can see. -/
  | fresh (content : Grammar ρ)
  /-- Everything built so far here and what the inner grammar reads, as one node. -/
  | enclose (kind : Kind) (content : Grammar ρ)
  /-- Goes on as the trees built so far, the latest first, and the tokens ahead decide. -/
  | decide (choice : List Tree → List Token → Grammar ρ)
  /-- Goes on by a named rule. -/
  | rule (name : ρ)

namespace Grammar

/-- Trees built so far, the latest first, and the tokens ahead. -/
structure State where
  built : List Tree
  ahead : List Token

variable {ρ : Type}

/-- Reads by a grammar, given how its rules read. -/
def read (rules : ρ → State → Option State) : Grammar ρ → State → Option State
  | empty, s => some s
  | refuse, _ => none
  | word width, s =>
    let n := width s.ahead
    if 0 < n ∧ n ≤ s.ahead.length then
      some ⟨.word (s.ahead.take n) :: s.built, s.ahead.drop n⟩
    else none
  | remainder, s => some ⟨.raw s.ahead :: s.built, []⟩
  | group d content, s =>
    match s.ahead with
    | .group d' inside :: rest =>
      if d' = d then
        match read rules content ⟨[], inside⟩ with
        | some ⟨trees, []⟩ => some ⟨.group d trees.reverse :: s.built, rest⟩
        | _ => none
      else none
    | _ => none
  | seq first second, s =>
    match read rules first s with
    | some s => read rules second s
    | none => none
  | node kind content, s =>
    match read rules content ⟨[], s.ahead⟩ with
    | some inner => some ⟨.node kind inner.built.reverse :: s.built, inner.ahead⟩
    | none => none
  | fresh content, s =>
    match read rules content ⟨[], s.ahead⟩ with
    | some inner => some ⟨inner.built ++ s.built, inner.ahead⟩
    | none => none
  | enclose kind content, s =>
    match read rules content s with
    | some inner => some ⟨[.node kind inner.built.reverse], inner.ahead⟩
    | none => none
  | decide choice, s => read rules (choice s.built s.ahead) s
  | rule name, s => rules name s

/-- Reads by a rule of `rules`, at most `fuel` rules deep. -/
def readRule (rules : ρ → Grammar ρ) : Nat → ρ → State → Option State
  | 0, _, _ => none
  | fuel + 1, name, s => read (readRule rules fuel) (rules name) s

/-! What a grammar reads, from what the grammars in it read. -/

section Read

variable {rules : ρ → State → Option State} {s t : State} {content : Grammar ρ}

theorem read_word_eq_some_iff {width : List Token → Nat} :
    read rules (word width) s = some t ↔
      (0 < width s.ahead ∧ width s.ahead ≤ s.ahead.length) ∧
        t = ⟨.word (s.ahead.take (width s.ahead)) :: s.built, s.ahead.drop (width s.ahead)⟩ := by
  simp only [read, Option.ite_none_right_eq_some, Option.some.injEq]
  exact and_congr_right fun _ => eq_comm

theorem read_group_eq_some_iff {d : Delimiter} :
    read rules (group d content) s = some t ↔ ∃ inside rest trees,
      s.ahead = .group d inside :: rest ∧ read rules content ⟨[], inside⟩ = some ⟨trees, []⟩ ∧
        t = ⟨.group d trees.reverse :: s.built, rest⟩ := by
  constructor
  · intro h
    simp only [read] at h
    split at h
    · next d' inside rest ahead =>
      split at h
      · next same =>
        split at h
        · next trees inner =>
          cases h
          exact ⟨inside, rest, trees, same ▸ ahead, inner, rfl⟩
        · cases h
      · cases h
    · cases h
  · rintro ⟨inside, rest, trees, ahead, inner, rfl⟩
    simp only [read, ahead, if_true, inner]

theorem read_seq_eq_some_iff {first second : Grammar ρ} :
    read rules (seq first second) s = some t ↔
      ∃ half, read rules first s = some half ∧ read rules second half = some t := by
  simp only [read]
  cases read rules first s <;> simp

theorem read_node_eq_some_iff {kind : Kind} :
    read rules (node kind content) s = some t ↔ ∃ inner,
      read rules content ⟨[], s.ahead⟩ = some inner ∧
        t = ⟨.node kind inner.built.reverse :: s.built, inner.ahead⟩ := by
  simp only [read]
  cases read rules content ⟨[], s.ahead⟩ <;> simp [eq_comm]

theorem read_fresh_eq_some_iff :
    read rules (fresh content) s = some t ↔ ∃ inner,
      read rules content ⟨[], s.ahead⟩ = some inner ∧
        t = ⟨inner.built ++ s.built, inner.ahead⟩ := by
  simp only [read]
  cases read rules content ⟨[], s.ahead⟩ <;> simp [eq_comm]

theorem read_enclose_eq_some_iff {kind : Kind} :
    read rules (enclose kind content) s = some t ↔ ∃ inner,
      read rules content s = some inner ∧ t = ⟨[.node kind inner.built.reverse], inner.ahead⟩ := by
  simp only [read]
  cases read rules content s <;> simp [eq_comm]

end Read

/-- Reading moves tokens from the ones ahead to the trees built, and loses none. -/
def Keeps (reader : State → Option State) : Prop :=
  ∀ s t, reader s = some t →
    Tree.tokensList t.built.reverse ++ t.ahead = Tree.tokensList s.built.reverse ++ s.ahead

theorem Keeps.fresh {reader : State → Option State} (keeps : Keeps reader) {tokens : List Token}
    {inner : State} (h : reader ⟨[], tokens⟩ = some inner) :
    Tree.tokensList inner.built.reverse ++ inner.ahead = tokens :=
  keeps _ _ h

theorem read_keeps (rules : ρ → State → Option State) (h : ∀ name, Keeps (rules name))
    (g : Grammar ρ) : Keeps (read rules g) := by
  induction g with
  | empty =>
    intro s t hr
    cases hr
    rfl
  | refuse =>
    intro s t hr
    cases hr
  | word width =>
    intro s t hr
    obtain ⟨-, rfl⟩ := read_word_eq_some_iff.mp hr
    simp [Tree.tokensList, Tree.tokens]
  | remainder =>
    intro s t hr
    cases hr
    simp [Tree.tokensList, Tree.tokens]
  | group d content ih =>
    intro s t hr
    obtain ⟨inside, rest, trees, hs, hc, rfl⟩ := read_group_eq_some_iff.mp hr
    have inner := ih.fresh hc
    rw [List.append_nil] at inner
    simp [Tree.tokensList, Tree.tokens, inner, hs]
  | seq first second ihFirst ihSecond =>
    intro s t hr
    obtain ⟨half, hf, hs⟩ := read_seq_eq_some_iff.mp hr
    exact (ihSecond _ _ hs).trans (ihFirst _ _ hf)
  | node kind content ih =>
    intro s t hr
    obtain ⟨inner, hc, rfl⟩ := read_node_eq_some_iff.mp hr
    simp [Tree.tokensList, Tree.tokens, ih.fresh hc]
  | fresh content ih =>
    intro s t hr
    obtain ⟨inner, hc, rfl⟩ := read_fresh_eq_some_iff.mp hr
    simp [ih.fresh hc]
  | enclose kind content ih =>
    intro s t hr
    obtain ⟨inner, hc, rfl⟩ := read_enclose_eq_some_iff.mp hr
    simpa [Tree.tokensList, Tree.tokens] using ih _ _ hc
  | decide choice ih => exact fun s => ih s.built s.ahead s
  | rule name => exact h name

theorem readRule_keeps (rules : ρ → Grammar ρ) (fuel : Nat) (name : ρ) :
    Keeps (readRule rules fuel name) := by
  induction fuel generalizing name with
  | zero => intro s t hr; simp [readRule] at hr
  | succ fuel ih => exact read_keeps _ ih (rules name)

/-- Rule depth that suffices for `tokens` when no rule goes `32` deep without reading one. -/
def depthFor (tokens : List Token) : Nat :=
  64 * (Token.sizeList tokens + 2)

/-- The trees of all of `tokens` by the named rule. -/
def parse? (rules : ρ → Grammar ρ) (name : ρ) (tokens : List Token) : Option (List Tree) :=
  match readRule rules (depthFor tokens) name ⟨[], tokens⟩ with
  | some ⟨built, []⟩ => some built.reverse
  | _ => none

theorem tokensList_of_parse? {rules : ρ → Grammar ρ} {name : ρ} {tokens : List Token}
    {trees : List Tree} (h : parse? rules name tokens = some trees) :
    Tree.tokensList trees = tokens := by
  simp only [parse?] at h
  split at h
  · next built hr =>
    have := readRule_keeps rules _ name _ _ hr
    cases h
    simpa [Tree.tokensList] using this
  · cases h

end Grammar
end CallStudy.Source
