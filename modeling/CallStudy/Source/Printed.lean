import CallStudy.Source.Tree

/-!
The printed form of a syntax tree. Operators are printed as whole words, generic arguments with
the lifetimes first, and empty conditions not at all; tokens that were left unread keep the runs
of punctuation that the text had. The length of the printed form is the number of its words, where
a run of punctuation is one word.
-/

namespace CallStudy.Source

/-- A printed token tree. A joint word is followed by the next one without a gap. -/
inductive Piece where
  | word (text : String) (joint : Bool)
  | group (delimiter : Delimiter) (content : List Piece)
  deriving Repr, Inhabited

namespace Piece

mutual
/-- Words counted without those that run on into the next; a group's brackets count too. -/
def count : Piece → Nat
  | word _ joint => if joint then 0 else 1
  | group _ content => 2 + countList content

def countList : List Piece → Nat
  | [] => 0
  | p :: ps => p.count + countList ps
end

@[simp] theorem countList_append (a b : List Piece) :
    countList (a ++ b) = countList a + countList b := by
  induction a with
  | nil => simp [countList]
  | cons p ps ih => simp [countList, ih, Nat.add_assoc]

mutual
def text : Piece → String
  | word t _ => t
  | group .parenthesis content => "(" ++ textList content ++ ")"
  | group .bracket content => "[" ++ textList content ++ "]"
  | group .brace content =>
    "\x7b " ++ textList content ++ (if content.isEmpty then "\x7d" else " \x7d")

/-- Pieces with a blank between them, but none after a joint word. -/
def textList : List Piece → String
  | [] => ""
  | [p] => p.text
  | p :: ps =>
    p.text ++ (match p with
      | word _ true => ""
      | _ => " ") ++ textList ps
end

end Piece

namespace Token

def spelling : Token → String
  | ident text => text
  | lifetime text => text
  | literal text => text
  | punct c _ => c.toString
  | group _ _ => ""

mutual
/-- A token as it was written. -/
def piece : Token → Piece
  | ident text => .word text false
  | lifetime text => .word text false
  | literal text => .word text false
  | punct c joint => .word c.toString joint
  | group d content => .group d (pieces content)

def pieces : List Token → List Piece
  | [] => []
  | t :: ts => t.piece :: pieces ts
end

end Token

namespace Tree

def comma : Piece := .word "," false

/-- A parameter or argument, whether it is a lifetime, and whether a comma follows it. -/
structure Entry where
  isLifetime : Bool
  pieces : List Piece
  comma : Bool

def Entry.print (e : Entry) : List Piece :=
  if e.comma then e.pieces ++ [Tree.comma] else e.pieces

/-- The entries of a list in angle brackets, of which the opening words were taken off. -/
def entries : List (Tree × List Piece) → List Entry
  | (t, pieces) :: rest =>
    match t, rest with
    | node kind _, (next, _) :: _ =>
      ⟨kind == .lifetimeArgument || kind == .lifetimeParameter, pieces, next.isOperator ","⟩ ::
        entries rest
    | _, _ => entries rest
  | [] => []

/-- Lifetimes before all others, with a comma added where the order now needs one. -/
def lifetimesFirst (parts : List (Tree × List Piece)) : List Piece :=
  let isWord (p : Tree × List Piece) : Bool :=
    match p.1 with
    | word _ => true
    | _ => false
  let all := entries parts
  let lifetimes := all.filter (·.isLifetime)
  let others := all.filter (! ·.isLifetime)
  let gap := match lifetimes.getLast?, others with
    | some e, _ :: _ => if e.comma then [] else [comma]
    | _, _ => []
  (parts.dropLast.takeWhile isWord).flatMap (·.2) ++ lifetimes.flatMap (·.print) ++ gap ++
    others.flatMap (·.print) ++ (parts.getLast?.toList).flatMap (·.2)

/-- The positions in a number such as `0.1` and the points between or after them. -/
def positions (text : String) : List Piece :=
  ((text.splitOn ".").intersperse ".").filterMap fun s =>
    if s.isEmpty then none else some (.word s false)

/-- The printed form of a node from its children's. -/
def arrange (kind : Kind) (parts : List (Tree × List Piece)) : List Piece :=
  let all := parts.flatMap (·.2)
  match kind with
  | .unprinted => []
  | .asWritten => Token.pieces (tokensList (parts.map (·.1)))
  | .bounds | .whereClause => if parts.length ≤ 1 then [] else all
  | .generics => if parts.length ≤ 2 then [] else lifetimesFirst parts
  | .capturedParameters => lifetimesFirst parts
  | .genericArguments => if parts.any (fun p => p.1.isNode .otherArgument ||
      p.1.isNode .lifetimeArgument) then lifetimesFirst parts else all
  | .typeOnlyParameter =>
    (parts.dropLast).flatMap (·.2) ++ [.word "_" false, .word ":" false] ++
      (parts.getLast?.toList).flatMap (·.2)
  | .tupleIndices =>
    match parts.getLast? with
    | some (word [.literal text], _) => (parts.dropLast).flatMap (·.2) ++ positions text
    | _ => all
  | _ => all

mutual
/-- The printed form of a tree. -/
def printed : Tree → List Piece
  | word ts => [.word (String.join (ts.map Token.spelling)) false]
  | raw ts => Token.pieces ts
  | group d content => [.group d ((printedEach content).flatMap (·.2))]
  | node kind children => arrange kind (printedEach children)

def printedEach : List Tree → List (Tree × List Piece)
  | [] => []
  | t :: ts => (t, t.printed) :: printedEach ts
end

/-- The number of words in a tree's printed form. -/
def printedCount (t : Tree) : Nat := Piece.countList t.printed

/-- The printed form as text. -/
def printedText (t : Tree) : String := Piece.textList t.printed

end Tree
end CallStudy.Source
