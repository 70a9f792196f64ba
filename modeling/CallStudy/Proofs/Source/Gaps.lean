import CallStudy.Proofs.Source.Blind
import CallStudy.Proofs.Source.Undocumented

/-!
Gaps and the printed form. Only the tokens that a text leaves unread keep the gaps it had, and the
words of a function that run on into the next are what its count of tokens is short of.
-/

set_option autoImplicit false

open CallStudy.Source.Tree

namespace CallStudy.Source

namespace Piece

mutual
/-- The piece with a gap behind every word. -/
def loose : Piece → Piece
  | word text _ => word text false
  | group d content => group d (looseEach content)

def looseEach : List Piece → List Piece
  | [] => []
  | p :: rest => p.loose :: looseEach rest
end

mutual
/-- The words that run on into the next. -/
def runs : Piece → Nat
  | word _ joint => if joint then 1 else 0
  | group _ content => runsList content

def runsList : List Piece → Nat
  | [] => 0
  | p :: rest => p.runs + runsList rest
end

theorem looseEach_eq_map (pieces : List Piece) : looseEach pieces = pieces.map loose := by
  induction pieces with
  | nil => rfl
  | cons p rest ih => rw [looseEach, ih, List.map_cons]

mutual
theorem count_loose (p : Piece) : p.loose.count = p.count + p.runs := by
  match p with
  | word text joint => cases joint <;> rfl
  | group d content =>
    rw [loose, count, count, runs, countList_looseEach content, Nat.add_assoc]

/-- Every word counts once there is a gap behind it. -/
theorem countList_looseEach (pieces : List Piece) :
    countList (looseEach pieces) = countList pieces + runsList pieces := by
  match pieces with
  | [] => rfl
  | p :: rest =>
    rw [looseEach, countList, countList, runsList, count_loose p, countList_looseEach rest]
    omega
end

end Piece

namespace Token

theorem spelling_loose (t : Token) : t.loose.spelling = t.spelling := by
  cases t <;> rfl

mutual
theorem piece_loose (t : Token) : t.loose.piece = t.piece.loose := by
  match t with
  | group d content => rw [loose, piece, piece, Piece.loose, pieces_looseEach content]
  | punct _ _ => rfl
  | ident _ => rfl
  | lifetime _ => rfl
  | literal _ => rfl

theorem pieces_looseEach (ts : List Token) : pieces (looseEach ts) = Piece.looseEach (pieces ts) := by
  match ts with
  | [] => rfl
  | t :: rest => rw [looseEach, pieces, pieces, Piece.looseEach, piece_loose t, pieces_looseEach rest]
end

end Token

namespace Tree

section Arranged

variable {g : Piece → Piece}

/-- A tree with gaps, and its printed form changed by `g`. -/
def loosePair (g : Piece → Piece) (p : Tree × List Piece) : Tree × List Piece :=
  (p.1.loose, p.2.map g)

def Entry.change (g : Piece → Piece) (e : Entry) : Entry := { e with pieces := e.pieces.map g }

theorem isLifetime_change (e : Entry) : (e.change g).isLifetime = e.isLifetime := rfl

theorem flatMap_snd_loosePair (parts : List (Tree × List Piece)) :
    (parts.map (loosePair g)).flatMap (·.2) = (parts.flatMap (·.2)).map g := by
  rw [List.flatMap_map, List.map_flatMap]
  rfl

theorem entries_loosePair (parts : List (Tree × List Piece)) :
    entries (parts.map (loosePair g)) = (entries parts).map (Entry.change g) := by
  induction parts with
  | nil => rfl
  | cons p rest ih =>
    match p, rest with
    | (node kind _, pieces), (next, _) :: _ =>
      simp only [List.map_cons, loosePair, loose_node, entries, isOperator_loose, Entry.change] at ih ⊢
      rw [ih]
    | (node _ _, _), [] => rfl
    | (word _, _), _ => exact ih
    | (raw _, _), _ => exact ih
    | (group _ _, _), _ => exact ih

variable (words : ∀ text, g (.word text false) = .word text false)

include words

theorem print_change (e : Entry) : (e.change g).print = e.print.map g := by
  rw [Entry.print, Entry.print, Entry.change]
  cases e.comma with
  | false => rfl
  | true => simp [comma, words]

theorem lifetimesFirst_loosePair (parts : List (Tree × List Piece)) :
    lifetimesFirst (parts.map (loosePair g)) = (lifetimesFirst parts).map g := by
  have print (es : List Entry) : (es.map (Entry.change g)).flatMap (·.print) =
      (es.flatMap (·.print)).map g := by
    rw [List.flatMap_map, List.map_flatMap]
    exact List.flatMap_congr fun e _ => print_change words e
  rw [lifetimesFirst, lifetimesFirst]
  simp only [entries_loosePair, List.filter_map, Function.comp_def, print, List.map_append,
    ← List.map_dropLast, List.takeWhile_map, flatMap_snd_loosePair, List.getLast?_map]
  congr 1
  · congr 1
    congr 1
    · congr 4
      funext p
      obtain ⟨t, pieces⟩ := p
      cases t <;> rfl
    · simp only [isLifetime_change]
      cases ((entries parts).filter (·.isLifetime)).getLast? with
      | none => rfl
      | some e =>
        cases (entries parts).filter (! ·.isLifetime) with
        | nil => rfl
        | cons _ _ =>
          simp only [Option.map_some, List.map_cons, Entry.change]
          split
          · rfl
          · exact (congrArg (fun p => [p]) (words ",")).symm
  · cases parts.getLast? with
    | none => rfl
    | some p => simp [loosePair]

theorem map_positions (text : String) : (positions text).map g = positions text := by
  rw [positions, List.map_filterMap]
  apply List.filterMap_congr
  intro part _
  split
  · rfl
  · exact congrArg some (words part)

/-- What is printed of a node depends on no gaps but those in the printed forms of its parts, unless
the node is kept as it was written. -/
theorem arrange_loosePair {kind : Kind} (read : kind ≠ .asWritten)
    (parts : List (Tree × List Piece)) :
    arrange kind (parts.map (loosePair g)) = (arrange kind parts).map g := by
  have all := flatMap_snd_loosePair (g := g) parts
  have before := flatMap_snd_loosePair (g := g) parts.dropLast
  have last : (parts.getLast?.map (loosePair g)).toList.flatMap (·.2) =
      (parts.getLast?.toList.flatMap (·.2)).map g := by
    cases parts.getLast? with
    | none => rfl
    | some p => simp [loosePair]
  rw [List.map_dropLast] at before
  cases kind with
  | asWritten => contradiction
  | unprinted => rfl
  | bounds =>
    simp only [arrange, List.length_map, all]
    split <;> rfl
  | whereClause =>
    simp only [arrange, List.length_map, all]
    split <;> rfl
  | generics =>
    simp only [arrange, List.length_map, lifetimesFirst_loosePair words]
    split <;> rfl
  | capturedParameters => exact lifetimesFirst_loosePair words parts
  | genericArguments =>
    simp only [arrange, List.any_map, Function.comp_def, loosePair, isNode_loose]
    split
    · exact lifetimesFirst_loosePair words parts
    · exact all
  | typeOnlyParameter =>
    simp only [arrange, List.getLast?_map, before, last, List.map_append, List.map_cons, words,
      List.map_nil]
  | tupleIndices =>
    simp only [arrange, List.getLast?_map, before, all]
    cases parts.getLast? with
    | none => rfl
    | some p =>
      obtain ⟨t, pieces⟩ := p
      cases t with
      | word tokens =>
        cases tokens with
        | nil => rfl
        | cons first rest =>
          cases rest with
          | nil =>
            cases first with
            | literal text =>
              exact (List.map_append.trans (congrArg _ (map_positions words text))).symm
            | _ => rfl
          | cons _ _ => cases first <;> rfl
      | _ => rfl
  | _ => exact all

end Arranged

theorem printed_loose_word (ts : List Token) : (word ts).loose.printed = (word ts).printed := by
  have spelled : (ts.map Token.loose).map Token.spelling = ts.map Token.spelling := by
    rw [List.map_map]
    exact List.map_congr_left fun t _ => t.spelling_loose
  rw [loose_word, printed, printed, spelled]

mutual
/-- The printed form of a tree with gaps has gaps too. -/
theorem printed_loose (t : Tree) : t.loose.printed = t.printed.map Piece.loose := by
  match t with
  | word ts => exact printed_loose_word ts
  | raw ts => rw [loose, printed, printed, Token.pieces_looseEach, Piece.looseEach_eq_map]
  | group d content =>
    rw [loose, printed, printed, printedEach_looseEach content, flatMap_snd_loosePair,
      List.map_singleton, Piece.loose, Piece.looseEach_eq_map]
  | node kind parts =>
    rw [loose, printed, printed, printedEach_looseEach parts]
    by_cases written : kind = .asWritten
    · have trees : ((printedEach parts).map (loosePair Piece.loose)).map (·.1) =
          looseEach ((printedEach parts).map (·.1)) := by
        rw [looseEach_eq_map, List.map_map, List.map_map]
        rfl
      rw [written, arrange, arrange, trees, tokensList_looseEach, ← Token.looseEach_eq_map,
        Token.pieces_looseEach, Piece.looseEach_eq_map]
    · exact arrange_loosePair (fun _ => rfl) written _

theorem printedEach_looseEach (trees : List Tree) :
    printedEach (looseEach trees) = (printedEach trees).map (loosePair Piece.loose) := by
  match trees with
  | [] => rfl
  | t :: rest =>
    rw [looseEach, printedEach, printedEach, printed_loose t, printedEach_looseEach rest]
    rfl
end

mutual
/-- Whether no tokens of the tree were left unread or are kept as they were written. -/
def isRead : Tree → Bool
  | raw _ => false
  | word _ => true
  | group _ content => isReadEach content
  | node kind parts => kind != .asWritten && isReadEach parts

def isReadEach : List Tree → Bool
  | [] => true
  | t :: rest => t.isRead && isReadEach rest
end

theorem isReadEach_eq_all (trees : List Tree) : isReadEach trees = trees.all isRead := by
  induction trees with
  | nil => rfl
  | cons t rest ih => rw [isReadEach, ih, List.all_cons]

mutual
theorem isRead_loose (t : Tree) : t.loose.isRead = t.isRead := by
  match t with
  | word _ => rfl
  | raw _ => rfl
  | group d content => exact isReadEach_looseEach content
  | node kind parts => rw [loose, isRead, isRead, isReadEach_looseEach parts]

theorem isReadEach_looseEach (trees : List Tree) :
    isReadEach (looseEach trees) = isReadEach trees := by
  match trees with
  | [] => rfl
  | t :: rest =>
    rw [looseEach, isReadEach, isReadEach, isRead_loose t, isReadEach_looseEach rest]
end

mutual
/-- Gaps do not show in the printed form of what has been read. -/
theorem printed_loose_of_isRead (t : Tree) (read : t.isRead) : t.loose.printed = t.printed := by
  match t with
  | word ts => exact printed_loose_word ts
  | raw ts => cases read
  | group d content =>
    rw [loose, printed, printed, printedEach_looseEach_of_isRead content read, flatMap_snd_loosePair,
      List.map_id]
  | node kind parts =>
    rw [isRead, Bool.and_eq_true, bne_iff_ne] at read
    rw [loose, printed, printed, printedEach_looseEach_of_isRead parts read.2,
      arrange_loosePair (fun _ => rfl) read.1, List.map_id]

theorem printedEach_looseEach_of_isRead (trees : List Tree) (read : isReadEach trees) :
    printedEach (looseEach trees) = (printedEach trees).map (loosePair id) := by
  match trees with
  | [] => rfl
  | t :: rest =>
    rw [isReadEach, Bool.and_eq_true] at read
    rw [looseEach, printedEach, printedEach, printed_loose_of_isRead t read.1,
      printedEach_looseEach_of_isRead rest read.2, List.map_cons, loosePair, List.map_id]
end

end Tree

namespace Attribute

theorem content_loose (a : Tree) : content a.loose = (content a).map loose := by
  rw [content, content, children_loose, List.getLast?_map]
  match a.children.getLast? with
  | none => rfl
  | some (.group _ _) => simp
  | some (.word _) => rfl
  | some (.raw _) => rfl
  | some (.node _ _) => rfl

theorem soleWord?_loose (t : Tree) : t.loose.soleWord? = t.soleWord? := by
  apply Option.ext
  intro text
  rw [soleWord?_eq_some_iff, soleWord?_eq_some_iff]
  simp [List.map_eq_cons_iff, loose_eq_node_iff]

theorem isNamed_loose (name : String) (a : Tree) : isNamed name a.loose = isNamed name a := by
  rw [isNamed, isNamed, content_loose]
  cases content a with
  | nil => rfl
  | cons path _ => exact congrArg (· == some name) (soleWord?_loose path)

theorem isTestConfiguration_iff {a : Tree} : isTestConfiguration a ↔ isNamed "cfg" a ∧
    ∃ d path, content a = [path, .group d [.raw [.ident "test"]]] := by
  rw [isTestConfiguration, Bool.and_eq_true]
  apply and_congr_right
  intro _
  split
  · simp_all
  · simp_all

theorem isTestConfiguration_loose (a : Tree) :
    isTestConfiguration a.loose = isTestConfiguration a := by
  rw [Bool.eq_iff_iff, isTestConfiguration_iff, isTestConfiguration_iff, isNamed_loose, content_loose]
  simp [List.map_eq_cons_iff, loose_eq_group_iff, loose_eq_raw_ident_iff]

theorem isAttribute_loose (t : Tree) : isAttribute t.loose = isAttribute t := by
  rw [isAttribute, isAttribute, isNode_loose, isNode_loose]

/-- What stands in braces, or in the braces of a body. -/
def inBraces : Tree → List Tree
  | .group .brace content => content
  | .node .block [.group .brace content] => content
  | _ => []

theorem inBraces_loose (t : Tree) : inBraces t.loose = (inBraces t).map loose := by
  match t with
  | .group d content => cases d <;> simp [inBraces]
  | .node kind parts =>
    cases kind with
    | block =>
      match parts with
      | [] => rfl
      | [.group d content] => cases d <;> simp [inBraces]
      | [.word _] => rfl
      | [.raw _] => rfl
      | [.node _ _] => rfl
      | _ :: _ :: _ => simp [inBraces]
    | _ => rfl
  | .word _ => rfl
  | .raw _ => rfl

theorem ofItem_eq (parts : List Tree) : ofItem parts = parts.filter isAttribute ++
    (parts.flatMap inBraces).filter (isNode .innerAttribute) := rfl

theorem ofItem_loose (parts : List Tree) : ofItem (parts.map loose) = (ofItem parts).map loose := by
  have inside : (parts.map loose).flatMap inBraces = (parts.flatMap inBraces).map loose := by
    rw [List.flatMap_map, List.map_flatMap]
    exact List.flatMap_congr fun t _ => inBraces_loose t
  simp only [ofItem_eq, inside, List.filter_map, List.map_append, Function.comp_def, isAttribute_loose,
    isNode_loose]

theorem stripBody_loose (t : Tree) : stripBody t.loose = (stripBody t).loose := by
  cases t with
  | node kind parts =>
    cases kind with
    | block =>
      cases parts with
      | nil => rfl
      | cons t rest =>
        cases rest with
        | nil =>
          cases t with
          | group d content =>
            cases d <;> simp [stripBody, List.filter_map, Function.comp_def, isNamed_loose]
          | _ => rfl
        | cons _ _ => simp [stripBody]
    | _ => rfl
  | _ => rfl

theorem stripDocumentation_loose (parts : List Tree) :
    stripDocumentation (parts.map loose) = (stripDocumentation parts).map loose := by
  simp only [stripDocumentation_eq, List.filter_map, List.map_map, Function.comp_def,
    isAttribute_loose, isNamed_loose, stripBody_loose]

end Attribute

namespace Function

open Attribute

/-- A function but for its gaps and for what its name is qualified by. -/
def unqualified (f : Function) : String × List Tree := (f.bareName, f.parts.map loose)

theorem maps_loose (kind : Kind) : Maps loose kind := ⟨isNode_loose kind, loose_node kind⟩

theorem nameOf_loose (parts : List Tree) : nameOf (parts.map loose) = nameOf parts :=
  nameOf_map wordText?_loose (maps_loose .name) parts

theorem headingOf_loose (parts : List Tree) :
    headingOf (parts.map loose) = (headingOf parts).map loose := by
  have found : findNode? .signature (parts.map loose) = (findNode? .signature parts).map loose := by
    rw [findNode?, findNode?, List.find?_map]
    simp only [Function.comp_def, isNode_loose]
  rw [headingOf, headingOf, found]
  cases findNode? .signature parts with
  | none => rfl
  | some t => exact children_loose t

theorem isTestConfigured_loose (parts : List Tree) :
    isTestConfigured (parts.map loose) = isTestConfigured parts := by
  simp only [isTestConfigured, ofItem_loose, List.any_map, Function.comp_def,
    isTestConfiguration_loose]

theorem isTest_loose (parts : List Tree) : isTest (parts.map loose) = isTest parts := by
  simp only [isTest, ofItem_loose, List.any_map, Function.comp_def, isNamed_loose,
    isTestConfigured_loose, headingOf_loose, nameOf_loose]

theorem unqualified_ofItem_loose (owner owner' : Option String) (parts : List Tree) :
    (ofItem owner (parts.map loose)).unqualified = (ofItem owner' parts).unqualified := by
  simp only [unqualified, ofItem, headingOf_loose, nameOf_loose, stripDocumentation_loose,
    List.map_map, loose_comp_loose]

theorem braceContent_loose (parts : List Tree) :
    braceContent (parts.map loose) = (braceContent parts).map loose := by
  rw [braceContent, braceContent, List.getLast?_map]
  cases parts.getLast? with
  | none => rfl
  | some t =>
    cases t with
    | group d _ => cases d <;> simp
    | _ => rfl

theorem flatMap_loose {first second : Tree → List Function} {trees : List Tree}
    (each : ∀ t ∈ trees, (first t.loose).map unqualified = (second t).map unqualified) :
    ((trees.map loose).flatMap first).map unqualified = (trees.flatMap second).map unqualified := by
  rw [List.flatMap_map, List.map_flatMap, List.map_flatMap]
  exact List.flatMap_congr each

theorem memberOf_loose {leftOut : List Tree → Bool}
    (same : ∀ parts, leftOut (parts.map loose) = leftOut parts) (owner owner' : Option String)
    (t : Tree) :
    (memberOf leftOut owner t.loose).map unqualified = (memberOf leftOut owner' t).map unqualified := by
  cases t with
  | node kind parts =>
    cases kind with
    | functionItem =>
      rw [loose_node, memberOf, memberOf, same]
      split
      · rfl
      · exact congrArg (fun f => [f]) (unqualified_ofItem_loose owner owner' parts)
    | _ => rfl
  | _ => rfl

mutual
theorem collect_loose (t : Tree) : (collect t.loose).map unqualified = (collect t).map unqualified := by
  match t with
  | .node kind parts =>
    have configured := isTestConfigured_loose parts
    cases kind with
    | functionItem => exact memberOf_loose isTest_loose none none (.node .functionItem parts)
    | implItem =>
      rw [loose_node, collect, collect, configured]
      split
      · rfl
      · rw [ofImplementation_eq, ofImplementation_eq, braceContent_loose]
        exact flatMap_loose fun t _ => memberOf_loose isTest_loose _ _ t
    | traitItem =>
      rw [loose_node, collect, collect, configured]
      split
      · rfl
      · rw [ofTrait_eq, ofTrait_eq, braceContent_loose]
        exact flatMap_loose fun t _ => memberOf_loose (fun _ => rfl) _ _ t
    | moduleItem =>
      rw [loose_node, collect, collect, configured]
      split
      · rfl
      · rw [← looseEach_eq_map]
        exact collectGroups_loose parts
    | _ => rfl
  | .group _ _ => rfl
  | .word _ => rfl
  | .raw _ => rfl

theorem collectGroups_loose (parts : List Tree) :
    (collectGroups (looseEach parts)).map unqualified = (collectGroups parts).map unqualified := by
  match parts with
  | [] => rfl
  | .group d items :: rest =>
    have later := collectGroups_loose rest
    have inside := collectAll_loose items
    cases d with
    | brace =>
      rw [looseEach, loose, collectGroups, collectGroups, List.map_append, List.map_append, inside, later]
    | _ => exact later
  | .word _ :: rest => exact collectGroups_loose rest
  | .raw _ :: rest => exact collectGroups_loose rest
  | .node _ _ :: rest => exact collectGroups_loose rest

theorem collectAll_loose (items : List Tree) :
    (collectAll (looseEach items)).map unqualified = (collectAll items).map unqualified := by
  match items with
  | [] => rfl
  | t :: rest =>
    rw [looseEach, collectAll, collectAll, List.map_append, List.map_append, collect_loose t,
      collectAll_loose rest]
end

/-- The words of a function's printed form that run on into the next. -/
def runs (f : Function) : Nat := Piece.runsList (f.parts.flatMap printed)

/-- Whether nothing of a function was left unread. -/
def isRead (f : Function) : Bool := isReadEach f.parts

theorem tokenCount_add_runs (f : Function) : f.tokenCount + f.runs =
    Piece.countList ((f.parts.map loose).flatMap printed) := by
  have gaps : (f.parts.map loose).flatMap printed = Piece.looseEach (f.parts.flatMap printed) := by
    rw [Piece.looseEach_eq_map, List.flatMap_map, List.map_flatMap]
    exact List.flatMap_congr fun t _ => printed_loose t
  rw [gaps, Piece.countList_looseEach]
  rfl

theorem runs_eq_zero_of_isRead {f : Function} (read : f.isRead) : f.runs = 0 := by
  have each : (f.parts.map loose).flatMap printed = f.parts.flatMap printed := by
    rw [isRead, isReadEach_eq_all, List.all_eq_true] at read
    rw [List.flatMap_map]
    exact List.flatMap_congr fun t mem => printed_loose_of_isRead t (read t mem)
  have sum := f.tokenCount_add_runs
  rw [each] at sum
  exact Nat.add_left_cancel (sum.trans (Nat.add_zero _).symm)

end Function
end CallStudy.Source
