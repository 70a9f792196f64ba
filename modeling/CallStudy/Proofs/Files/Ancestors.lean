import CallStudy.Proofs.Files.Tree
import Mathlib.Data.List.Infix

/-!
The directories around a path. Each is the path without its last name, up to the root, so their
names are all beginnings of the names of the path. What a directory lists is found under its name
behind the path of the directory.
-/

set_option autoImplicit false

namespace CallStudy

namespace Path

/-- A step that leads to another place. -/
def IsName (step : String) : Prop := step ≠ "" ∧ step ≠ "."

instance : DecidablePred IsName := fun step => inferInstanceAs (Decidable (step ≠ "" ∧ step ≠ "."))

/-- The names that a path leads along. -/
def names (path : String) : List String := (steps path).filter fun step => IsName step

/-- The names in a path given by its characters. -/
def namesOf (text : List Char) : List String :=
  ((pieces text).map String.ofList).filter fun step => IsName step

theorem pieces_ne_nil (text : List Char) : pieces text ≠ [] := by
  fun_cases pieces text <;> simp_all

theorem pieces_append (front rest : List Char) :
    pieces (front ++ '/' :: rest) = pieces front ++ pieces rest := by
  induction front with
  | nil => simp [pieces]
  | cons c front ih =>
    rw [List.cons_append, pieces, pieces]
    split
    · rw [ih, List.cons_append]
    · obtain ⟨piece, more, same⟩ := List.exists_cons_of_ne_nil (pieces_ne_nil front)
      rw [ih, same]
      rfl

theorem pieces_of_not_mem {text : List Char} (plain : '/' ∉ text) : pieces text = [text] := by
  induction text with
  | nil => rfl
  | cons c text ih =>
    obtain ⟨other, plain⟩ := not_or.mp (mt List.mem_cons.mpr plain)
    rw [pieces, if_neg (Ne.symm other), ih plain]

theorem namesOf_append (front rest : List Char) :
    namesOf (front ++ '/' :: rest) = namesOf front ++ namesOf rest := by
  rw [namesOf, pieces_append, List.map_append, List.filter_append]
  rfl

theorem namesOf_nil : namesOf [] = [] := rfl

theorem namesOf_dot : namesOf ['.'] = [] := rfl

theorem namesOf_slash (front : List Char) : namesOf (front ++ ['/']) = namesOf front := by
  rw [namesOf_append, namesOf_nil, List.append_nil]

/-- Characters that make a name. -/
structure IsNamed (text : List Char) : Prop where
  plain : '/' ∉ text
  filled : text ≠ []
  noDot : text ≠ ['.']

theorem IsNamed.namesOf {text : List Char} (h : IsNamed text) :
    namesOf text = [String.ofList text] := by
  have isName : IsName (String.ofList text) := by
    constructor
    · intro same
      exact h.filled (by simpa using congrArg String.toList same)
    · intro same
      exact h.noDot (by simpa using congrArg String.toList same)
  rw [Path.namesOf, pieces_of_not_mem h.plain]
  simp [isName]

theorem IsNamed.reverse {text : List Char} (h : IsNamed text) : IsNamed text.reverse where
  plain := mt List.mem_reverse.mp h.plain
  filled := mt List.reverse_eq_nil_iff.mp h.filled
  noDot := mt List.reverse_eq_iff.mp h.noDot

/-! Paths from the root, reversed. -/

/-- A reversed path that starts at the root. -/
def IsRooted (text : List Char) : Prop := text.getLast? = some '/'

theorem IsRooted.suffix {text rest : List Char} (h : IsRooted text) (suffix : rest <:+ text)
    (filled : rest ≠ []) : IsRooted rest := by
  obtain ⟨front, rfl⟩ := suffix
  rwa [IsRooted, List.getLast?_append_of_ne_nil _ filled] at h

theorem trimmed_suffix (text : List Char) : trimmed text <:+ text := by
  fun_induction trimmed text with
  | case1 => exact List.suffix_refl _
  | case2 text _ ih => exact ih.trans (List.suffix_cons _ _)
  | case3 text ih => exact ih.trans (List.suffix_cons _ _)
  | case4 => exact List.suffix_refl _

theorem namesOf_trimmed (text : List Char) :
    namesOf (trimmed text).reverse = namesOf text.reverse := by
  fun_induction trimmed text with
  | case1 => rfl
  | case2 text _ ih => rw [ih, List.reverse_cons, namesOf_slash]
  | case3 text ih =>
    have dot : ('.' :: '/' :: text).reverse = text.reverse ++ '/' :: ['.'] := by simp
    rw [ih, dot, namesOf_append, namesOf_dot, List.append_nil, List.reverse_cons, namesOf_slash]
  | case4 => rfl

/-- What is left of a path from the root, once it is trimmed, is the root or ends in a name. -/
theorem trimmed_cases {text : List Char} (rooted : IsRooted text) :
    trimmed text = ['/'] ∨ ∃ name rest, trimmed text = name ++ '/' :: rest ∧ IsNamed name := by
  fun_induction trimmed text with
  | case1 => exact .inl rfl
  | case2 text more ih =>
    have filled : text ≠ [] := fun empty => more (by rw [empty])
    exact ih (rooted.suffix (List.suffix_cons _ _) filled)
  | case3 text ih => exact ih (rooted.suffix (List.suffix_cons _ _) (List.cons_ne_nil _ _))
  | case4 text noRoot noSlash noDot =>
    obtain ⟨name, rest, rfl, plain⟩ := List.eq_append_cons_of_mem (List.mem_of_getLast? rooted)
    refine .inr ⟨name, rest, rfl, plain, ?_, ?_⟩
    · rintro rfl
      exact noSlash _ rfl
    · rintro rfl
      exact noDot _ rfl

theorem IsRooted.trimmed {text : List Char} (rooted : IsRooted text) : IsRooted (trimmed text) := by
  apply rooted.suffix (trimmed_suffix text)
  obtain root | ⟨name, rest, ends, -⟩ := trimmed_cases rooted
  · rw [root]
    exact List.cons_ne_nil _ _
  · rw [ends]
    exact List.append_ne_nil_of_right_ne_nil _ (List.cons_ne_nil _ _)

/-- The way up loses the last name, and ends where there is none. -/
theorem up?_cases {text : List Char} (rooted : IsRooted text) :
    up? text = none ∧ namesOf text.reverse = [] ∨
      ∃ outer name, up? text = some outer ∧ IsRooted outer ∧ outer <:+ text ∧
        namesOf text.reverse = namesOf outer.reverse ++ [name] := by
  have same := namesOf_trimmed text
  have suffix := trimmed_suffix text
  obtain root | ⟨name, rest, ends, named⟩ := trimmed_cases rooted
  · refine .inl ⟨by rw [up?, root]; rfl, ?_⟩
    rw [← same, root]
    rfl
  · obtain ⟨c, more, rfl⟩ := List.exists_cons_of_ne_nil named.filled
    have other : c ≠ '/' := fun slash => named.plain (by rw [slash]; exact List.mem_cons_self)
    have dropped : (more ++ '/' :: rest).dropWhile (· ≠ '/') = '/' :: rest := by
      rw [List.dropWhile_append_of_pos, List.dropWhile_cons_of_neg (by decide)]
      intro d mem
      simpa using fun slash : d = '/' => named.plain (List.mem_cons_of_mem _ (slash ▸ mem))
    have up : up? text = some (trimmed ('/' :: rest)) := by
      rw [up?, ends, List.cons_append]
      dsimp only
      rw [if_neg other, dropped]
    have inner : '/' :: rest <:+ text := by
      rw [ends] at suffix
      exact (List.suffix_append _ _).trans suffix
    have outer := trimmed_suffix ('/' :: rest)
    refine .inr ⟨_, .ofList (c :: more).reverse, up, ?_, outer.trans inner, ?_⟩
    · exact (rooted.suffix inner (List.cons_ne_nil _ _)).trimmed
    · have whole := named.reverse.namesOf
      rw [← same, ends, namesOf_trimmed, List.reverse_cons, namesOf_slash, List.reverse_append,
        List.reverse_cons, List.append_assoc, List.singleton_append, namesOf_append, whole]

theorem ascending_of_none {text : List Char} (top : up? text = none) : ascending text = [text] := by
  rw [ascending]
  split
  · rfl
  · next up => cases top.symm.trans up

theorem ascending_of_some {text outer : List Char} (up : up? text = some outer) :
    ascending text = text :: ascending outer := by
  rw [ascending]
  split
  · next top => cases up.symm.trans top
  · next other =>
    cases up.symm.trans other
    rfl

/-- The directories around a path lead along all beginnings of its names, the longest first. -/
theorem namesOf_ascending {text : List Char} (rooted : IsRooted text) :
    (ascending text).map (fun level => namesOf level.reverse) =
      (namesOf text.reverse).inits.reverse := by
  induction text using ascending.induct with
  | case1 text ih =>
    obtain ⟨top, empty⟩ | ⟨outer, name, up, rooted', -, split⟩ := up?_cases rooted
    · rw [ascending_of_none top, empty, List.map_singleton, empty]
      rfl
    · rw [ascending_of_some up, List.map_cons, ih outer up rooted', split, List.inits_append]
      simp

theorem of_mem_ascending {text level : List Char} (rooted : IsRooted text)
    (mem : level ∈ ascending text) : level <:+ text ∧ IsRooted level := by
  induction text using ascending.induct with
  | case1 text ih =>
    obtain ⟨top, -⟩ | ⟨outer, name, up, rooted', suffix, -⟩ := up?_cases rooted
    · rw [ascending_of_none top, List.mem_singleton] at mem
      rw [mem]
      exact ⟨List.suffix_refl _, rooted⟩
    · rw [ascending_of_some up, List.mem_cons] at mem
      obtain same | later := mem
      · rw [same]
        exact ⟨List.suffix_refl _, rooted⟩
      · obtain ⟨inside, first⟩ := ih outer up rooted' later
        exact ⟨inside.trans suffix, first⟩

/-! Paths as they are written. -/

theorem isRooted_reverse {path : String} (absolute : isAbsolute path) :
    IsRooted path.toList.reverse := by
  rw [IsRooted, List.getLast?_reverse]
  exact of_decide_eq_true absolute

theorem names_ofList (text : List Char) : names (.ofList text) = namesOf text := by
  rw [names, steps, String.toList_ofList]
  rfl

theorem names_ancestors {path : String} (absolute : isAbsolute path) :
    (ancestors path).map names = (names path).inits.reverse := by
  have levels := namesOf_ascending (isRooted_reverse absolute)
  rw [List.reverse_reverse] at levels
  rw [ancestors, List.map_map]
  refine Eq.trans (List.map_congr_left fun text _ => ?_) levels
  exact names_ofList text.reverse

theorem exists_ancestor_iff {path : String} (absolute : isAbsolute path) {outer : List String} :
    (∃ level ∈ ancestors path, names level = outer) ↔ outer <+: names path := by
  rw [← List.mem_map, names_ancestors absolute, List.mem_reverse, List.mem_inits]

theorem pairwise_inits {α : Type} (l : List α) :
    l.inits.Pairwise fun first second => first.length ≤ second.length := by
  induction l with
  | nil => exact List.pairwise_singleton _ _
  | cons a l ih =>
    rw [List.inits_cons, List.pairwise_cons, List.pairwise_map]
    refine ⟨fun _ _ => Nat.zero_le _, ih.imp fun le => ?_⟩
    rw [List.length_cons, List.length_cons]
    exact Nat.succ_le_succ le

/-- Further out there are no more names. -/
theorem length_names_ancestors {path : String} (absolute : isAbsolute path) :
    (ancestors path).Pairwise fun inner outer => (names outer).length ≤ (names inner).length := by
  have levels := List.pairwise_reverse.mpr (pairwise_inits (names path))
  rw [← names_ancestors absolute] at levels
  exact List.pairwise_map.mp levels

theorem of_mem_ancestors {path level : String} (absolute : isAbsolute path)
    (mem : level ∈ ancestors path) : isAbsolute level ∧ level.toList <+: path.toList := by
  obtain ⟨text, found, rfl⟩ := List.mem_map.mp mem
  obtain ⟨suffix, rooted⟩ := of_mem_ascending (isRooted_reverse absolute) found
  rw [String.toList_ofList, isAbsolute, String.toList_ofList, List.head?_reverse]
  exact ⟨decide_eq_true rooted, List.reverse_suffix.mp (by rwa [List.reverse_reverse])⟩

theorem not_isEmpty_of_isAbsolute {path : String} (absolute : isAbsolute path) :
    path.isEmpty = false := by
  rw [Bool.eq_false_iff, Ne, String.isEmpty_iff]
  rintro rfl
  exact absurd absolute (by decide)

theorem isAbsolute_append {base : String} (filled : base.isEmpty = false) (more : String) :
    isAbsolute (base ++ more) = isAbsolute base := by
  have some : base.toList ≠ [] := fun empty => by
    rw [String.toList_eq_nil_iff.mp empty] at filled
    cases filled
  rw [isAbsolute, isAbsolute, String.toList_append, List.head?_append_of_ne_nil _ some]

theorem isAbsolute_of_not_mem {name : String} (plain : '/' ∉ name.toList) :
    isAbsolute name = false :=
  decide_eq_false fun first => plain (List.mem_of_head? first)

/-- A name behind a directory stands behind a slash, and in front is the directory. -/
theorem join_cases {base name : String} (filled : base.isEmpty = false)
    (plain : '/' ∉ name.toList) :
    isAbsolute (join base name) = isAbsolute base ∧
      ∃ front, (join base name).toList = front ++ '/' :: name.toList ∧
        (base.toList = front ∨ base.toList = front ++ ['/']) := by
  rw [join, isAbsolute_of_not_mem plain, filled, if_neg (by decide)]
  split
  · next last =>
    have ends := List.dropLast_append_getLast? '/' last
    refine ⟨isAbsolute_append filled _, base.toList.dropLast, ?_, .inr ends.symm⟩
    rw [String.toList_append, ← ends, List.append_assoc]
    simp
  · refine ⟨?_, base.toList, by simp, .inl rfl⟩
    rw [String.append_assoc, isAbsolute_append filled]

/-- A name behind a directory stands behind a slash, and what is in front has the same names. -/
theorem join_eq {base name : String} (absolute : isAbsolute base) (plain : '/' ∉ name.toList) :
    isAbsolute (join base name) ∧
      ∃ front, (join base name).toList = front ++ '/' :: name.toList ∧
        namesOf front = names base := by
  obtain ⟨same, front, path, ends⟩ := join_cases (not_isEmpty_of_isAbsolute absolute) plain
  refine ⟨same.trans absolute, front, path, ?_⟩
  rcases ends with whole | slash
  · rw [← whole]
    rfl
  · rw [← namesOf_slash, ← slash]
    rfl

theorem steps_eq {path name : String} {front : List Char}
    (ends : path.toList = front ++ '/' :: name.toList) (plain : '/' ∉ name.toList) :
    steps path = (pieces front).map String.ofList ++ [name] := by
  rw [steps, ends, pieces_append, pieces_of_not_mem plain]
  simp

theorem IsName.isNamed {name : String} (isName : IsName name) (plain : '/' ∉ name.toList) :
    IsNamed name.toList where
  plain := plain
  filled := mt String.toList_eq_nil_iff.mp isName.1
  noDot dot := isName.2 (String.toList_inj.mp dot)

theorem trimmed_of_isNamed {text : List Char} (h : IsNamed text) (rest : List Char) :
    trimmed (text ++ '/' :: rest) = text ++ '/' :: rest := by
  obtain ⟨c, more, rfl⟩ := List.exists_cons_of_ne_nil h.filled
  have slash : c ≠ '/' := fun same => h.plain (by rw [same]; exact List.mem_cons_self)
  rw [trimmed.eq_def]
  split
  · next root => exact absurd (List.head_eq_of_cons_eq root) slash
  · next stays => exact absurd (List.head_eq_of_cons_eq stays) slash
  · next behind dot =>
    obtain ⟨rfl, behind⟩ := List.cons.inj dot
    cases more with
    | nil => exact absurd rfl h.noDot
    | cons d more =>
      refine absurd ?_ h.plain
      rw [List.head_eq_of_cons_eq behind]
      simp
  · rfl

/-- The last step of a path is the name behind a directory. -/
theorem lastName?_join {base name : String} (filled : base.isEmpty = false)
    (plain : '/' ∉ name.toList) (isName : IsName name) (noUp : name ≠ "..") :
    lastName? (join base name) = some name := by
  obtain ⟨-, front, path, -⟩ := join_cases filled plain
  have named := (isName.isNamed plain).reverse
  have reversed : (join base name).toList.reverse = name.toList.reverse ++ '/' :: front.reverse := by
    rw [path]
    simp
  have last : (name.toList.reverse ++ '/' :: front.reverse).takeWhile (· ≠ '/') =
      name.toList.reverse := by
    rw [List.takeWhile_append_of_pos, List.takeWhile_cons_of_neg (by decide), List.append_nil]
    intro c mem
    simpa using fun slash : c = '/' => named.plain (slash ▸ mem)
  have up : name.toList.reverse ≠ ['.', '.'] := fun dots => noUp <|
    String.toList_inj.mp (List.reverse_eq_iff.mp dots)
  rw [lastName?, reversed, trimmed_of_isNamed named, last]
  simp [isName.1, named.noDot, up]

end Path

namespace Node

/-- Nothing is inside of what is no directory. -/
theorem find_append_of_ne_directory {place rest : List String} {root : Node}
    (other : ∀ entries, root.find place ≠ some (.directory entries)) (filled : rest ≠ []) :
    root.find (place ++ rest) = none := by
  obtain ⟨name, more, rfl⟩ := List.exists_cons_of_ne_nil filled
  rw [find_append]
  cases found : root.find place with
  | none => rfl
  | some node =>
    cases node with
    | file content => rfl
    | directory entries => exact absurd found (other entries)

end Node

namespace FileTree

open CallStudy.Path (IsName names)

variable {t : FileTree} {name : String}

theorem step_of_isName (isName : IsName name) (noUp : name ≠ "..") (place : List String) :
    t.step place name = (t.root.find (place ++ [name])).map fun _ => place ++ [name] := by
  have counts : ¬ (name = "" ∨ name = ".") := not_or.mpr isName
  rw [FileTree.step]
  split
  · next entries found =>
    rw [if_neg counts, if_neg noUp, Node.find_concat found]
    cases entries.lookup name <;> rfl
  · next other =>
    rw [Node.find_append_of_ne_directory other (List.cons_ne_nil _ _)]
    rfl

theorem step_of_ne_directory {place : List String}
    (other : ∀ entries, t.root.find place ≠ some (.directory entries)) (step : String) :
    t.step place step = none := by
  rw [FileTree.step]
  split
  · next entries found => exact absurd found (other entries)
  · rfl

theorem step_of_not_isName (noName : ¬ IsName name) {place : List String}
    (directory : ∃ entries, t.root.find place = some (.directory entries)) :
    t.step place name = some place := by
  obtain ⟨entries, found⟩ := directory
  have stays : name = "" ∨ name = "." := by rwa [IsName, not_and_or, not_not, not_not] at noName
  rw [FileTree.step, found]
  exact if_pos stays

/-- A path down to a name leads to what stands under its names. -/
theorem find_of_steps (isName : IsName name) (noUp : name ≠ "..") {front : List String}
    (down : ".." ∉ front) (place : List String) :
    ((front ++ [name]).foldlM t.step place).bind (t.root.find ·) =
      t.root.find (place ++ ((front.filter fun step => IsName step) ++ [name])) := by
  induction front generalizing place with
  | nil =>
    rw [List.nil_append, List.foldlM_cons, step_of_isName isName noUp]
    cases found : t.root.find (place ++ [name]) with
    | none => exact found.symm
    | some node => rfl
  | cons step front ih =>
    obtain ⟨noUp', down⟩ := not_or.mp (mt List.mem_cons.mpr down)
    rw [List.cons_append, List.foldlM_cons]
    by_cases isName' : IsName step
    · rw [step_of_isName isName' (Ne.symm noUp'), List.filter_cons_of_pos (by simpa using isName'),
        List.cons_append, List.append_cons place step (_ ++ _)]
      cases found : t.root.find (place ++ [step]) with
      | none =>
        rw [Node.find_append, found]
        rfl
      | some node => exact ih down (place ++ [step])
    · rw [List.filter_cons_of_neg (by simpa using isName'), ← ih down]
      by_cases directory : ∃ entries, t.root.find place = some (.directory entries)
      · rw [step_of_not_isName isName' directory]
        rfl
      · have other := not_exists.mp directory
        rw [step_of_ne_directory other, ih down, Node.find_append_of_ne_directory other (by simp)]
        rfl

theorem not_isEmpty_of_find {path : String} {node : Node} (found : t.find path = some node) :
    path.isEmpty = false := by
  rw [Bool.eq_false_iff]
  intro empty
  rw [FileTree.find, locate, if_pos empty] at found
  cases found

/-- A slash at the end of a path leads no further. -/
theorem foldlM_step_of_slash {front : List String} {start place : List String}
    (leads : (front ++ [""]).foldlM t.step start = some place) :
    front.foldlM t.step start = some place := by
  rw [List.foldlM_append] at leads
  obtain ⟨last, before, stays⟩ := Option.bind_eq_some_iff.mp leads
  have stays : t.step last "" = some place := by simpa using stays
  rw [before, ← stays, step]
  rw [step] at stays
  split at stays
  · exact (if_pos (.inl rfl)).symm
  · cases stays

/-- Behind a path to a directory, a name leads to what stands there under the name. -/
theorem find_join_of_directory {base : String} {entries : List (String × Node)}
    (found : t.find base = some (.directory entries)) (plain : '/' ∉ name.toList)
    (isName : IsName name) (noUp : name ≠ "..") :
    t.find (Path.join base name) = entries.lookup name := by
  have filled := not_isEmpty_of_find found
  obtain ⟨place, located, directory⟩ := Option.bind_eq_some_iff.mp found
  rw [locate, filled, if_neg (by decide)] at located
  obtain ⟨same, front, path, ends⟩ := Path.join_cases filled plain
  have filled' : ¬ (Path.join base name).isEmpty := fun empty => by
    rw [String.isEmpty_iff.mp empty] at path
    exact absurd path (by simp)
  have leads : ((Path.pieces front).map String.ofList).foldlM t.step (t.start base) = some place := by
    rcases ends with whole | slash
    · rwa [← whole]
    · apply foldlM_step_of_slash
      rw [Path.steps, slash, Path.pieces_append, List.map_append] at located
      exact located
  have start : t.start (Path.join base name) = t.start base := by
    rw [FileTree.start, FileTree.start, same]
  have whole : t.locate (Path.join base name) = t.step place name := by
    rw [locate, if_neg filled', Path.steps_eq path plain, start, List.foldlM_append, leads]
    exact bind_pure (t.step place name)
  rw [FileTree.find, whole, step_of_isName isName noUp, ← Node.find_concat directory]
  cases inside : t.root.find (place ++ [name]) with
  | none => rfl
  | some node => exact inside

/-- Behind a directory in which no dots lead up, a name leads to what stands under the names. -/
theorem find_join {base : String} (absolute : Path.isAbsolute base) (down : ".." ∉ names base)
    (plain : '/' ∉ name.toList) (isName : IsName name) (noUp : name ≠ "..") :
    t.find (Path.join base name) = t.root.find (names base ++ [name]) := by
  obtain ⟨absolute', front, path, same⟩ := Path.join_eq absolute plain
  have steps := Path.steps_eq path plain
  have down : ".." ∉ (Path.pieces front).map String.ofList := by
    intro mem
    refine down (same ▸ List.mem_filter.mpr ⟨mem, by decide⟩)
  have root : t.start (Path.join base name) = [] := if_pos absolute'
  have found := find_of_steps (t := t) isName noUp down []
  rw [List.nil_append, ← steps] at found
  rw [FileTree.find, locate, Path.not_isEmpty_of_isAbsolute absolute', root, ← same]
  exact found

end FileTree
end CallStudy
