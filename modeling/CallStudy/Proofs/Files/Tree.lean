import CallStudy.Files.Access
import Mathlib.Data.List.Basic

/-!
What a written file changes in a tree. Every directory stays and keeps its names, so paths still
lead where they led, and the path of the file leads to its new content.
-/

set_option autoImplicit false

namespace CallStudy

namespace Node

variable {name : String} {node : Node} {entries : List (String × Node)}

theorem lookup_setEntry_self (name : String) (node : Node) (entries : List (String × Node)) :
    (setEntry name node entries).lookup name = some node := by
  induction entries with
  | nil => simp [setEntry]
  | cons first rest ih =>
    obtain ⟨n, old⟩ := first
    rw [setEntry]
    split
    · next same => simp [same]
    · next other =>
      have apart : (name == n) = false := beq_false_of_ne (Ne.symm other)
      rw [List.lookup_cons, apart, ih]

theorem lookup_setEntry_of_ne {other : String} (h : other ≠ name) (node : Node)
    (entries : List (String × Node)) :
    (setEntry name node entries).lookup other = entries.lookup other := by
  induction entries with
  | nil => simp [setEntry, h]
  | cons first rest ih =>
    obtain ⟨n, old⟩ := first
    rw [setEntry]
    split
    · next same =>
      subst same
      simp [List.lookup_cons, beq_false_of_ne h]
    · rw [List.lookup_cons, List.lookup_cons, ih]

theorem setEntry_setEntry (name : String) (node : Node) (entries : List (String × Node)) :
    setEntry name node (setEntry name node entries) = setEntry name node entries := by
  induction entries with
  | nil => simp [setEntry]
  | cons first rest ih =>
    obtain ⟨n, old⟩ := first
    by_cases same : n = name
    · simp [setEntry, same]
    · simp [setEntry, same, ih]

theorem find_put (node : Node) (place : List String) (root : Node) :
    (put node place root).find place = some node := by
  induction place generalizing root with
  | nil => cases root <;> rfl
  | cons name rest ih =>
    cases root with
    | file content => simp [put, find, ih]
    | directory entries => simp [put, find, lookup_setEntry_self, ih]

theorem put_put (node : Node) (place : List String) (root : Node) :
    put node place (put node place root) = put node place root := by
  induction place generalizing root with
  | nil => cases root <;> rfl
  | cons name rest ih =>
    cases root with
    | file content => simp [put, setEntry, ih]
    | directory entries => simp [put, lookup_setEntry_self, setEntry_setEntry, ih]

theorem find_append (first second : List String) (root : Node) :
    root.find (first ++ second) = (root.find first).bind (find second) := by
  induction first generalizing root with
  | nil => cases root <;> rfl
  | cons name rest ih =>
    cases root with
    | file content => rfl
    | directory entries =>
      rw [List.cons_append, find, find, Option.bind_assoc]
      exact Option.bind_congr fun child _ => ih child

/-- What stands in a directory is what it lists. -/
theorem find_concat {place : List String} {root : Node}
    (directory : root.find place = some (.directory entries)) (name : String) :
    root.find (place ++ [name]) = entries.lookup name := by
  rw [find_append, directory, Option.bind_some, find]
  cases entries.lookup name with
  | none => rfl
  | some node => cases node <;> rfl

/-- A directory that is not inside of what is put somewhere stays and keeps its names. -/
theorem find_put_of_directory {place other : List String} {root : Node}
    (found : root.find other = some (.directory entries)) (apart : ¬ place <+: other) :
    ∃ entries', (put node place root).find other = some (.directory entries') ∧
      ∀ name, (entries.lookup name).isSome → (entries'.lookup name).isSome := by
  induction place generalizing root other with
  | nil => exact absurd List.nil_prefix apart
  | cons name rest ih =>
    cases root with
    | file content => cases other <;> cases found
    | directory names =>
      cases other with
      | nil =>
        cases found
        refine ⟨_, rfl, fun n isName => ?_⟩
        by_cases same : n = name
        · rw [same, lookup_setEntry_self]
          rfl
        · rwa [lookup_setEntry_of_ne same]
      | cons first more =>
        obtain ⟨child, stands, inside⟩ := Option.bind_eq_some_iff.mp found
        by_cases same : first = name
        · subst same
          have apart : ¬ rest <+: more := fun inner =>
            apart ((List.prefix_cons_inj first).mpr inner)
          obtain ⟨entries', now, kept⟩ := ih inside apart
          refine ⟨entries', ?_, kept⟩
          simpa [put, find, lookup_setEntry_self, stands] using now
        · refine ⟨entries, ?_, fun _ isName => isName⟩
          rw [put, find, lookup_setEntry_of_ne same]
          exact found

/-- Putting a file into a directory leaves the files at all other places as they are. -/
theorem find_put_eq_file_iff {place other : List String} {root : Node} {content written : ByteArray}
    {name : String} (directory : root.find place = some (.directory entries))
    (free : ∀ entries, root.find (place ++ [name]) ≠ some (.directory entries))
    (apart : other ≠ place ++ [name]) :
    (put (.file written) (place ++ [name]) root).find other = some (.file content) ↔
      root.find other = some (.file content) := by
  induction place generalizing root other with
  | nil =>
    cases root with
    | file _ => cases directory
    | directory names =>
      cases other with
      | nil => exact ⟨nofun, nofun⟩
      | cons first more =>
        by_cases same : first = name
        · subst same
          have inner : more ≠ [] := fun last => apart (by rw [last]; rfl)
          -- Neither the file that is written nor one that stands there holds other files.
          have stands : find (first :: more) (.directory names) ≠ some (.file content) := by
            intro found
            obtain ⟨child, stands, inside⟩ := Option.bind_eq_some_iff.mp found
            cases child with
            | file _ => cases more with
              | nil => exact inner rfl
              | cons _ _ => cases inside
            | directory below => exact free below (by simp [find, stands])
          have writes : (put (.file written) [first] (.directory names)).find (first :: more) ≠
              some (.file content) := by
            cases more with
            | nil => exact absurd rfl inner
            | cons _ _ => simp [put, find, lookup_setEntry_self]
          exact ⟨fun found => absurd found writes, fun found => absurd found stands⟩
        · simp [put, find, lookup_setEntry_of_ne same]
  | cons step rest ih =>
    cases root with
    | file _ => cases directory
    | directory names =>
      obtain ⟨child, stands, inside⟩ := Option.bind_eq_some_iff.mp directory
      cases other with
      | nil => exact ⟨nofun, nofun⟩
      | cons first more =>
        by_cases same : first = step
        · subst same
          have free' entries : child.find (rest ++ [name]) ≠ some (.directory entries) := by
            simpa [find, stands] using free entries
          have apart' : more ≠ rest ++ [name] := fun last => apart (by rw [last]; rfl)
          simpa [put, find, lookup_setEntry_self, stands] using ih inside free' apart'
        · simp [put, find, lookup_setEntry_of_ne same]

end Node

namespace FileTree

variable {t : FileTree} {path name : String} {place : List String}

/-- A path that leads to a place for a file: its last step is the name of none but a file in the
directory that the steps before lead to. -/
structure LeadsTo (t : FileTree) (path : String) (place : List String) (name : String) : Prop where
  isFileName : isFileName name
  last : (Path.steps path).getLast? = some name
  around : (Path.steps path).dropLast.foldlM t.step (t.start path) = some place
  directory : ∃ entries, t.root.find place = some (.directory entries)
  free : ∀ entries, t.root.find (place ++ [name]) ≠ some (.directory entries)

/-- The tree with a file at a place. -/
def withFile (t : FileTree) (place : List String) (content : ByteArray) : FileTree :=
  { t with root := Node.put (.file content) place t.root }

theorem write_eq_some_iff {content : ByteArray} {t' : FileTree} :
    t.write path content = some t' ↔
      ∃ place name, t.LeadsTo path place name ∧ t' = t.withFile (place ++ [name]) content := by
  simp only [write, Option.bind_eq_bind, Option.bind_eq_some_iff, Option.filter_eq_some_iff]
  constructor
  · rintro ⟨name, ⟨last, isFileName⟩, place, around, h⟩
    split at h
    · cases h
    · next directory free =>
      cases h
      exact ⟨place, name, ⟨isFileName, last, around, ⟨_, directory⟩, fun entries => free entries⟩,
        rfl⟩
    · cases h
  · rintro ⟨place, name, ⟨isFileName, last, around, ⟨entries, directory⟩, free⟩, rfl⟩
    refine ⟨name, ⟨last, isFileName⟩, place, around, ?_⟩
    split
    · next found => exact absurd found (free _)
    · rfl
    · next other _ => exact absurd directory (other _)

namespace LeadsTo

variable (leads : t.LeadsTo path place name)
include leads

/-- No directory is inside of the place for a file. -/
theorem not_prefix {other : List String} {entries : List (String × Node)}
    (found : t.root.find other = some (.directory entries)) : ¬ place ++ [name] <+: other := by
  rintro ⟨more, rfl⟩
  rw [Node.find_append] at found
  obtain ⟨node, stands, inside⟩ := Option.bind_eq_some_iff.mp found
  cases node with
  | directory entries => exact leads.free entries stands
  | file content => cases more <;> cases inside

theorem directory_withFile (content : ByteArray) {other : List String}
    {entries : List (String × Node)} (found : t.root.find other = some (.directory entries)) :
    ∃ entries', (t.withFile (place ++ [name]) content).root.find other =
        some (.directory entries') ∧
      ∀ name, (entries.lookup name).isSome → (entries'.lookup name).isSome :=
  Node.find_put_of_directory found (leads.not_prefix found)

theorem step_withFile (content : ByteArray) {start next : List String} {n : String}
    (h : t.step start n = some next) :
    (t.withFile (place ++ [name]) content).step start n = some next := by
  rw [step] at h
  split at h
  · next entries found =>
    obtain ⟨entries', now, kept⟩ := leads.directory_withFile content found
    rw [step, now]
    split at h
    · next stay => simpa [stay] using h
    split at h
    · next stay up => simpa [stay, up] using h
    split at h
    · next stay up isName => simpa [stay, up, kept n isName] using h
    · cases h
  · cases h

theorem foldlM_step_withFile (content : ByteArray) {steps start last : List String}
    (h : steps.foldlM t.step start = some last) :
    steps.foldlM (t.withFile (place ++ [name]) content).step start = some last := by
  induction steps generalizing start with
  | nil => exact h
  | cons n steps ih =>
    obtain ⟨next, first, rest⟩ := Option.bind_eq_some_iff.mp h
    rw [List.foldlM_cons, leads.step_withFile content first]
    exact ih rest

/-- The path still leads there once the file is written. -/
theorem withFile (content : ByteArray) :
    (t.withFile (place ++ [name]) content).LeadsTo path place name where
  isFileName := leads.isFileName
  last := leads.last
  around := leads.foldlM_step_withFile content leads.around
  directory := by
    obtain ⟨entries, found⟩ := leads.directory
    obtain ⟨entries', now, -⟩ := leads.directory_withFile content found
    exact ⟨entries', now⟩
  free entries found := by
    rw [FileTree.withFile, Node.find_put] at found
    cases found

theorem step_last {node : Node} (found : t.root.find (place ++ [name]) = some node) :
    t.step place name = some (place ++ [name]) := by
  obtain ⟨entries, directory⟩ := leads.directory
  have isName := leads.isFileName
  simp only [FileTree.isFileName, ne_eq, decide_not, Bool.and_eq_true, Bool.not_eq_true',
    decide_eq_false_iff_not] at isName
  have stands : (entries.lookup name).isSome := by
    rw [← Node.find_concat directory, found]
    rfl
  rw [step, directory]
  simp [isName, stands]

theorem locate_of_find {node : Node} (found : t.root.find (place ++ [name]) = some node) :
    t.locate path = some (place ++ [name]) := by
  have filled : ¬ path.isEmpty := fun empty => by
    obtain rfl := String.isEmpty_iff.mp empty
    have last : name = "" := by simpa [Path.steps, Path.pieces] using leads.last.symm
    exact absurd leads.isFileName (by simp [FileTree.isFileName, last])
  have steps : Path.steps path = (Path.steps path).dropLast ++ [name] :=
    (List.dropLast_append_getLast? name leads.last).symm
  rw [locate, if_neg filled, steps, List.foldlM_append, leads.around]
  simp only [Option.bind_eq_bind, Option.bind_some, List.foldlM_cons, List.foldlM_nil]
  rw [leads.step_last found]
  rfl

theorem find_withFile (content : ByteArray) :
    (t.withFile (place ++ [name]) content).find path = some (.file content) := by
  have found := Node.find_put (.file content) (place ++ [name]) t.root
  rw [find, (leads.withFile content).locate_of_find found]
  exact found

/-- Every file but the one that is written stays as it is. -/
theorem find_withFile_eq_file_iff {content written : ByteArray} {other : List String}
    (apart : other ≠ place ++ [name]) :
    (t.withFile (place ++ [name]) written).root.find other = some (.file content) ↔
      t.root.find other = some (.file content) := by
  obtain ⟨entries, directory⟩ := leads.directory
  exact Node.find_put_eq_file_iff directory leads.free apart

/-- Where a path leads to nothing, no file is overwritten. -/
theorem find_withFile_of_find_eq_none (absent : t.find path = none) {content written : ByteArray}
    {other : List String} (found : t.root.find other = some (.file content)) :
    (t.withFile (place ++ [name]) written).root.find other = some (.file content) := by
  refine (leads.find_withFile_eq_file_iff ?_).mpr found
  rintro rfl
  rw [find, leads.locate_of_find found, Option.bind_some, found] at absent
  cases absent

end LeadsTo

theorem fromUTF8?_toUTF8 (text : String) : String.fromUTF8? text.toUTF8 = some text :=
  dif_pos text.isValidUTF8

/-- A text that was written is what is read, and writing it once more changes nothing. -/
theorem readText_of_write {text : String} {t' : FileTree}
    (h : t.write path text.toUTF8 = some t') :
    (t'.find path).isSome ∧ t'.readText path = some text ∧
      t'.write path text.toUTF8 = some t' := by
  obtain ⟨place, name, leads, rfl⟩ := write_eq_some_iff.mp h
  have found := leads.find_withFile text.toUTF8
  refine ⟨by rw [found]; rfl, ?_, write_eq_some_iff.mpr ⟨place, name, leads.withFile _, ?_⟩⟩
  · rw [readText, found]
    exact fromUTF8?_toUTF8 text
  · simp [FileTree.withFile, Node.put_put]

end FileTree
end CallStudy
