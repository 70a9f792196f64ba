import CallStudy.Files.Access
import CallStudy.Proofs.Text.Named
import Mathlib.Data.Option.Basic

/-!
Directories list their entries in any order. Trees that differ in nothing else have the same files
under the same paths, and the same names in every directory.
-/

set_option autoImplicit false

namespace CallStudy

namespace Node

/-- The same, with the entries of each directory listed in any order. -/
inductive Rearranged : Node → Node → Prop
  | file (content : ByteArray) : Rearranged (file content) (file content)
  | directory {entries others : List (String × Node)} (distinct : (entries.map (·.1)).Nodup)
      (names : (entries.map (·.1)).Perm (others.map (·.1)))
      (each : ∀ name child other, entries.lookup name = some child →
        others.lookup name = some other → Rearranged child other) :
      Rearranged (directory entries) (directory others)

namespace Rearranged

variable {a b : Node}

theorem isFile (h : Rearranged a b) : b.isFile = a.isFile := by
  cases h <;> rfl

theorem lookup {entries others : List (String × Node)}
    (h : Rearranged (.directory entries) (.directory others)) (name : String) :
    Option.Rel Rearranged (entries.lookup name) (others.lookup name) := by
  cases h with
  | directory distinct names each =>
    cases here : entries.lookup name with
    | none =>
      have absent := Named.isSome_lookup_of_perm names name
      rw [here, Option.isSome_none, eq_comm, Option.isSome_eq_false_iff] at absent
      rw [Option.isNone_iff_eq_none.mp absent]
      exact .none
    | some child =>
      have present := Named.isSome_lookup_of_perm names name
      rw [here, Option.isSome_some] at present
      obtain ⟨other, there⟩ := Option.isSome_iff_exists.mp present.symm
      rw [there]
      exact .some (each name child other here there)

theorem find (h : Rearranged a b) (place : List String) :
    Option.Rel Rearranged (a.find place) (b.find place) := by
  induction place generalizing a b with
  | nil => exact .some h
  | cons name rest ih =>
    cases h with
    | file content => exact .none
    | @directory entries others distinct names each =>
      have entry := lookup (.directory distinct names each) name
      rw [Node.find, Node.find]
      generalize entries.lookup name = here at entry
      generalize others.lookup name = there at entry
      cases entry with
      | none => exact .none
      | some inner => exact ih inner

theorem of_perm {entries others : List (String × Node)} (distinct : (entries.map (·.1)).Nodup)
    (perm : entries.Perm others) (each : ∀ entry ∈ entries, Rearranged entry.2 entry.2) :
    Rearranged (.directory entries) (.directory others) := by
  refine .directory distinct (perm.map _) fun name child other here there => ?_
  have distinct' := (perm.map (·.1)).nodup_iff.mp distinct
  have mem := (Named.mem_iff_lookup distinct).mpr here
  have mem' := perm.mem_iff.mpr ((Named.mem_iff_lookup distinct').mpr there)
  rw [(Named.mem_iff_lookup distinct).mp mem', Option.some_inj] at here
  exact here ▸ each _ mem

/-- The names of the files in a directory are the same but for their order. -/
theorem fileNames {entries others : List (String × Node)}
    (h : Rearranged (.directory entries) (.directory others)) :
    ((entries.filter (·.2.isFile)).map (·.1)).Perm ((others.filter (·.2.isFile)).map (·.1)) := by
  cases h with
  | directory distinct names each =>
    have distinct' := names.nodup_iff.mp distinct
    have whole : Rearranged (.directory entries) (.directory others) :=
      .directory distinct names each
    apply (List.perm_ext_iff_of_nodup ?_ ?_).mpr
    · intro name
      simp only [List.mem_map, List.mem_filter, Prod.exists, exists_and_right, exists_eq_right,
        Named.mem_iff_lookup distinct, Named.mem_iff_lookup distinct']
      have entry := whole.lookup name
      generalize entries.lookup name = here at entry
      generalize others.lookup name = there at entry
      cases entry with
      | none => simp
      | some inner => simp [inner.isFile]
    · exact distinct.sublist (List.filter_sublist.map _)
    · exact distinct'.sublist (List.filter_sublist.map _)

end Rearranged
end Node

namespace FileTree

/-- The same tree, seen from the same directory, with entries listed in any order. -/
structure Rearranged (t other : FileTree) : Prop where
  root : t.root.Rearranged other.root
  current : other.current = t.current

namespace Rearranged

variable {t other : FileTree} (h : t.Rearranged other)
include h

theorem step (place : List String) (name : String) : other.step place name = t.step place name := by
  have found := h.root.find place
  rw [FileTree.step, FileTree.step]
  generalize t.root.find place = here at found
  generalize other.root.find place = there at found
  cases found with
  | none => rfl
  | some found =>
    cases found with
    | file content => rfl
    | directory distinct names each => simp only [Named.isSome_lookup_of_perm names name]

theorem locate (path : String) : other.locate path = t.locate path := by
  rw [FileTree.locate, FileTree.locate, start, start, h.current]
  have same : other.step = t.step := funext fun place => funext (h.step place)
  rw [same]

theorem find (path : String) : Option.Rel Node.Rearranged (t.find path) (other.find path) := by
  rw [FileTree.find, FileTree.find, h.locate]
  cases t.locate path with
  | none => exact .none
  | some place => exact h.root.find place

theorem readText (path : String) : other.readText path = t.readText path := by
  have found := h.find path
  rw [FileTree.readText, FileTree.readText]
  generalize t.find path = here at found
  generalize other.find path = there at found
  cases found with
  | none => rfl
  | some found => cases found <;> rfl

end Rearranged
end FileTree
end CallStudy
