import CallStudy.Proofs.Toml.Parsed

/-!
Every integer of a document fits in a word, because scalars are read so.
-/

set_option autoImplicit false

namespace CallStudy.Toml

/-- All integers in a value fit in a word. -/
inductive Value.Fits : Value → Prop
  | text (s : String) : Fits (.text s)
  | integer {n : Int} (fits : (Word.ofInt? n).isSome) : Fits (.integer n)
  | real (x : Float) : Fits (.real x)
  | boolean (b : Bool) : Fits (.boolean b)
  | datetime : Fits .datetime
  | array {items : List Value} (each : ∀ v ∈ items, Fits v) : Fits (.array items)
  | table {origin : Origin} {entries : List (String × Value)} (each : ∀ e ∈ entries, Fits e.2) :
      Fits (.table origin entries)
  | tables {elements : List (List (String × Value))} (each : ∀ es ∈ elements, ∀ e ∈ es, Fits e.2) :
      Fits (.tables elements)

namespace Entries

def Fit (entries : Entries) : Prop := ∀ e ∈ entries, e.2.Fits

theorem fit_nil : Fit [] := fun _ mem => absurd mem List.not_mem_nil

variable {entries : Entries}

theorem Fit.append_one (fit : Fit entries) (key : String) {v : Value} (fits : v.Fits) :
    Fit (entries ++ [(key, v)]) := by
  intro e mem
  rcases List.mem_append.mp mem with old | new
  · exact fit e old
  · obtain rfl := List.mem_singleton.mp new
    exact fits

theorem Fit.set (fit : Fit entries) (key : String) {v : Value} (fits : v.Fits) :
    Fit (entries.set key v) := by
  induction entries with
  | nil => exact fit_nil.append_one key fits
  | cons first rest ih =>
    obtain ⟨k, old⟩ := first
    obtain ⟨head, tail⟩ := List.forall_mem_cons.mp fit
    rw [Entries.set]
    split
    · exact List.forall_mem_cons.mpr ⟨fits, tail⟩
    · exact List.forall_mem_cons.mpr ⟨head, ih tail⟩

theorem Fit.erase (fit : Fit entries) (key : String) : Fit (entries.erase key) :=
  fun e mem => fit e (List.mem_filter.mp mem).1

theorem Fit.lookup (fit : Fit entries) {key : String} {v : Value}
    (found : entries.lookup key = some v) : v.Fits := by
  obtain ⟨before, after, rfl, -⟩ := List.lookup_eq_some_iff.mp found
  exact fit (key, v) (by simp)

end Entries

theorem fits_of_scalar {text rest : List Char} {v : Value}
    (h : Reader.scalar text = some (v, rest)) : v.Fits := by
  rw [Reader.scalar] at h
  split at h
  · cases h
    exact .datetime
  split at h
  · cases h
    exact .real _
  split at h
  · next read =>
    cases h
    exact .integer (Option.filter_eq_some_iff.mp read).2
  · obtain ⟨_, _, same⟩ := Option.map_eq_some_iff.mp h
    cases same
    exact .boolean _

open Entries (Fit)

theorem fits_invariant : Invariant Value.Fits Fit where
  text := .text
  scalar := fits_of_scalar
  array := .array
  table_iff := by
    intro origin entries
    constructor
    · intro fits
      cases fits with
      | table each => exact each
    · exact .table
  tables_iff := by
    intro elements
    constructor
    · intro fits
      cases fits with
      | tables each => exact each
    · exact .tables
  nil := Entries.fit_nil
  append_one old _ new := old.append_one _ new
  set old key new := old.set key new
  erase old key := old.erase key
  lookup old found := old.lookup found

theorem fit_of_parse? {text : List Char} {entries : Entries} (h : parse? text = some entries) :
    entries.Fit :=
  fits_invariant.parse? h

end CallStudy.Toml
