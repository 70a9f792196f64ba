import Mathlib.Data.List.Nodup
import Mathlib.Data.List.Perm.Basic

/-!
Lists of values with names. Where no name comes twice, what is found under one depends neither on
the order of the list nor on the values under others.
-/

set_option autoImplicit false

namespace CallStudy.Named

variable {α : Type} {name : String} {a : α} {entries others : List (String × α)}

theorem isSome_lookup_iff : (entries.lookup name).isSome ↔ name ∈ entries.map (·.1) := by
  simp [List.lookup_isSome_iff]

theorem lookup_eq_none_iff : entries.lookup name = none ↔ name ∉ entries.map (·.1) := by
  rw [← isSome_lookup_iff, Bool.not_eq_true, Option.isSome_eq_false_iff,
    Option.isNone_iff_eq_none]

theorem isSome_lookup_of_perm (names : (entries.map (·.1)).Perm (others.map (·.1)))
    (name : String) : (entries.lookup name).isSome = (others.lookup name).isSome := by
  rw [Bool.eq_iff_iff, isSome_lookup_iff, isSome_lookup_iff, names.mem_iff]

theorem mem_iff_lookup (distinct : (entries.map (·.1)).Nodup) :
    (name, a) ∈ entries ↔ entries.lookup name = some a := by
  induction entries with
  | nil => simp
  | cons first rest ih =>
    obtain ⟨n, old⟩ := first
    obtain ⟨fresh, distinct⟩ := List.nodup_cons.mp distinct
    by_cases same : name = n
    · subst same
      have absent : (name, a) ∉ rest := fun mem => fresh (List.mem_map_of_mem (f := (·.1)) mem)
      simp [absent, eq_comm]
    · have apart : (name == n) = false := beq_false_of_ne same
      rw [List.lookup_cons, apart, ← ih distinct, List.mem_cons, Prod.mk.injEq]
      simp [same]

theorem lookup_of_perm (distinct : (entries.map (·.1)).Nodup) (perm : entries.Perm others)
    (name : String) : others.lookup name = entries.lookup name := by
  have distinct' := (perm.map (·.1)).nodup_iff.mp distinct
  apply Option.ext
  intro a
  rw [← mem_iff_lookup distinct, ← mem_iff_lookup distinct', perm.mem_iff]

section Middle

variable {before after : List (String × α)}
  (distinct : ((before ++ (name, a) :: after).map (·.1)).Nodup)
include distinct

theorem not_mem_around : name ∉ (before ++ after).map (·.1) := by
  rw [List.map_append, List.map_cons, List.nodup_middle, List.nodup_cons] at distinct
  rw [List.map_append]
  exact distinct.1

theorem lookup_around : (before ++ after).lookup name = none :=
  lookup_eq_none_iff.mpr (not_mem_around distinct)

theorem lookup_middle (other : String) :
    (before ++ (name, a) :: after).lookup other =
      if other = name then some a else (before ++ after).lookup other := by
  have perm : (before ++ (name, a) :: after).Perm ((name, a) :: (before ++ after)) :=
    List.perm_middle
  rw [← lookup_of_perm distinct perm, List.lookup_cons]
  split
  · next same => rw [if_pos (eq_of_beq same)]
  · next apart => rw [if_neg (ne_of_beq_false apart)]

end Middle
end CallStudy.Named
