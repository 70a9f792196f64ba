import CallStudy.Proofs.Text.Named
import CallStudy.Proofs.Toml.Parsed

/-!
No table of a document has a key twice. A key comes only where none of its name is, or stays with a
new value.
-/

set_option autoImplicit false

namespace CallStudy.Toml

/-- No table in a value has a key twice. -/
inductive Value.Distinct : Value → Prop
  | text (s : String) : Distinct (.text s)
  | integer (n : Int) : Distinct (.integer n)
  | real (x : Float) : Distinct (.real x)
  | boolean (b : Bool) : Distinct (.boolean b)
  | datetime : Distinct .datetime
  | array {items : List Value} (each : ∀ v ∈ items, Distinct v) : Distinct (.array items)
  | table {origin : Origin} {entries : List (String × Value)} (keys : (entries.map (·.1)).Nodup)
      (each : ∀ e ∈ entries, Distinct e.2) : Distinct (.table origin entries)
  | tables {elements : List (List (String × Value))}
      (keys : ∀ es ∈ elements, (es.map (·.1)).Nodup)
      (each : ∀ es ∈ elements, ∀ e ∈ es, Distinct e.2) : Distinct (.tables elements)

namespace Entries

structure Distinct (entries : Entries) : Prop where
  keys : (entries.map (·.1)).Nodup
  each : ∀ e ∈ entries, e.2.Distinct

variable {entries : Entries}

theorem mem_keys_set_iff {key other : String} {v : Value} :
    other ∈ (entries.set key v).map (·.1) ↔ other = key ∨ other ∈ entries.map (·.1) := by
  induction entries with
  | nil => simp [Entries.set]
  | cons first rest ih =>
    rw [Entries.set]
    split
    · next same => simp [same]
    · rw [List.map_cons, List.mem_cons, ih, List.map_cons, List.mem_cons]
      exact or_left_comm

theorem Distinct.set (distinct : Distinct entries) (key : String) {v : Value} (new : v.Distinct) :
    Distinct (entries.set key v) := by
  obtain ⟨keys, each⟩ := distinct
  induction entries with
  | nil => exact ⟨List.nodup_singleton _, List.forall_mem_singleton.mpr new⟩
  | cons first rest ih =>
    obtain ⟨fresh, keys⟩ := List.nodup_cons.mp keys
    obtain ⟨head, tail⟩ := List.forall_mem_cons.mp each
    rw [Entries.set]
    split
    · exact ⟨List.nodup_cons.mpr ⟨fresh, keys⟩, List.forall_mem_cons.mpr ⟨new, tail⟩⟩
    · next other =>
      obtain ⟨keys, tail⟩ := ih keys tail
      have fresh : first.1 ∉ (Entries.set key v rest).map (·.1) := by
        rw [mem_keys_set_iff]
        exact not_or.mpr ⟨other, fresh⟩
      exact ⟨List.nodup_cons.mpr ⟨fresh, keys⟩, List.forall_mem_cons.mpr ⟨head, tail⟩⟩

theorem Distinct.append_one (distinct : Distinct entries) {key : String} {v : Value}
    (fresh : entries.lookup key = none) (new : v.Distinct) :
    Distinct (entries ++ [(key, v)]) := by
  have absent := Named.lookup_eq_none_iff.mp fresh
  constructor
  · rw [List.map_append]
    exact distinct.keys.append (List.nodup_singleton _) (by simpa using absent)
  · intro e mem
    rcases List.mem_append.mp mem with old | last
    · exact distinct.each e old
    · obtain rfl := List.mem_singleton.mp last
      exact new

theorem Distinct.erase (distinct : Distinct entries) (key : String) :
    Distinct (entries.erase key) where
  keys := distinct.keys.sublist (List.filter_sublist.map _)
  each e mem := distinct.each e (List.mem_filter.mp mem).1

theorem Distinct.lookup (distinct : Distinct entries) {key : String} {v : Value}
    (found : entries.lookup key = some v) : v.Distinct :=
  distinct.each (key, v) ((Named.mem_iff_lookup distinct.keys).mpr found)

end Entries

theorem distinct_of_scalar {text rest : List Char} {v : Value}
    (h : Reader.scalar text = some (v, rest)) : v.Distinct := by
  rw [Reader.scalar] at h
  split at h
  · cases h
    exact .datetime
  split at h
  · cases h
    exact .real _
  split at h
  · cases h
    exact .integer _
  · obtain ⟨_, _, same⟩ := Option.map_eq_some_iff.mp h
    cases same
    exact .boolean _

theorem distinct_invariant : Invariant Value.Distinct Entries.Distinct where
  text := .text
  scalar := distinct_of_scalar
  array := .array
  table_iff := by
    intro origin entries
    constructor
    · intro distinct
      cases distinct with
      | table keys each => exact ⟨keys, each⟩
    · exact fun distinct => .table distinct.keys distinct.each
  tables_iff := by
    intro elements
    constructor
    · intro distinct
      cases distinct with
      | tables keys each => exact fun es mem => ⟨keys es mem, each es mem⟩
    · exact fun distinct => .tables (fun es mem => (distinct es mem).keys)
        fun es mem => (distinct es mem).each
  nil := ⟨List.nodup_nil, fun _ mem => absurd mem List.not_mem_nil⟩
  append_one old fresh new := old.append_one fresh new
  set old key new := old.set key new
  erase old key := old.erase key
  lookup old found := old.lookup found

theorem distinct_of_parse? {text : List Char} {entries : Entries}
    (h : parse? text = some entries) : entries.Distinct :=
  distinct_invariant.parse? h

end CallStudy.Toml
