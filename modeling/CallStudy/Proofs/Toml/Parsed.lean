import CallStudy.Toml.Document

/-!
What holds of every document. Arrays and tables hold what was read before, and a heading or a key
puts together only what was there, so a property of values and tables holds of a document if what
changes a single table keeps it.
-/

set_option autoImplicit false

namespace CallStudy.Toml

/-- A property of values and one of tables which all changes of a table keep. -/
structure Invariant (good : Value → Prop) (sound : Entries → Prop) : Prop where
  text (s : String) : good (.text s)
  scalar {text rest : List Char} {v : Value} (read : Reader.scalar text = some (v, rest)) : good v
  array {items : List Value} (each : ∀ v ∈ items, good v) : good (.array items)
  table_iff {origin : Origin} {entries : Entries} : good (.table origin entries) ↔ sound entries
  tables_iff {elements : List Entries} : good (.tables elements) ↔ ∀ es ∈ elements, sound es
  nil : sound []
  append_one {entries : Entries} {key : String} {v : Value} (old : sound entries)
    (fresh : entries.lookup key = none) (new : good v) : sound (entries ++ [(key, v)])
  set {entries : Entries} {v : Value} (old : sound entries) (key : String) (new : good v) :
    sound (entries.set key v)
  erase {entries : Entries} (old : sound entries) (key : String) : sound (entries.erase key)
  lookup {entries : Entries} {key : String} {v : Value} (old : sound entries)
    (found : entries.lookup key = some v) : good v

/-- A reader of which everything that comes is good. -/
def Reader.Yields {α : Type} (good : α → Prop) (read : Reader α) : Prop :=
  ∀ {text rest : List Char} {a : α}, read text = some (a, rest) → good a

/-- A change of a table that keeps it sound, with a result that is as wanted. -/
def Entries.Keeps {α : Type} (sound : Entries → Prop) (wanted : α → Prop)
    (f : Entries → Option (Entries × α)) : Prop :=
  ∀ {before after : Entries} {a : α}, f before = some (after, a) → sound before →
    sound after ∧ wanted a

theorem Entries.Keeps.updateLast {α : Type} {sound : Entries → Prop} {wanted : α → Prop}
    {f : Entries → Option (Entries × α)} (keeps : Keeps sound wanted f)
    {elements elements' : List Entries} {a : α}
    (h : Entries.updateLast f elements = some (elements', a)) (old : ∀ es ∈ elements, sound es) :
    (∀ es ∈ elements', sound es) ∧ wanted a := by
  induction elements generalizing elements' with
  | nil => cases h
  | cons first rest ih =>
    obtain ⟨head, tail⟩ := List.forall_mem_cons.mp old
    cases rest with
    | nil =>
      obtain ⟨⟨last, a'⟩, changed, same⟩ := Option.map_eq_some_iff.mp h
      cases same
      obtain ⟨new, wanted⟩ := keeps changed head
      exact ⟨List.forall_mem_singleton.mpr new, wanted⟩
    | cons second rest =>
      obtain ⟨⟨rest', a'⟩, changed, same⟩ := Option.map_eq_some_iff.mp h
      cases same
      obtain ⟨new, wanted⟩ := ih changed tail
      exact ⟨List.forall_mem_cons.mpr ⟨head, new⟩, wanted⟩

theorem Reader.Yields.items {good : Value → Prop} {item : Reader Value}
    (each : Yields good item) (fuel : Nat) : Yields (∀ v ∈ ·, good v) (Reader.items item fuel) := by
  induction fuel with
  | zero =>
    intro text rest vs h
    cases h
  | succ fuel ih =>
    intro text rest vs h
    simp only [Reader.items, Option.bind_eq_bind, Option.bind_eq_some_iff] at h
    obtain ⟨start, _, h⟩ := h
    split at h
    · cases h
      exact fun _ mem => absurd mem List.not_mem_nil
    · simp only [Option.bind_eq_some_iff, Prod.exists] at h
      obtain ⟨v, after, read, stop, _, h⟩ := h
      have first := each read
      split at h
      · obtain ⟨⟨vs, _⟩, others, same⟩ := Option.map_eq_some_iff.mp h
        cases same
        exact List.forall_mem_cons.mpr ⟨first, ih others⟩
      · cases h
        exact List.forall_mem_singleton.mpr first
      · cases h

theorem Reader.Yields.keyed {good : Value → Prop} {item : Reader Value} (each : Yields good item) :
    Yields (good ·.2) (Reader.keyed item) := by
  intro text rest kv h
  simp only [Reader.keyed, Option.bind_eq_bind, Option.bind_eq_some_iff, Prod.exists] at h
  obtain ⟨path, last, after, _, h⟩ := h
  split at h
  · simp only [Option.bind_eq_some_iff, Prod.exists] at h
    obtain ⟨v, after, read, same⟩ := h
    cases same
    exact each read
  · cases h

/-- What a value can be that is read. -/
theorem Reader.value_cases {depth : Nat} {text rest : List Char} {v : Value}
    (h : value depth text = some (v, rest)) :
    (∃ inner fuel after vs, depth = inner + 1 ∧
      items (value inner) fuel after = some (vs, rest) ∧ v = .array vs) ∨
    (∃ inner after entries, depth = inner + 1 ∧
      braced (value inner) after = some (entries, rest) ∧ v = .table .inline entries) ∨
    (∃ s, v = .text s) ∨ scalar text = some (v, rest) := by
  rw [value.eq_def] at h
  split at h
  · next after inner =>
    obtain ⟨⟨vs, _⟩, read, same⟩ := Option.map_eq_some_iff.mp h
    cases same
    exact .inl ⟨inner, _, after, vs, rfl, read, rfl⟩
  · next after inner =>
    obtain ⟨⟨entries, _⟩, read, same⟩ := Option.map_eq_some_iff.mp h
    cases same
    exact .inr (.inl ⟨inner, after, entries, rfl, read, rfl⟩)
  · split at h
    · cases h
      exact .inr (.inr (.inl ⟨_, rfl⟩))
    · exact .inr (.inr (.inr h))

namespace Invariant

open Entries (Keeps)
open Reader (Yields)

variable {good : Value → Prop} {sound : Entries → Prop} (inv : Invariant good sound)
include inv

/-! Changes of tables. -/

theorem updateAt {α : Type} {wanted : α → Prop} {f : Entries → Option (Entries × α)}
    (keeps : Keeps sound wanted f) (path : List String) :
    Keeps sound wanted (Entries.updateAt f path) := by
  induction path with
  | nil => exact keeps
  | cons key path ih =>
    intro before after a h old
    rw [Entries.updateAt] at h
    split at h
    · next fresh =>
      obtain ⟨⟨inner, a'⟩, changed, same⟩ := Option.map_eq_some_iff.mp h
      cases same
      obtain ⟨inside, wanted⟩ := ih changed inv.nil
      exact ⟨inv.append_one old fresh (inv.table_iff.mpr inside), wanted⟩
    · cases h
    · next found =>
      obtain ⟨⟨inner, a'⟩, changed, same⟩ := Option.map_eq_some_iff.mp h
      cases same
      obtain ⟨inside, wanted⟩ := ih changed (inv.table_iff.mp (inv.lookup old found))
      exact ⟨inv.set old key (inv.table_iff.mpr inside), wanted⟩
    · next found =>
      obtain ⟨⟨elements, a'⟩, changed, same⟩ := Option.map_eq_some_iff.mp h
      cases same
      obtain ⟨inside, wanted⟩ :=
        ih.updateLast changed (inv.tables_iff.mp (inv.lookup old found))
      exact ⟨inv.set old key (inv.tables_iff.mpr inside), wanted⟩
    · cases h

theorem insert {value : Value} (new : good value) {key : String} {path : List String}
    {entries entries' : Entries} (h : entries.insert value key path = some entries')
    (old : sound entries) : sound entries' := by
  induction path generalizing entries entries' with
  | nil =>
    rw [Entries.insert] at h
    split at h
    · next fresh =>
      cases h
      exact inv.append_one old (Option.isNone_iff_eq_none.mp fresh) new
    · cases h
  | cons step path ih =>
    rw [Entries.insert] at h
    split at h
    · next fresh =>
      obtain ⟨inner, inserted, rfl⟩ := Option.map_eq_some_iff.mp h
      exact inv.append_one old fresh (inv.table_iff.mpr (ih inserted inv.nil))
    · next found =>
      obtain ⟨inner, inserted, rfl⟩ := Option.map_eq_some_iff.mp h
      have inside := inv.table_iff.mp (inv.lookup old found)
      exact inv.set old step (inv.table_iff.mpr (ih inserted inside))
    · next found =>
      split at h
      · cases h
      · obtain ⟨inner, inserted, rfl⟩ := Option.map_eq_some_iff.mp h
        have inside := inv.table_iff.mp (inv.lookup old found)
        exact inv.set old step (inv.table_iff.mpr (ih inserted inside))
    · next found =>
      split at h
      · cases h
      · obtain ⟨⟨elements, _⟩, inserted, rfl⟩ := Option.map_eq_some_iff.mp h
        have keeps : Keeps sound (fun _ => True)
            fun e => (Entries.insert value key path e).map (·, ()) := by
          intro before after a h old
          obtain ⟨_, inserted, same⟩ := Option.map_eq_some_iff.mp h
          cases same
          exact ⟨ih inserted old, trivial⟩
        have inside := inv.tables_iff.mp (inv.lookup old found)
        exact inv.set old step (inv.tables_iff.mpr (keeps.updateLast inserted inside).1)
    · cases h

/-! Values that are read. -/

theorem pairs {item : Reader Value} (each : Yields good item) (fuel : Nat) {entries : Entries}
    (old : sound entries) : Yields sound (Reader.pairs item fuel entries) := by
  induction fuel generalizing entries with
  | zero =>
    intro text rest es h
    cases h
  | succ fuel ih =>
    intro text rest es h
    simp only [Reader.pairs, Option.bind_eq_bind, Option.bind_eq_some_iff, Prod.exists] at h
    obtain ⟨path, last, v, after, read, entries', inserted, h⟩ := h
    have new := inv.insert (each.keyed read) inserted old
    split at h
    · exact ih new h
    · cases h
      exact new
    · cases h

theorem braced {item : Reader Value} (each : Yields good item) :
    Yields sound (Reader.braced item) := by
  intro text rest es h
  rw [Reader.braced] at h
  split at h
  · cases h
    exact inv.nil
  · exact inv.pairs each _ inv.nil h

theorem value (depth : Nat) : Yields good (Reader.value depth) := by
  induction depth with
  | zero =>
    intro text rest v h
    obtain ⟨_, _, _, _, none, _⟩ | ⟨_, _, _, none, _⟩ | ⟨s, rfl⟩ | read := Reader.value_cases h
    · cases none
    · cases none
    · exact inv.text s
    · exact inv.scalar read
  | succ depth ih =>
    intro text rest v h
    obtain ⟨_, fuel, _, _, same, read, rfl⟩ | ⟨_, _, _, same, read, rfl⟩ | ⟨s, rfl⟩ | read :=
      Reader.value_cases h
    · cases same
      exact inv.array (Yields.items ih fuel read)
    · cases same
      exact inv.table_iff.mpr (inv.braced ih read)
    · exact inv.text s
    · exact inv.scalar read

end Invariant

/-! Documents. -/

/-- A draft of sound tables. -/
structure Draft.Sound (sound : Entries → Prop) (d : Draft) : Prop where
  root : sound d.root
  entries : sound d.entries

namespace Invariant

open Entries (Keeps)
open Draft (Sound)

variable {good : Value → Prop} {sound : Entries → Prop} (inv : Invariant good sound)
include inv

theorem put (key : String) (shared : Bool) {table : Entries} (new : sound table) :
    Keeps sound (fun _ => True) (Draft.put key shared table) := by
  intro before after a h old
  rw [Draft.put.eq_def] at h
  split at h
  · next found =>
    cases h
    refine ⟨inv.set old key (inv.tables_iff.mpr fun es mem => ?_), trivial⟩
    rcases List.mem_append.mp mem with mem | mem
    · exact inv.tables_iff.mp (inv.lookup old found) es mem
    · obtain rfl := List.mem_singleton.mp mem
      exact new
  · next fresh =>
    cases h
    exact ⟨inv.append_one old fresh (inv.table_iff.mpr new), trivial⟩
  · cases h

theorem close {d : Draft} (old : d.Sound sound) {done : Entries} (h : d.close = some done) :
    sound done := by
  rw [Draft.close] at h
  split at h
  · cases h
    exact old.entries
  · obtain ⟨⟨_, _⟩, updated, rfl⟩ := Option.map_eq_some_iff.mp h
    exact (inv.updateAt (inv.put _ _ old.entries) _ updated old.root).1

theorem take (key : String) : Keeps sound sound (Draft.take key) := by
  intro before after taken h old
  rw [Draft.take] at h
  split at h
  · cases h
    exact ⟨old, inv.nil⟩
  · next found =>
    cases h
    exact ⟨inv.erase old key, inv.table_iff.mp (inv.lookup old found)⟩
  · cases h

theorem share (key : String) : Keeps sound sound (Draft.share key) := by
  intro before after taken h old
  rw [Draft.share] at h
  split at h
  · next fresh =>
    cases h
    have none : good (.tables []) := inv.tables_iff.mpr fun _ mem => absurd mem List.not_mem_nil
    exact ⟨inv.append_one old fresh none, inv.nil⟩
  · cases h
    exact ⟨old, inv.nil⟩
  · cases h

theorem openTable {d d' : Draft} (old : d.Sound sound) {path : List String} {shared : Bool}
    (h : d.openTable path shared = some d') : d'.Sound sound := by
  simp only [Draft.openTable, Option.bind_eq_bind, Option.bind_eq_some_iff, Prod.exists] at h
  obtain ⟨done, closed, key, _, root, entries, updated, same⟩ := h
  cases same
  have keeps : Keeps sound sound (if shared then Draft.share key else Draft.take key) := by
    split
    · exact inv.share key
    · exact inv.take key
  obtain ⟨root, entries⟩ := inv.updateAt keeps _ updated (inv.close old closed)
  exact ⟨root, entries⟩

theorem insertInto {d d' : Draft} (old : d.Sound sound) {path : List String} {key : String}
    {v : Value} (new : good v) (h : d.insert path key v = some d') : d'.Sound sound := by
  obtain ⟨entries, inserted, rfl⟩ := Option.map_eq_some_iff.mp h
  exact ⟨old.root, inv.insert new inserted old.entries⟩

theorem lines {d d' : Draft} (old : d.Sound sound) {fuel : Nat} {text : List Char}
    (h : Draft.lines fuel d text = some d') : d'.Sound sound := by
  induction fuel generalizing d text with
  | zero => cases h
  | succ fuel ih =>
    simp only [Draft.lines, Option.bind_eq_bind, Option.bind_eq_some_iff] at h
    obtain ⟨start, _, h⟩ := h
    split at h
    · cases h
      exact old
    · simp only [Option.bind_eq_some_iff, Prod.exists] at h
      obtain ⟨path, after, _, opened, isOpen, h⟩ := h
      exact ih (inv.openTable old isOpen) h
    · simp only [Option.bind_eq_some_iff, Prod.exists] at h
      obtain ⟨path, after, _, opened, isOpen, h⟩ := h
      exact ih (inv.openTable old isOpen) h
    · simp only [Option.bind_eq_some_iff, Prod.exists] at h
      obtain ⟨path, last, v, after, read, next, _, grown, inserted, h⟩ := h
      have new : good v := Reader.Yields.keyed (inv.value _) read
      exact ih (inv.insertInto old new inserted) h

theorem parse? {text : List Char} {entries : Entries} (h : Toml.parse? text = some entries) :
    sound entries := by
  obtain ⟨d, read, closed⟩ := Option.bind_eq_some_iff.mp h
  exact inv.close (inv.lines ⟨inv.nil, inv.nil⟩ read) closed

end Invariant
end CallStudy.Toml
