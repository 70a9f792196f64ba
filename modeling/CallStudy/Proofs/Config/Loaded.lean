import CallStudy.Proofs.Run.Guard
import CallStudy.Proofs.Toml.Words

/-!
What is loaded can be saved. A document holds no integer that exceeds a word, so the sides of a
loaded grid are no longer than what can be written.
-/

set_option autoImplicit false

namespace CallStudy

open Toml (Entries)

namespace Field

variable {σ : Type} {good : σ → Prop} {fields : List (Field σ)}

/-- A field that leaves a section good, whatever of a document is read there. -/
def Preserves (good : σ → Prop) (field : Field σ) : Prop :=
  ∀ {v : Toml.Value} {s s' : σ}, v.Fits → field.read v s = .ok s' → good s → good s'

theorem good_of_readTable (each : ∀ field ∈ fields, field.Preserves good) {entries : Entries}
    (fit : entries.Fit) {s s' : σ} (h : readTable fields entries s = .ok s') (start : good s) :
    good s' := by
  induction entries generalizing s with
  | nil =>
    cases h
    exact start
  | cons entry entries ih =>
    obtain ⟨first, rest⟩ := List.forall_mem_cons.mp fit
    rw [readTable, List.foldlM_cons, bind_eq_ok_iff] at h
    obtain ⟨s₁, read, others⟩ := h
    obtain ⟨key, v⟩ := entry
    apply ih rest others
    dsimp only at read
    split at read
    · next found => exact each _ (List.mem_of_find?_eq_some found) first read start
    · cases read
      exact start

theorem good_of_readItems (each : ∀ field ∈ fields, field.Preserves good)
    {items : List Toml.Value} (fits : ∀ v ∈ items, v.Fits) {s s' : σ}
    (h : readItems fields items s = .ok s') (start : good s) : good s' := by
  induction fields generalizing items s with
  | nil =>
    cases h
    exact start
  | cons field fields ih =>
    cases items with
    | nil =>
      cases h
      exact start
    | cons v items =>
      obtain ⟨first, rest⟩ := List.forall_mem_cons.mp fits
      obtain ⟨head, tail⟩ := List.forall_mem_cons.mp each
      rw [readItems, List.zip_cons_cons, List.foldlM_cons, bind_eq_ok_iff] at h
      obtain ⟨s₁, read, others⟩ := h
      exact ih tail rest others (head first read start)

theorem good_of_readSection (each : ∀ field ∈ fields, field.Preserves good) {name : String}
    {v : Toml.Value} (fits : v.Fits) {s s' : σ} (h : readSection name fields s v = .ok s')
    (start : good s) : good s' := by
  cases fits with
  | table fit => exact good_of_readTable each fit h start
  | datetime =>
    cases h
    exact start
  | array items => exact good_of_readItems each items h start
  | tables elements =>
    refine good_of_readItems each ?_ h start
    intro v mem
    obtain ⟨entries, member, rfl⟩ := List.mem_map.mp mem
    exact .table (elements entries member)
  | _ => cases h

end Field

theorem isSome_of_readSide {v : Toml.Value} (fits : v.Fits) {w : UInt64}
    (h : v.readSide = .ok w) : (Word.ofInt? w.toNat).isSome := by
  cases fits with
  | @integer n fits =>
    obtain ⟨m, read, rfl⟩ := map_eq_ok_iff.mp h
    rw [Toml.Value.readInteger] at read
    split at read
    · next range =>
      cases read
      have value : ((UInt64.ofNat n.toNat).toNat : Int) = n := by
        rw [UInt64.size] at range
        rw [UInt64.toNat_ofNat_of_lt' (by rw [UInt64.size]; omega)]
        omega
      rwa [value]
    · cases read
  | _ => cases h

/-- A grid with sides that can be written. -/
def GridConfig.IsWritable (c : GridConfig) : Prop :=
  (Word.ofInt? c.rows.toNat).isSome ∧ (Word.ofInt? c.cols.toNat).isSome

theorem GridConfig.isWritable_of_read {v : Toml.Value} (fits : v.Fits) {c : GridConfig}
    (h : GridConfig.read v = .ok c) : c.IsWritable := by
  have rows : Field.Preserves IsWritable
      ⟨"rows", fun v s => return { s with rows := ← v.readSide }⟩ := by
    intro v s s' fits h good
    obtain ⟨w, read, same⟩ := bind_eq_ok_iff.mp h
    cases same
    exact ⟨isSome_of_readSide fits read, good.2⟩
  have cols : Field.Preserves IsWritable
      ⟨"cols", fun v s => return { s with cols := ← v.readSide }⟩ := by
    intro v s s' fits h good
    obtain ⟨w, read, same⟩ := bind_eq_ok_iff.mp h
    cases same
    exact ⟨good.1, isSome_of_readSide fits read⟩
  have each : ∀ field ∈ fields, field.Preserves IsWritable :=
    List.forall_mem_cons.mpr ⟨rows, List.forall_mem_singleton.mpr cols⟩
  exact Field.good_of_readSection each fits h ⟨by decide, by decide⟩

namespace Config

theorem isWritable_iff {c : Config} : c.isWritable ↔ c.grid.IsWritable := Bool.and_eq_true_iff

/-- Only the section of the grid has a say in whether a configuration can be written. -/
theorem preserves_isWritable :
    ∀ field ∈ fields, field.Preserves (fun c : Config => c.grid.IsWritable) := by
  intro field mem v c c' fits h good
  simp only [fields, List.mem_cons, List.not_mem_nil, or_false] at mem
  rcases mem with rfl | rfl | rfl | rfl | rfl <;>
    obtain ⟨part, read, same⟩ := bind_eq_ok_iff.mp h <;> cases same
  · exact GridConfig.isWritable_of_read fits read
  all_goals exact good

theorem isWritable_default : isWritable {} := by decide

theorem isWritable_of_ofText {text : String} {c : Config} (h : ofText text = .ok c) :
    c.isWritable := by
  rw [ofText] at h
  split at h
  · cases h
  · next entries read =>
    have grid := Field.good_of_readTable preserves_isWritable (Toml.fit_of_parse? read)
      (mapError_eq_ok_iff.mp h) (isWritable_iff.mp isWritable_default)
    exact isWritable_iff.mpr grid

variable {σ : Type} [FileAccess (StateM σ)]

/-- What is loaded can be saved. -/
theorem Loaded.isWritable {c : Config} (loaded : Loaded σ c) : c.isWritable := by
  obtain rfl | ⟨_ | text, h⟩ := loaded.eq_default_or
  · exact isWritable_default
  · cases h
  · exact isWritable_of_ofText (ofContent_some_eq_ok_iff.mp h).1

end Config
end CallStudy
