import CallStudy.Config.Read
import CallStudy.Proofs.Text.Named
import CallStudy.Proofs.Workload.Sums
import Mathlib.Data.List.Forall2

/-!
Values with their tables in another order. Whatever a reader takes for a value of its own, it takes
for the same in any order.
-/

set_option autoImplicit false

namespace CallStudy

open Toml (Entries Origin Value)

namespace Toml.Value

/-- The same value, with the keys of every table in any order and the table written in any way. -/
inductive Reordered : Value → Value → Prop
  | refl (v : Value) : Reordered v v
  | array {items items' : List Value} (length : items.length = items'.length)
      (each : ∀ vs ∈ items.zip items', Reordered vs.1 vs.2) :
      Reordered (.array items) (.array items')
  | table {origin origin' : Origin} {entries middle entries' : List (String × Value)}
      (perm : entries.Perm middle) (names : middle.map (·.1) = entries'.map (·.1))
      (each : ∀ es ∈ middle.zip entries', Reordered es.1.2 es.2.2) :
      Reordered (.table origin entries) (.table origin' entries')
  | tables {elements elements' : List (List (String × Value))}
      (length : elements.length = elements'.length)
      (each : ∀ es ∈ elements.zip elements',
        Reordered (.table .heading es.1) (.table .heading es.2)) :
      Reordered (.tables elements) (.tables elements')

theorem Reordered.rel_refl (found : Option Value) : Option.Rel Reordered found found := by
  cases found with
  | none => exact .none
  | some v => exact .some (.refl v)

theorem lookup_reordered {middle entries' : Entries}
    (names : middle.map (·.1) = entries'.map (·.1))
    (each : ∀ es ∈ middle.zip entries', Reordered es.1.2 es.2.2) (name : String) :
    Option.Rel Reordered (middle.lookup name) (entries'.lookup name) := by
  induction middle generalizing entries' with
  | nil =>
    obtain rfl := List.map_eq_nil_iff.mp names.symm
    exact .none
  | cons e rest ih =>
    obtain ⟨n, v⟩ := e
    cases entries' with
    | nil => cases names
    | cons e' rest' =>
      obtain ⟨n', v'⟩ := e'
      obtain ⟨head, tail⟩ := List.forall_mem_cons.mp each
      obtain ⟨same, others⟩ := List.cons.inj names
      obtain rfl : n = n' := same
      rw [List.lookup_cons, List.lookup_cons]
      split
      · exact .some head
      · exact ih others tail

/-- In another order a table has the same under every key, but for the order inside. -/
theorem Reordered.lookup {origin origin' : Origin} {entries entries' : Entries}
    (same : Reordered (.table origin entries) (.table origin' entries'))
    (distinct : (entries.map (·.1)).Nodup) (name : String) :
    Option.Rel Reordered (entries.lookup name) (entries'.lookup name) := by
  cases same with
  | refl => exact rel_refl _
  | table perm names each =>
    rw [← Named.lookup_of_perm distinct perm]
    exact lookup_reordered names each name

/-- A reader that takes a value for the same in any order. -/
def OrderBlind {α : Type} (read : Value → Except Misfit α) : Prop :=
  ∀ ⦃v v' : Value⦄ ⦃a : α⦄, Reordered v v' → read v = .ok a → read v' = .ok a

namespace OrderBlind

variable {α β : Type} {read : Value → Except Misfit α}

/-- What refuses arrays and tables has no order to see. -/
theorem of_refuses (array : ∀ items a, read (.array items) ≠ .ok a)
    (table : ∀ origin entries a, read (.table origin entries) ≠ .ok a)
    (tables : ∀ elements a, read (.tables elements) ≠ .ok a) : OrderBlind read := by
  intro v v' a same took
  cases same with
  | refl => exact took
  | array => exact absurd took (array _ _)
  | table => exact absurd took (table _ _ _)
  | tables => exact absurd took (tables _ _)

theorem map (blind : OrderBlind read) (f : α → β) : OrderBlind fun v => (read v).map f := by
  intro v v' b same took
  obtain ⟨a, took', rfl⟩ := map_eq_ok_iff.mp took
  exact map_eq_ok_iff.mpr ⟨a, blind same took', rfl⟩

theorem mapM (blind : OrderBlind read) {items items' : List Value} {as : List α}
    (same : List.Forall₂ Reordered items items') (took : items.mapM read = .ok as) :
    items'.mapM read = .ok as := by
  induction same generalizing as with
  | nil => exact took
  | cons first _ ih =>
    rw [List.mapM_cons] at took ⊢
    obtain ⟨a, one, took⟩ := bind_eq_ok_iff.mp took
    obtain ⟨as', others, same⟩ := bind_eq_ok_iff.mp took
    exact bind_eq_ok_iff.mpr
      ⟨a, blind first one, bind_eq_ok_iff.mpr ⟨as', ih others, same⟩⟩

end OrderBlind

theorem orderBlind_readInteger (wanted : String) (low high : Int) :
    OrderBlind (readInteger wanted low high) :=
  OrderBlind.of_refuses nofun nofun nofun

theorem orderBlind_readDouble : OrderBlind readDouble :=
  OrderBlind.of_refuses nofun nofun nofun

theorem orderBlind_readSingle : OrderBlind readSingle :=
  OrderBlind.of_refuses nofun nofun nofun

theorem orderBlind_readText : OrderBlind readText :=
  OrderBlind.of_refuses nofun nofun nofun

theorem orderBlind_readDoubles : OrderBlind readDoubles := by
  intro v v' samples same took
  cases same with
  | refl => exact took
  | table => cases took
  | array length each =>
    exact orderBlind_readDouble.mapM (List.forall₂_iff_zip.mpr ⟨length, each _⟩) took
  | tables length each =>
    refine orderBlind_readDouble.mapM ?_ took
    rw [List.forall₂_map_left_iff, List.forall₂_map_right_iff]
    exact List.forall₂_iff_zip.mpr ⟨length, each _⟩

theorem isEmpty_of_length {α : Type} {as bs : List α} (length : as.length = bs.length) :
    bs.isEmpty = as.isEmpty := by
  rw [Bool.eq_iff_iff, List.isEmpty_iff_length_eq_zero, List.isEmpty_iff_length_eq_zero, length]

theorem orderBlind_expectEmpty : OrderBlind expectEmpty := by
  intro v v' _ same took
  cases same with
  | refl => exact took
  | array length each =>
    rw [expectEmpty, isEmpty_of_length length]
    exact took
  | table perm names each =>
    have names := congrArg List.length names
    rw [List.length_map, List.length_map] at names
    rw [expectEmpty, isEmpty_of_length (perm.length_eq.trans names)]
    exact took
  | tables length each =>
    rw [expectEmpty, isEmpty_of_length length]
    exact took

theorem orderBlind_readFormat : OrderBlind readFormat := by
  intro v v' format same took
  cases same with
  | refl => exact took
  | array => cases took
  | tables => cases took
  | @table _ _ entries middle entries' perm names each =>
    -- a table is taken only when it has one key, and one key has one order
    match entries with
    | [] | _ :: _ :: _ => cases took
    | [(name, value)] =>
      obtain rfl := List.perm_singleton.mp perm.symm
      obtain ⟨⟨name', value'⟩, rfl, same⟩ := List.map_eq_singleton_iff.mp names.symm
      obtain rfl : name' = name := same
      obtain ⟨chosen, named, took⟩ := bind_eq_ok_iff.mp took
      obtain ⟨_, empty, took⟩ := bind_eq_ok_iff.mp took
      have inner : Reordered value value' := each _ List.mem_cons_self
      exact bind_eq_ok_iff.mpr
        ⟨chosen, named, bind_eq_ok_iff.mpr ⟨(), orderBlind_expectEmpty inner empty, took⟩⟩

end Toml.Value
end CallStudy
