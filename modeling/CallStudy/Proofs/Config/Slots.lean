import CallStudy.Config.Read
import CallStudy.Proofs.Toml.Keys
import CallStudy.Proofs.Workload.Sums

/-!
What a configuration is made of: slots that a document may fill. A slot that is filled holds what is
read there, and any other keeps what it held, whatever the order in which slots are filled.
-/

set_option autoImplicit false

namespace CallStudy

/-- A part of `σ` that a key fills. -/
structure Slot (σ : Type) where
  key : String
  content : Type
  read : Toml.Value → Except Misfit content
  get : σ → content
  set : content → σ → σ

namespace Slot

variable {σ : Type}

/-- The field that fills a slot. -/
def field (x : Slot σ) : Field σ := ⟨x.key, fun v s => return x.set (← x.read v) s⟩

/-- What a slot holds in `after`, when `found` is what the document says of it, and `start` holds
what was there before. -/
def Holds (x : Slot σ) (found : Option Toml.Value) (start after : σ) : Prop :=
  match found with
  | some v => x.read v = .ok (x.get after)
  | none => x.get after = x.get start

/-- Slots that are apart from one another and leave nothing else. -/
structure Apart (slots : List (Slot σ)) : Prop where
  distinct : (slots.map key).Nodup
  get_set : ∀ x ∈ slots, ∀ a s, x.get (x.set a s) = a
  get_set_of_ne : ∀ x ∈ slots, ∀ y ∈ slots, x.key ≠ y.key → ∀ a s, y.get (x.set a s) = y.get s
  ext : ∀ s s', (∀ x ∈ slots, x.get s = x.get s') → s = s'

variable {slots : List (Slot σ)}

theorem Apart.eq_of_key (apart : Apart slots) {x y : Slot σ} (mem : x ∈ slots) (mem' : y ∈ slots)
    (same : x.key = y.key) : x = y :=
  List.inj_on_of_nodup_map apart.distinct mem mem' same

theorem holds_congr {x : Slot σ} {found : Option Toml.Value} {start start' after after' : σ}
    (same : x.get start' = x.get start) (same' : x.get after' = x.get after) :
    x.Holds found start' after' ↔ x.Holds found start after := by
  unfold Holds
  rw [same, same']

theorem find?_field_of_mem (apart : Apart slots) {x : Slot σ} (mem : x ∈ slots) :
    (slots.map field).find? (·.key = x.key) = some x.field := by
  rw [List.find?_map]
  cases found : slots.find? ((fun f : Field σ => decide (f.key = x.key)) ∘ field) with
  | none => exact absurd (decide_eq_true rfl) (List.find?_eq_none.mp found x mem)
  | some y =>
    have named := List.find?_some found
    have same : y.key = x.key := of_decide_eq_true named
    rw [apart.eq_of_key (List.mem_of_find?_eq_some found) mem same]
    rfl

theorem find?_field_of_unknown {key : String} (unknown : key ∉ slots.map Slot.key) :
    (slots.map field).find? (·.key = key) = none := by
  rw [List.find?_map, Option.map_eq_none_iff, List.find?_eq_none]
  intro x mem named
  have same : x.key = key := of_decide_eq_true named
  exact unknown (same ▸ List.mem_map_of_mem mem)

theorem forall_iff (apart : Apart slots) {x : Slot σ} (mem : x ∈ slots) {P : Slot σ → Prop} :
    (∀ y ∈ slots, P y) ↔ P x ∧ ∀ y ∈ slots, y.key ≠ x.key → P y := by
  constructor
  · exact fun all => ⟨all x mem, fun y mem' _ => all y mem'⟩
  · rintro ⟨here, others⟩ y mem'
    by_cases same : y.key = x.key
    · rwa [apart.eq_of_key mem' mem same]
    · exact others y mem' same

section Fill

variable {rest : Toml.Entries} {start after : σ}

/-- What the slots hold when one of them, of which the document says no more, was just filled. -/
theorem forall_holds_set_iff (apart : Apart slots) {x : Slot σ} (mem : x ∈ slots)
    (gone : rest.lookup x.key = none) {a : x.content} :
    (∀ y ∈ slots, y.Holds (rest.lookup y.key) (x.set a start) after) ↔
      x.get after = a ∧ ∀ y ∈ slots, y.key ≠ x.key → y.Holds (rest.lookup y.key) start after := by
  rw [forall_iff apart mem, gone, Holds, apart.get_set x mem]
  refine and_congr_right fun _ => forall₃_congr fun y mem' other => ?_
  exact holds_congr (apart.get_set_of_ne x mem y mem' (Ne.symm other) a start) rfl

theorem forall_holds_cons_iff (apart : Apart slots) {x : Slot σ} (mem : x ∈ slots)
    {v : Toml.Value} :
    (∀ y ∈ slots, y.Holds (((x.key, v) :: rest).lookup y.key) start after) ↔
      x.read v = .ok (x.get after) ∧
        ∀ y ∈ slots, y.key ≠ x.key → y.Holds (rest.lookup y.key) start after := by
  rw [forall_iff apart mem, List.lookup_cons_self]
  refine and_congr_right fun _ => forall₃_congr fun y _ other => ?_
  rw [List.lookup_cons, beq_false_of_ne other]

end Fill

/-- Filling slots from a table leaves in each what the table says of it. -/
theorem readTable_eq_ok_iff (apart : Apart slots) {entries : Toml.Entries}
    (distinct : (entries.map (·.1)).Nodup) {start after : σ} :
    Field.readTable (slots.map field) entries start = .ok after ↔
      ∀ x ∈ slots, x.Holds (entries.lookup x.key) start after := by
  induction entries generalizing start with
  | nil =>
    constructor
    · intro same
      cases same
      exact fun _ _ => rfl
    · intro all
      exact congrArg Except.ok (apart.ext start after fun x mem => (all x mem).symm)
  | cons entry rest ih =>
    obtain ⟨key, v⟩ := entry
    obtain ⟨fresh, distinct'⟩ := List.nodup_cons.mp distinct
    rw [Field.readTable, List.foldlM_cons, bind_eq_ok_iff]
    by_cases known : key ∈ slots.map Slot.key
    · obtain ⟨x, mem, rfl⟩ := List.mem_map.mp known
      -- the key comes once, so nothing later fills this slot again
      have gone : rest.lookup x.key = none := Named.lookup_eq_none_iff.mpr fresh
      dsimp only
      rw [find?_field_of_mem apart mem, forall_holds_cons_iff apart mem]
      constructor
      · rintro ⟨middle, first, others⟩
        obtain ⟨a, read, set⟩ := bind_eq_ok_iff.mp first
        cases set
        obtain ⟨rfl, kept⟩ :=
          (forall_holds_set_iff apart mem gone).mp ((ih distinct').mp others)
        exact ⟨read, kept⟩
      · rintro ⟨read, others⟩
        have later := (forall_holds_set_iff apart mem gone).mpr ⟨rfl, others⟩
        exact ⟨_, bind_eq_ok_iff.mpr ⟨_, read, rfl⟩, (ih distinct').mpr later⟩
    · dsimp only
      rw [find?_field_of_unknown known]
      have others : ∀ x ∈ slots, ((key, v) :: rest).lookup x.key = rest.lookup x.key := by
        intro x mem
        have other : x.key ≠ key := fun same => known (same ▸ List.mem_map_of_mem mem)
        rw [List.lookup_cons, beq_false_of_ne other]
      constructor
      · rintro ⟨_, same, read⟩ x mem
        cases same
        rw [others x mem]
        exact (ih distinct').mp read x mem
      · intro all
        exact ⟨start, rfl, (ih distinct').mpr fun x mem => others x mem ▸ all x mem⟩

end Slot

/-! The slots of each section. -/

open Toml.Value

def GridConfig.slots : List (Slot GridConfig) :=
  [⟨"rows", UInt64, readSide, rows, fun a s => { s with rows := a }⟩,
    ⟨"cols", UInt64, readSide, cols, fun a s => { s with cols := a }⟩]

def MomentsConfig.slots : List (Slot MomentsConfig) :=
  [⟨"samples", List Float, readDoubles, samples, fun a s => { s with samples := a }⟩]

def ScalerConfig.slots : List (Slot ScalerConfig) :=
  [⟨"int_value", Int32, readInt32, intValue, fun a s => { s with intValue := a }⟩,
    ⟨"double_value", Float, readDouble, doubleValue, fun a s => { s with doubleValue := a }⟩,
    ⟨"float_value", Float32, readSingle, floatValue, fun a s => { s with floatValue := a }⟩,
    ⟨"short_value", Int16, readInt16, shortValue, fun a s => { s with shortValue := a }⟩]

def BranchConfig.slots : List (Slot BranchConfig) :=
  [⟨"x", Int64, readInt64, x, fun a s => { s with x := a }⟩,
    ⟨"y", Int64, readInt64, y, fun a s => { s with y := a }⟩]

def FeaturesConfig.slots : List (Slot FeaturesConfig) :=
  [⟨"format", TableFormat, readFormat, format, fun a s => { s with format := a }⟩,
    ⟨"output", Option String, fun v => return some (← v.readText), output,
      fun a s => { s with output := a }⟩]

theorem FeaturesConfig.fields_eq : fields = slots.map Slot.field := by
  have text (v : Toml.Value) (s : FeaturesConfig) :
      (do return { s with output := some (← v.readText) } : Except Misfit FeaturesConfig) =
        (do
          let output ← (do return some (← v.readText) : Except Misfit (Option String))
          return { s with output }) := by
    cases v.readText <;> rfl
  simp only [fields, slots, List.map_cons, List.map_nil, Slot.field, text]

/-- A section of a configuration: its name, what it is called in messages, and its slots. -/
structure Part where
  name : String
  title : String
  content : Type
  slots : List (Slot content)
  get : Config → content
  set : content → Config → Config

namespace Part

/-- The slot of a configuration that a section fills. It starts from its defaults. -/
def slot (p : Part) : Slot Config :=
  ⟨p.name, p.content, Field.readSection p.title (p.slots.map Slot.field) (p.get {}), p.get, p.set⟩

end Part

namespace Config

def parts : List Part :=
  [⟨"grid", "GridConfig", GridConfig, GridConfig.slots, grid, fun a c => { c with grid := a }⟩,
    ⟨"moments", "MomentsConfig", MomentsConfig, MomentsConfig.slots, moments,
      fun a c => { c with moments := a }⟩,
    ⟨"scaler", "ScalerConfig", ScalerConfig, ScalerConfig.slots, scaler,
      fun a c => { c with scaler := a }⟩,
    ⟨"branch", "BranchConfig", BranchConfig, BranchConfig.slots, branch,
      fun a c => { c with branch := a }⟩,
    ⟨"features", "FeaturesConfig", FeaturesConfig, FeaturesConfig.slots, features,
      fun a c => { c with features := a }⟩]

theorem fields_eq : fields = (parts.map Part.slot).map Slot.field := by
  simp only [parts, List.map_cons, List.map_nil, Part.slot, Slot.field, ← FeaturesConfig.fields_eq]
  rfl

theorem slots_apart : ∀ p ∈ parts, Slot.Apart p.slots := by
  simp only [parts, List.forall_mem_cons]
  refine ⟨?_, ?_, ?_, ?_, ?_, nofun⟩
  all_goals
    refine ⟨by decide, ?_, ?_, ?_⟩
    · simp [GridConfig.slots, MomentsConfig.slots, ScalerConfig.slots, BranchConfig.slots,
        FeaturesConfig.slots]
    · simp [GridConfig.slots, MomentsConfig.slots, ScalerConfig.slots, BranchConfig.slots,
        FeaturesConfig.slots]
    · rintro ⟨⟩ ⟨⟩
      simp [GridConfig.slots, MomentsConfig.slots, ScalerConfig.slots, BranchConfig.slots,
        FeaturesConfig.slots]

theorem parts_apart : Slot.Apart (parts.map Part.slot) where
  distinct := by decide
  get_set := by simp [parts, Part.slot]
  get_set_of_ne := by simp [parts, Part.slot]
  ext := by
    rintro ⟨⟩ ⟨⟩
    simp [parts, Part.slot]

/-! What a document says of each slot. -/

/-- What a section says under a key. -/
def inside (key : String) : Toml.Value → Option Toml.Value
  | .table _ entries => entries.lookup key
  | _ => none

/-- What a document says under a key of a section. -/
def valueAt (entries : Toml.Entries) (name key : String) : Option Toml.Value :=
  (entries.lookup name).bind (inside key)

/-- A document that writes its sections as tables. -/
def Tabled (entries : Toml.Entries) : Prop :=
  ∀ e ∈ entries, ∀ p ∈ parts, e.1 = p.name → ∃ origin inner, e.2 = .table origin inner

/-- A configuration of which every slot holds what a document says of it, or else its default. -/
def Fills (entries : Toml.Entries) (c : Config) : Prop :=
  ∀ p ∈ parts, ∀ x ∈ p.slots, x.Holds (valueAt entries p.name x.key) (p.get {}) (p.get c)

theorem holds_iff {p : Part} (mem : p ∈ parts) {entries : Toml.Entries}
    (distinct : entries.Distinct) (tabled : Tabled entries) {c : Config} :
    p.slot.Holds (entries.lookup p.name) {} c ↔
      ∀ x ∈ p.slots, x.Holds (valueAt entries p.name x.key) (p.get {}) (p.get c) := by
  have apart := slots_apart p mem
  cases found : entries.lookup p.name with
  | none =>
    have absent (x : Slot p.content) : valueAt entries p.name x.key = none := by
      rw [valueAt, found, Option.bind_none]
    simp only [absent]
    constructor
    · intro same x _
      exact congrArg x.get same
    · exact apart.ext _ _
  | some v =>
    have mem' : (p.name, v) ∈ entries := (Named.mem_iff_lookup distinct.keys).mpr found
    obtain ⟨origin, inner, rfl⟩ : ∃ origin inner, v = .table origin inner :=
      tabled _ mem' p mem rfl
    have here (x : Slot p.content) : valueAt entries p.name x.key = inner.lookup x.key := by
      rw [valueAt, found]
      rfl
    simp only [here]
    cases distinct.lookup found with
    | table keys each => exact Slot.readTable_eq_ok_iff apart keys

/-- Sections written as tables are read as one configuration at most: that whose slots hold what is
written, and defaults where nothing is. -/
theorem ofEntries_eq_ok_iff {entries : Toml.Entries} (distinct : entries.Distinct)
    (tabled : Tabled entries) {c : Config} : ofEntries entries = .ok c ↔ Fills entries c := by
  rw [ofEntries, fields_eq, Slot.readTable_eq_ok_iff parts_apart distinct.keys, List.forall_mem_map]
  exact forall₂_congr fun p mem => holds_iff mem distinct tabled

end Config
end CallStudy
