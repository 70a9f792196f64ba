import CallStudy.Proofs.Config.Reordered
import CallStudy.Proofs.Config.Slots

/-!
How a configuration changes with its document. What a document says under one key counts for one
slot and for no other, so a key that is taken out gives way to a default, and keys that no slot has
and the order of keys count for nothing.
-/

set_option autoImplicit false

namespace CallStudy

open Toml (Entries Value Origin)
open Toml.Value

namespace Part

variable (p : Part)

/-- The configuration with the default in one slot of a section. -/
def resetSlot (x : Slot p.content) (c : Config) : Config :=
  p.set (x.set (x.get (p.get {})) (p.get c)) c

/-- The configuration with the defaults in a section. -/
def reset (c : Config) : Config := p.set (p.get {}) c

variable {p q : Part}

theorem eq_of_name (mem : p ∈ Config.parts) (mem' : q ∈ Config.parts) (same : p.name = q.name) :
    p = q :=
  have names : (Config.parts.map name).Nodup := by decide
  List.inj_on_of_nodup_map names mem mem' same

theorem get_set (mem : p ∈ Config.parts) (a : p.content) (c : Config) : p.get (p.set a c) = a :=
  Config.parts_apart.get_set p.slot (List.mem_map_of_mem mem) a c

theorem get_set_of_ne (mem : p ∈ Config.parts) (mem' : q ∈ Config.parts) (other : q.name ≠ p.name)
    (a : p.content) (c : Config) : q.get (p.set a c) = q.get c :=
  Config.parts_apart.get_set_of_ne p.slot (List.mem_map_of_mem mem) q.slot
    (List.mem_map_of_mem mem') (Ne.symm other) a c

end Part

namespace Config

/-- A change of a document, with what becomes of the configuration. -/
inductive Edit : Entries → Entries → (Config → Config) → Prop
  | removeKey {p : Part} {x : Slot p.content} (part : p ∈ parts) (slot : x ∈ p.slots)
      {before after front back : Entries} {origin origin' : Origin} {v : Value} :
      Edit (before ++ (p.name, .table origin (front ++ (x.key, v) :: back)) :: after)
        (before ++ (p.name, .table origin' (front ++ back)) :: after) (p.resetSlot x)
  /-- A key that is all of its section is taken out with it. -/
  | removeOnlyKey {p : Part} {x : Slot p.content} (part : p ∈ parts) (slot : x ∈ p.slots)
      {before after : Entries} {origin : Origin} {v : Value} :
      Edit (before ++ (p.name, .table origin [(x.key, v)]) :: after) (before ++ after)
        (p.resetSlot x)
  | removeSection {p : Part} (part : p ∈ parts) {before after : Entries} {v : Value} :
      Edit (before ++ (p.name, v) :: after) (before ++ after) p.reset
  | addKey {key : String} (unknown : ∀ p ∈ parts, p.name ≠ key) {before after : Entries}
      {v : Value} :
      Edit (before ++ after) (before ++ (key, v) :: after) id
  | addKeyInside {p : Part} (part : p ∈ parts) {key : String}
      (unknown : ∀ x ∈ p.slots, x.key ≠ key) {before after front back : Entries}
      {origin origin' : Origin} {v : Value} :
      Edit (before ++ (p.name, .table origin (front ++ back)) :: after)
        (before ++ (p.name, .table origin' (front ++ (key, v) :: back)) :: after) id
  /-- A section comes that was not there, with nothing in it that counts. -/
  | addSection {p : Part} (part : p ∈ parts) {inner : Entries}
      (unknown : ∀ e ∈ inner, ∀ x ∈ p.slots, x.key ≠ e.1) {before after : Entries}
      {origin : Origin} :
      Edit (before ++ after) (before ++ (p.name, .table origin inner) :: after) id
  | reorder {entries entries' : Entries} {origin origin' : Origin}
      (same : Reordered (.table origin entries) (.table origin' entries')) :
      Edit entries entries' id

/-- Changes of a text one after the other, with what becomes of the configuration in it. -/
inductive Edited : String → String → (Config → Config) → Prop
  | none (text : String) : Edited text text id
  | step {text middle text' : String} {entries entries' : Entries}
      {effect effects : Config → Config} (before : Toml.parse? text.toList = some entries)
      (after : Toml.parse? middle.toList = some entries') (edit : Edit entries entries' effect)
      (rest : Edited middle text' effects) : Edited text text' (effects ∘ effect)

section Values

variable {name key : String} {v : Value} {before after : Entries}
  (distinct : (before ++ (name, v) :: after).Distinct)
include distinct

theorem valueAt_around : valueAt (before ++ after) name key = none := by
  rw [valueAt, Named.lookup_around distinct.keys, Option.bind_none]

theorem valueAt_middle (other : String) :
    valueAt (before ++ (name, v) :: after) other key =
      if other = name then inside key v else valueAt (before ++ after) other key := by
  rw [valueAt, Named.lookup_middle distinct.keys]
  split <;> rfl

end Values

theorem fills_of_same {entries entries' : Entries} {c : Config} (fills : Fills entries c)
    (same : ∀ p ∈ parts, ∀ x ∈ p.slots,
      valueAt entries' p.name x.key = valueAt entries p.name x.key) : Fills entries' c := by
  intro p part x slot
  rw [same p part x slot]
  exact fills p part x slot

/-- Where a document no longer says anything of a slot, the slot falls back to its default. -/
theorem fills_resetSlot {entries entries' : Entries} {c : Config} (fills : Fills entries c)
    {p : Part} {x : Slot p.content} (part : p ∈ parts) (slot : x ∈ p.slots)
    (gone : valueAt entries' p.name x.key = none)
    (same : ∀ name key, (name = p.name → key ≠ x.key) →
      valueAt entries' name key = valueAt entries name key) :
    Fills entries' (p.resetSlot x c) := by
  have apart := slots_apart p part
  intro q part' y slot'
  by_cases here : q.name = p.name
  · obtain rfl := Part.eq_of_name part' part here
    rw [Part.resetSlot, Part.get_set part]
    by_cases this : y.key = x.key
    · obtain rfl := apart.eq_of_key slot' slot this
      rw [gone, Slot.Holds, apart.get_set y slot]
    · rw [same _ _ fun _ => this]
      have kept := apart.get_set_of_ne x slot y slot' (Ne.symm this) (x.get (q.get {})) (q.get c)
      exact (Slot.holds_congr rfl kept).mpr (fills q part y slot')
  · rw [same _ _ fun there => absurd there here, Part.resetSlot, Part.get_set_of_ne part part' here]
    exact fills q part' y slot'

theorem fills_reset {entries entries' : Entries} {c : Config} (fills : Fills entries c)
    {p : Part} (part : p ∈ parts) (gone : ∀ key, valueAt entries' p.name key = none)
    (same : ∀ name key, name ≠ p.name → valueAt entries' name key = valueAt entries name key) :
    Fills entries' (p.reset c) := by
  intro q part' y slot'
  by_cases here : q.name = p.name
  · obtain rfl := Part.eq_of_name part' part here
    rw [Part.reset, Part.get_set part, gone]
    rfl
  · rw [same _ _ here, Part.reset, Part.get_set_of_ne part part' here]
    exact fills q part' y slot'

theorem tabled_middle {e : String × Value} {before after : Entries} :
    Tabled (before ++ e :: after) ↔
      (∀ p ∈ parts, e.1 = p.name → ∃ origin inner, e.2 = .table origin inner) ∧
        Tabled (before ++ after) :=
  (forall_congr' fun _ => imp_congr_left List.perm_middle.mem_iff).trans List.forall_mem_cons

/-- Every slot takes a value for the same in any order. -/
theorem orderBlind_of_slot : ∀ p ∈ parts, ∀ x ∈ p.slots, OrderBlind x.read := by
  have wide {α : Type} (wanted : String) (low high : Int) (f : Int → α) :=
    OrderBlind.map (orderBlind_readInteger wanted low high) f
  simp only [parts, GridConfig.slots, MomentsConfig.slots, ScalerConfig.slots, BranchConfig.slots,
    FeaturesConfig.slots, List.forall_mem_cons]
  have nothing {α : Type 1} {P : α → Prop} : ∀ x ∈ [], P x := List.forall_mem_nil P
  exact ⟨⟨wide _ _ _ _, wide _ _ _ _, nothing⟩, ⟨orderBlind_readDoubles, nothing⟩,
    ⟨wide _ _ _ _, orderBlind_readDouble, orderBlind_readSingle, wide _ _ _ _, nothing⟩,
    ⟨wide _ _ _ _, wide _ _ _ _, nothing⟩,
    ⟨orderBlind_readFormat, OrderBlind.map orderBlind_readText some, nothing⟩, nothing⟩

theorem inside_reordered {v v' : Value} (same : Reordered v v') (distinct : v.Distinct)
    (key : String) : Option.Rel Reordered (inside key v) (inside key v') := by
  cases same with
  | refl => exact Reordered.rel_refl _
  | array | tables => exact .none
  | @table _ _ entries middle entries' perm names each =>
    cases distinct with
    | table keys =>
      have whole : Reordered (.table .heading entries) (.table .heading entries') :=
        .table perm names each
      exact whole.lookup keys key

theorem valueAt_reordered {entries entries' : Entries} {origin origin' : Origin}
    (distinct : entries.Distinct)
    (same : Reordered (.table origin entries) (.table origin' entries')) (name key : String) :
    Option.Rel Reordered (valueAt entries name key) (valueAt entries' name key) := by
  have outer := same.lookup distinct.keys name
  rw [valueAt, valueAt]
  generalize found : entries.lookup name = before at outer ⊢
  generalize entries'.lookup name = after at outer ⊢
  cases outer with
  | none => exact .none
  | some same => exact inside_reordered same (distinct.lookup found) key

theorem fills_reordered {entries entries' : Entries} {c : Config} (fills : Fills entries c)
    (same : ∀ name key, Option.Rel Reordered (valueAt entries name key)
      (valueAt entries' name key)) : Fills entries' c := by
  intro p part x slot
  have old := fills p part x slot
  have same := same p.name x.key
  generalize valueAt entries p.name x.key = found at old same
  generalize valueAt entries' p.name x.key = found' at same ⊢
  cases same with
  | none => exact old
  | some same => exact orderBlind_of_slot p part x slot same old

theorem tabled_reordered {entries entries' : Entries} {origin origin' : Origin}
    (distinct : entries.Distinct) (distinct' : entries'.Distinct) (tabled : Tabled entries)
    (same : Reordered (.table origin entries) (.table origin' entries')) : Tabled entries' := by
  rintro ⟨name, v'⟩ mem p part rfl
  have outer := same.lookup distinct.keys p.name
  rw [(Named.mem_iff_lookup distinct'.keys).mp mem] at outer
  generalize found : entries.lookup p.name = before at outer
  cases outer with
  | some inner =>
    obtain ⟨_, _, table⟩ :=
      tabled _ ((Named.mem_iff_lookup distinct.keys).mpr found) p part rfl
    cases table
    cases inner <;> exact ⟨_, _, rfl⟩

theorem keys_inside {name : String} {origin : Origin} {before after inner : Entries}
    (distinct : (before ++ (name, .table origin inner) :: after).Distinct) :
    (inner.map (·.1)).Nodup := by
  cases distinct.each (name, .table origin inner) List.mem_append_cons_self with
  | table keys each => exact keys

theorem Edit.tabled {entries entries' : Entries} {effect : Config → Config}
    (edit : Edit entries entries' effect) (distinct : entries.Distinct)
    (distinct' : entries'.Distinct) (tabled : Tabled entries) : Tabled entries' := by
  cases edit with
  | removeKey part slot | addKeyInside part unknown =>
    exact tabled_middle.mpr ⟨fun _ _ _ => ⟨_, _, rfl⟩, (tabled_middle.mp tabled).2⟩
  | removeOnlyKey part slot | removeSection part => exact (tabled_middle.mp tabled).2
  | addKey unknown =>
    exact tabled_middle.mpr ⟨fun p part same => absurd same.symm (unknown p part), tabled⟩
  | addSection part unknown =>
    exact tabled_middle.mpr ⟨fun _ _ _ => ⟨_, _, rfl⟩, tabled⟩
  | reorder same => exact tabled_reordered distinct distinct' tabled same

/-- A change of a document changes what it fills as it is said to. -/
theorem Edit.fills {entries entries' : Entries} {effect : Config → Config}
    (edit : Edit entries entries' effect) (distinct : entries.Distinct)
    (distinct' : entries'.Distinct) {c : Config} (fills : Fills entries c) :
    Fills entries' (effect c) := by
  cases edit with
  | removeKey part slot =>
    have keys := keys_inside distinct
    refine fills_resetSlot fills part slot ?_ fun name key other => ?_
    · rw [valueAt_middle distinct', if_pos rfl]
      exact Named.lookup_around keys
    · rw [valueAt_middle distinct', valueAt_middle distinct]
      split
      · next here => rw [inside, inside, Named.lookup_middle keys, if_neg (other here)]
      · rfl
  | removeOnlyKey part slot =>
    refine fills_resetSlot fills part slot (valueAt_around distinct) fun name key other => ?_
    rw [valueAt_middle distinct]
    split
    · next here =>
      subst here
      rw [valueAt_around distinct, inside, List.lookup_cons, beq_false_of_ne (other rfl)]
      rfl
    · rfl
  | removeSection part =>
    refine fills_reset fills part (fun key => valueAt_around distinct) fun name key other => ?_
    rw [valueAt_middle distinct, if_neg other]
  | addKey unknown =>
    refine fills_of_same fills fun q part' y slot' => ?_
    rw [valueAt_middle distinct', if_neg (unknown q part')]
  | @addKeyInside p part key unknown =>
    have keys := keys_inside distinct'
    refine fills_of_same fills fun q part' y slot' => ?_
    rw [valueAt_middle distinct', valueAt_middle distinct]
    split
    · next here =>
      obtain rfl := Part.eq_of_name part' part here
      rw [inside, inside, Named.lookup_middle keys, if_neg (unknown y slot')]
    · rfl
  | @addSection p part inner unknown =>
    refine fills_of_same fills fun q part' y slot' => ?_
    rw [valueAt_middle distinct']
    split
    · next here =>
      obtain rfl := Part.eq_of_name part' part here
      rw [valueAt_around distinct', inside, Named.lookup_eq_none_iff, List.mem_map]
      rintro ⟨e, mem, same⟩
      exact unknown e mem y slot' same.symm
    · rfl
  | reorder same => exact fills_reordered fills (valueAt_reordered distinct same)

theorem Edited.fills {text text' : String} {effect : Config → Config}
    (edited : Edited text text' effect) {entries : Entries}
    (parsed : Toml.parse? text.toList = some entries) (tabled : Tabled entries) {c : Config}
    (fills : Fills entries c) :
    ∃ entries', Toml.parse? text'.toList = some entries' ∧ Tabled entries' ∧
      Fills entries' (effect c) := by
  -- each text on the way is a document of its own, so no key comes twice in any of them
  induction edited generalizing entries c with
  | none => exact ⟨entries, parsed, tabled, fills⟩
  | step before after edit _ ih =>
    obtain rfl := Option.some.inj (parsed.symm.trans before)
    have distinct := Toml.distinct_of_parse? before
    have distinct' := Toml.distinct_of_parse? after
    exact ih after (edit.tabled distinct distinct' tabled) (edit.fills distinct distinct' fills)

theorem ofText_eq_ok_iff {text : String} {entries : Entries}
    (parsed : Toml.parse? text.toList = some entries) (tabled : Tabled entries) {c : Config} :
    ofText text = .ok c ↔ Fills entries c := by
  rw [ofText, parsed, ← ofEntries_eq_ok_iff (Toml.distinct_of_parse? parsed) tabled]
  exact mapError_eq_ok_iff

/-- The configuration in a text is the default one, but for the slots that the text fills, each of
which holds what is written there. So a key or a section that is taken out gives way to defaults,
and neither keys that no slot has nor the order of keys count. -/
theorem ofText_fieldwise {text : String} {entries : Entries}
    (parsed : Toml.parse? text.toList = some entries) (tabled : Tabled entries) :
    (∀ c, ofText text = .ok c ↔ Fills entries c) ∧
      (∀ c text' effect, ofText text = .ok c → Edited text text' effect →
        ofText text' = .ok (effect c)) ∧
      ofText "" = .ok {} := by
  refine ⟨fun c => ofText_eq_ok_iff parsed tabled, fun c text' effect read edited => ?_, rfl⟩
  have fills := (ofText_eq_ok_iff parsed tabled).mp read
  obtain ⟨entries', parsed', tabled', fills'⟩ := edited.fills parsed tabled fills
  exact (ofText_eq_ok_iff parsed' tabled').mpr fills'

theorem ofText_fieldwise_of_section_removed :
    ofText "[grid]\nrows = 3\n\n[branch]\ny = 2\n" =
        .ok { grid := { rows := 3 }, branch := { y := 2 } } ∧
      ofText "[branch]\nwhy = true\ny = 2\n" = .ok { branch := { y := 2 } } := by
  have grid : parts[0] ∈ parts := List.getElem_mem _
  have branch : parts[3] ∈ parts := List.getElem_mem _
  have parsed : Toml.parse? "[grid]\nrows = 3\n\n[branch]\ny = 2\n".toList =
      some [("grid", .table .heading [("rows", .integer 3)]),
        ("branch", .table .heading [("y", .integer 2)])] := rfl
  have shorter : Toml.parse? "[branch]\ny = 2\n".toList =
      some [("branch", .table .heading [("y", .integer 2)])] := rfl
  have longer : Toml.parse? "[branch]\nwhy = true\ny = 2\n".toList =
      some [("branch", .table .heading [("why", .boolean true), ("y", .integer 2)])] := rfl
  have tabled : Tabled [("grid", .table .heading [("rows", .integer 3)]),
      ("branch", .table .heading [("y", .integer 2)])] := by
    simp [Tabled]
  have read : ofText "[grid]\nrows = 3\n\n[branch]\ny = 2\n" =
      .ok { grid := { rows := 3 }, branch := { y := 2 } } := rfl
  have removed : Edit [("grid", .table .heading [("rows", .integer 3)]),
      ("branch", .table .heading [("y", .integer 2)])]
      [("branch", .table .heading [("y", .integer 2)])] (parts[0]).reset :=
    @Edit.removeSection _ grid [] _ _
  have added : Edit [("branch", .table .heading [("y", .integer 2)])]
      [("branch", .table .heading [("why", .boolean true), ("y", .integer 2)])] id :=
    @Edit.addKeyInside _ branch "why" (by decide) [] [] [] _ .heading .heading _
  have edited := Edited.step parsed shorter removed (.step shorter longer added (.none _))
  exact ⟨read, (ofText_fieldwise parsed tabled).2.1 _ _ _ read edited⟩

end Config
end CallStudy
