import CallStudy.Proofs.Command.Look
import CallStudy.Proofs.Files.Ancestors
import CallStudy.Proofs.Files.Rearranged
import CallStudy.Proofs.Text.Bytes

/-!
The rows of all sources that paths stand for. Paths are replaced by their sources and sources by
their rows, one after the other; the first that has none ends the work. Nothing that one source
holds has a part in the rows of another.
-/

set_option autoImplicit false

namespace CallStudy

theorem Path.namesSource_iff {name : String} :
    Path.namesSource name ↔ ∃ stem, stem ≠ "" ∧ name = stem ++ ".rs" := by
  rw [Path.namesSource]
  constructor
  · intro names
    split at names
    · next c rest same =>
      refine ⟨.ofList (c :: rest).reverse, ?_, ?_⟩
      · intro empty
        have none : (c :: rest).reverse = [] := by simpa using congrArg String.toList empty
        exact absurd none (by simp)
      · apply String.toList_inj.mp
        rw [← List.reverse_reverse name.toList, same]
        simp
    · cases names
  · rintro ⟨stem, filled, rfl⟩
    have some : stem.toList.reverse ≠ [] := by simpa using filled
    obtain ⟨c, rest, same⟩ := List.exists_cons_of_ne_nil some
    simp [same]

section OneByOne

variable {ι ε β : Type}

/-- The results of items one after the other, up to the first that fails. -/
inductive OneByOne (has : ι → Except ε (List β) → Prop) : List ι → Except ε (List β) → Prop
  | all {items : List ι} {parts : List (List β)}
      (each : List.Forall₂ (fun item part => has item (.ok part)) items parts) :
      OneByOne has items (.ok parts.flatten)
  | stops {before after : List ι} {item : ι} {parts : List (List β)} {e : ε}
      (each : List.Forall₂ (fun item part => has item (.ok part)) before parts)
      (fails : has item (.error e)) :
      OneByOne has (before ++ item :: after) (.error e)

namespace OneByOne

variable {has also : ι → Except ε (List β) → Prop} {items more : List ι}

theorem cons {item : ι} {part : List β} {result : Except ε (List β)} (first : has item (.ok part))
    (rest : OneByOne has items result) : OneByOne has (item :: items) (result.map (part ++ ·)) := by
  cases rest with
  | all each => exact .all (.cons first each)
  | stops each fails => exact .stops (.cons first each) fails

theorem exists_result (total : ∀ item, ∃ result, has item result) (items : List ι) :
    ∃ result, OneByOne has items result := by
  induction items with
  | nil => exact ⟨_, .all .nil⟩
  | cons item rest ih =>
    obtain ⟨first | first, here⟩ := total item
    · exact ⟨_, .stops .nil here⟩
    · obtain ⟨result, later⟩ := ih
      exact ⟨_, later.cons here⟩

theorem append {all rest : List β} (first : OneByOne has items (.ok all))
    (second : OneByOne has more (.ok rest)) : OneByOne has (items ++ more) (.ok (all ++ rest)) := by
  cases first with
  | all each =>
    cases second with
    | all each' =>
      rw [← List.flatten_append]
      exact .all (List.rel_append each each')

theorem mono {result : Except ε (List β)} (h : OneByOne has items result)
    (implies : ∀ item result, has item result → also item result) : OneByOne also items result := by
  cases h with
  | all each => exact .all (each.imp fun item part => implies item _)
  | stops each fails => exact .stops (each.imp fun item part => implies item _) (implies _ _ fails)

theorem parts_of_ok {all : List β} (h : OneByOne has items (.ok all)) :
    ∃ parts, List.Forall₂ (fun item part => has item (.ok part)) items parts ∧
      all = parts.flatten := by
  cases h with
  | all each => exact ⟨_, each, rfl⟩

theorem of_singleton {item : ι} {all : List β} (h : OneByOne has [item] (.ok all)) :
    has item (.ok all) := by
  obtain ⟨parts, each, rfl⟩ := h.parts_of_ok
  cases each with
  | cons first rest =>
    cases rest
    rwa [List.flatten_singleton]

theorem exists_ok_iff :
    (∃ all, OneByOne has items (.ok all)) ↔ ∀ item ∈ items, ∃ part, has item (.ok part) := by
  constructor
  · rintro ⟨_, ⟨each⟩⟩ item mem
    obtain ⟨i, inside, rfl⟩ := List.mem_iff_getElem.mp mem
    exact ⟨_, each.get inside (each.length_eq ▸ inside)⟩
  · intro each
    induction items with
    | nil => exact ⟨_, .all .nil⟩
    | cons item rest ih =>
      obtain ⟨⟨part, first⟩, later⟩ := List.forall_mem_cons.mp each
      obtain ⟨all, later⟩ := ih later
      exact ⟨_, later.cons first⟩

open Command in
/-- Work on items in turn comes to the results of the items one after the other. -/
theorem comesTo {t : FileTree} {result : Except ε (List β)} (h : OneByOne has items result)
    {work : List ι → ExceptT ε Telling (List β)} (nil : ComesTo t (work []) (.ok []))
    (goesOn : ∀ item part rest result, has item (.ok part) → ComesTo t (work rest) result →
      ComesTo t (work (item :: rest)) (result.map (part ++ ·)))
    (fails : ∀ item e rest, has item (.error e) → ComesTo t (work (item :: rest)) (.error e)) :
    ComesTo t (work items) result := by
  have behind {before rest : List ι} {parts : List (List β)} {result : Except ε (List β)}
      (each : List.Forall₂ (fun item part => has item (.ok part)) before parts)
      (later : ComesTo t (work rest) result) :
      ComesTo t (work (before ++ rest)) (result.map (parts.flatten ++ ·)) := by
    induction each with
    | nil => cases result <;> exact later
    | cons here _ ih =>
      have whole := goesOn _ _ _ _ here ih
      cases result with
      | error e => exact whole
      | ok all =>
        rw [List.flatten_cons, Except.map, List.append_assoc]
        exact whole
  cases h with
  | all each => simpa only [Except.map, List.append_nil] using behind each nil
  | stops each here => exact behind each (fails _ _ _ here)

end OneByOne
end OneByOne

namespace FeatureRow

open Command (Telling ComesTo)

/-- An entry of a directory that is a source: a file whose name ends in `.rs` behind something. -/
def IsSource (entry : String × Node) : Prop :=
  (∃ content, entry.2 = .file content) ∧ ∃ stem, stem ≠ "" ∧ entry.1 = stem ++ ".rs"

theorem isSource_iff {entry : String × Node} :
    IsSource entry ↔ entry.2.isFile ∧ Path.namesSource entry.1 := by
  rw [IsSource, Path.namesSource_iff]
  obtain ⟨name, node⟩ := entry
  cases node <;> simp [Node.isFile]

instance : DecidablePred IsSource := fun _ => decidable_of_iff _ isSource_iff.symm

/-- The names of the sources among the entries of a directory. -/
def sourcesAmong (entries : List (String × Node)) : List String :=
  (entries.filter fun entry => IsSource entry).map (·.1)

theorem sourcesAmong_eq (entries : List (String × Node)) :
    sourcesAmong entries =
      ((entries.filter (·.2.isFile)).map (·.1)).filter Path.namesSource := by
  rw [List.filter_map, List.filter_filter, sourcesAmong]
  congr 1
  apply List.filter_congr
  intro entry _
  rw [Bool.eq_iff_iff, decide_eq_true_iff, isSource_iff, Bool.and_eq_true, and_comm]
  rfl

theorem sourcesAmong_eq_nil_iff {entries : List (String × Node)} :
    sourcesAmong entries = [] ↔ ∀ entry ∈ entries, ¬ IsSource entry := by
  rw [sourcesAmong, List.map_eq_nil_iff, List.filter_eq_nil_iff]
  simp only [decide_eq_true_eq]

/-- The name of a source leads from its directory to another place. -/
theorem isName_of_mem_sourcesAmong {entries : List (String × Node)} {name : String}
    (mem : name ∈ sourcesAmong entries) :
    (∃ node, (name, node) ∈ entries) ∧ Path.IsName name ∧ name ≠ ".." := by
  obtain ⟨⟨_, node⟩, found, rfl⟩ := List.mem_map.mp mem
  obtain ⟨listed, source⟩ := List.mem_filter.mp found
  obtain ⟨-, stem, -, rfl⟩ := of_decide_eq_true source
  have long (short : String) (le : short.length < 3) : stem ++ ".rs" ≠ short := by
    rintro rfl
    rw [String.length_append] at le
    exact absurd le (Nat.not_lt.mpr (Nat.le_add_left 3 _))
  exact ⟨⟨node, listed⟩, ⟨long "" (by decide), long "." (by decide)⟩, long ".." (by decide)⟩

/-- The sources that a path stands for. A directory stands for the sources right in it, ordered by
the bytes of their names, and for nothing in other directories. -/
inductive StandsFor (t : FileTree) : String → Except ExtractionError (List String) → Prop
  | itself {path : String} (other : ∀ entries, t.find path ≠ some (.directory entries)) :
      StandsFor t path (.ok [path])
  | children {path : String} {entries : List (String × Node)} {names : List String}
      (found : t.find path = some (.directory entries)) (listed : names.Perm (sourcesAmong entries))
      (ordered : names.Pairwise fun a b => bytes a ≤ bytes b) (filled : names ≠ []) :
      StandsFor t path (.ok (names.map (Path.join path)))
  | noSources {path : String} {entries : List (String × Node)}
      (found : t.find path = some (.directory entries))
      (none : ∀ entry ∈ entries, ¬ IsSource entry) :
      StandsFor t path (.error (.noSources path))

/-- What a directory stands for leads to the sources in it, each by its name. -/
theorem StandsFor.leads {t : FileTree} {path : String} {files : List String}
    {entries : List (String × Node)} (stands : StandsFor t path (.ok files))
    (found : t.find path = some (.directory entries))
    (plain : ∀ entry ∈ entries, '/' ∉ entry.1.toList) :
    ∃ names, names.Perm (sourcesAmong entries) ∧
      (names.Pairwise fun a b => bytes a ≤ bytes b) ∧
      List.Forall₂ (fun name file => t.find file = entries.lookup name ∧
        Path.lastName? file = some name) names files := by
  cases stands with
  | itself other => exact absurd found (other entries)
  | @children _ names found' listed ordered filled =>
    rw [found', Option.some_inj, Node.directory.injEq] at found
    subst found
    refine ⟨names, listed, ordered, List.forall₂_map_right_iff.mpr (List.forall₂_same.mpr ?_)⟩
    intro name mem
    obtain ⟨⟨node, inside⟩, isName, noUp⟩ := isName_of_mem_sourcesAmong (listed.mem_iff.mp mem)
    have plain := plain _ inside
    exact ⟨FileTree.find_join_of_directory found' plain isName noUp,
      Path.lastName?_join (FileTree.not_isEmpty_of_find found') plain isName noUp⟩

/-- The rows of a file, which its text alone decides beside its name. -/
inductive HasRows (t : FileTree) (path : String) : Except ExtractionError (List FeatureRow) → Prop
  | rows {source : String} {found : List FeatureRow} (text : t.readText path = some source)
      (parsed : ofSource? ((Path.lastName? path).getD path) source = some found) :
      HasRows t path (.ok found)
  | malformed {source : String} (text : t.readText path = some source)
      (fails : ofSource? ((Path.lastName? path).getD path) source = none) :
      HasRows t path (.error (.malformed ((Path.lastName? path).getD path)))
  | unreadable (none : t.readText path = none) : HasRows t path (.error (.unreadable path))

/-- The rows of all sources that paths stand for. -/
inductive Extracts (t : FileTree) (paths : List String) :
    Except ExtractionError (List FeatureRow) → Prop
  | read {files : List String} {result : Except ExtractionError (List FeatureRow)}
      (collected : OneByOne (StandsFor t) paths (.ok files))
      (rows : OneByOne (HasRows t) files result) : Extracts t paths result
  | uncollected {e : ExtractionError} (fails : OneByOne (StandsFor t) paths (.error e)) :
      Extracts t paths (.error e)

theorem sourceNames_perm (entries : List (String × Node)) :
    (sourceNames ((entries.filter (·.2.isFile)).map (·.1))).Perm (sourcesAmong entries) := by
  rw [sourcesAmong_eq]
  exact List.mergeSort_perm _ _

theorem sourceNames_ordered (names : List String) :
    (sourceNames names).Pairwise fun a b => bytes a ≤ bytes b := by
  have trans (a b c : String) : decide (a ≤ b) → decide (b ≤ c) → decide (a ≤ c) := by
    simpa only [decide_eq_true_eq] using le_trans
  have total (a b : String) : (decide (a ≤ b) || decide (b ≤ a)) = true := by
    simpa only [Bool.or_eq_true, decide_eq_true_eq] using le_total a b
  have sorted := List.pairwise_mergeSort trans total (names.filter Path.namesSource)
  exact sorted.imp fun le => bytes_le_iff.mpr (of_decide_eq_true le)

theorem eq_of_ordered {names others : List String} (same : names.Perm others)
    (ordered : names.Pairwise fun a b => bytes a ≤ bytes b)
    (ordered' : others.Pairwise fun a b => bytes a ≤ bytes b) : names = others := by
  refine same.eq_of_pairwise (fun a b _ _ before after => ?_) ordered ordered'
  exact le_antisymm (bytes_le_iff.mp before) (bytes_le_iff.mp after)

section Run

variable {t : FileTree} {path : String}

theorem isDirectory_of_found {entries : List (String × Node)}
    (found : t.find path = some (.directory entries)) : (t.find path).any Node.isDirectory := by
  rw [found]
  rfl

theorem comesTo_children {entries : List (String × Node)}
    (found : t.find path = some (.directory entries))
    {names : List String} (same : sourceNames ((entries.filter (·.2.isFile)).map (·.1)) = names) :
    ComesTo t (sourcesOf path : ExceptT ExtractionError Telling (List String))
      (if names.isEmpty then .error (.noSources path) else .ok (names.map (Path.join path))) := by
  have listed : t.regularFiles path = some ((entries.filter (·.2.isFile)).map (·.1)) := by
    rw [FileTree.regularFiles, found]
  refine ComesTo.isDirectory.bind ?_
  rw [isDirectory_of_found found]
  refine ComesTo.regularFiles.bind ?_
  rw [listed]
  dsimp only
  rw [same]
  split
  · exact .of_throw _
  · exact .of_pure _

theorem comesTo_sourcesOf {found : Except ExtractionError (List String)}
    (h : StandsFor t path found) :
    ComesTo t (sourcesOf path : ExceptT ExtractionError Telling (List String)) found := by
  cases h with
  | itself other =>
    have plain : (t.find path).any Node.isDirectory = false := by
      cases node : t.find path with
      | none => rfl
      | some found =>
        cases found with
        | file content => rfl
        | directory entries => exact absurd node (other entries)
    refine ComesTo.isDirectory.bind ?_
    rw [plain]
    exact .of_pure _
  | @children entries names found listed ordered filled =>
    have same := eq_of_ordered ((sourceNames_perm entries).trans listed.symm)
      (sourceNames_ordered _) ordered
    have comes := comesTo_children found same
    rwa [if_neg (by simpa using filled)] at comes
  | @noSources entries found none =>
    have perm := sourceNames_perm entries
    rw [sourcesAmong_eq_nil_iff.mpr none, List.perm_nil] at perm
    exact comesTo_children found perm

theorem exists_standsFor (t : FileTree) (path : String) : ∃ found, StandsFor t path found := by
  by_cases directory : ∃ entries, t.find path = some (.directory entries)
  · obtain ⟨entries, found⟩ := directory
    by_cases none : ∀ entry ∈ entries, ¬ IsSource entry
    · exact ⟨_, .noSources found none⟩
    · have perm := sourceNames_perm entries
      refine ⟨_, .children found perm (sourceNames_ordered _) fun empty => none ?_⟩
      rw [empty, List.nil_perm] at perm
      exact sourcesAmong_eq_nil_iff.mp perm
  · exact ⟨_, .itself fun entries found => directory ⟨entries, found⟩⟩

theorem comesTo_ofFile {result : Except ExtractionError (List FeatureRow)}
    (h : HasRows t path result) :
    ComesTo t (ofFile path : ExceptT ExtractionError Telling (List FeatureRow)) result := by
  refine ComesTo.readText.bind ?_
  cases h with
  | rows text parsed =>
    rw [text]
    dsimp only
    rw [parsed]
    exact .of_pure _
  | malformed text fails =>
    rw [text]
    dsimp only
    rw [fails]
    exact .of_throw _
  | unreadable none =>
    rw [none]
    exact .of_throw _

theorem exists_hasRows (t : FileTree) (path : String) : ∃ result, HasRows t path result := by
  cases text : t.readText path with
  | none => exact ⟨_, .unreadable text⟩
  | some source =>
    cases parsed : ofSource? ((Path.lastName? path).getD path) source with
    | none => exact ⟨_, .malformed text parsed⟩
    | some found => exact ⟨_, .rows text parsed⟩

theorem comesTo_sources {paths : List String} {found : Except ExtractionError (List String)}
    (h : OneByOne (StandsFor t) paths found) :
    ComesTo t (sources paths : ExceptT ExtractionError Telling (List String)) found := by
  refine h.comesTo (.of_pure _) (fun path files rest later here there => ?_)
    fun path e rest here => (comesTo_sourcesOf here).bind_error
  cases later with
  | ok more => exact (comesTo_sourcesOf here).bind (there.bind (.of_pure _))
  | error e => exact (comesTo_sourcesOf here).bind there.bind_error

/-- Work on paths that tells of every file it has read. -/
def extraction (event : String → List FeatureRow → Event) (paths : List String) :
    ExceptT ExtractionError Telling (List FeatureRow) :=
  ofPaths (fun path rows => Command.Work.note (event path rows)) paths

variable {event : String → List FeatureRow → Event}

theorem comesTo_ofFiles {files : List String} {result : Except ExtractionError (List FeatureRow)}
    (h : OneByOne (HasRows t) files result) :
    ComesTo t (ofFiles (fun path rows => Command.Work.note (event path rows)) files :
      ExceptT ExtractionError Telling (List FeatureRow)) result := by
  refine h.comesTo (.of_pure _) (fun path rows rest later here there => ?_)
    fun path e rest here => (comesTo_ofFile here).bind_error
  refine (comesTo_ofFile here).bind ((ComesTo.note _).bind ?_)
  cases later with
  | ok more => exact there.bind (.of_pure _)
  | error e => exact there.bind_error

theorem comesTo_extraction {paths : List String} {result : Except ExtractionError (List FeatureRow)}
    (h : Extracts t paths result) : ComesTo t (extraction event paths) result := by
  cases h with
  | read collected rows => exact (comesTo_sources collected).bind (comesTo_ofFiles rows)
  | uncollected fails => exact (comesTo_sources fails).bind_error

theorem exists_extracts (t : FileTree) (paths : List String) :
    ∃ result, Extracts t paths result := by
  obtain ⟨found, collected⟩ := OneByOne.exists_result (exists_standsFor t) paths
  cases found with
  | error e => exact ⟨_, .uncollected collected⟩
  | ok files =>
    obtain ⟨result, rows⟩ := OneByOne.exists_result (exists_hasRows t) files
    exact ⟨result, .read collected rows⟩

end Run

/-! The order in which directories list their entries has no part in it. -/

section Rearranged

variable {t other : FileTree} (h : t.Rearranged other)
include h

theorem sourcesAmong_rearranged {path : String} {entries : List (String × Node)}
    (found : t.find path = some (.directory entries)) :
    ∃ others, other.find path = some (.directory others) ∧
      (sourcesAmong entries).Perm (sourcesAmong others) := by
  have there := h.find path
  rw [found] at there
  generalize other.find path = place at there
  cases there with
  | some same =>
    cases same with
    | @directory _ others distinct names each =>
      refine ⟨others, rfl, ?_⟩
      rw [sourcesAmong_eq, sourcesAmong_eq]
      exact (Node.Rearranged.fileNames (.directory distinct names each)).filter _

theorem StandsFor.rearranged {path : String} {found : Except ExtractionError (List String)}
    (stands : StandsFor t path found) : StandsFor other path found := by
  have there := h.find path
  cases stands with
  | itself apart =>
    refine .itself fun others found => ?_
    rw [found] at there
    generalize t.find path = here at there apart
    cases there with
    | some same =>
      cases same with
      | directory => exact apart _ rfl
  | children found listed ordered filled =>
    obtain ⟨others, found', perm⟩ := sourcesAmong_rearranged h found
    exact .children found' (listed.trans perm) ordered filled
  | noSources found none =>
    obtain ⟨others, found', perm⟩ := sourcesAmong_rearranged h found
    rw [sourcesAmong_eq_nil_iff.mpr none, List.nil_perm] at perm
    exact .noSources found' (sourcesAmong_eq_nil_iff.mp perm)

theorem HasRows.rearranged {path : String} {result : Except ExtractionError (List FeatureRow)}
    (has : HasRows t path result) : HasRows other path result := by
  have same := h.readText path
  cases has with
  | rows text parsed => exact .rows (same.trans text) parsed
  | malformed text fails => exact .malformed (same.trans text) fails
  | unreadable none => exact .unreadable (same.trans none)

theorem Extracts.rearranged {paths : List String}
    {result : Except ExtractionError (List FeatureRow)}
    (extracts : Extracts t paths result) : Extracts other paths result := by
  cases extracts with
  | read collected rows =>
    exact .read (collected.mono fun _ _ => .rearranged h) (rows.mono fun _ _ => .rearranged h)
  | uncollected fails => exact .uncollected (fails.mono fun _ _ => .rearranged h)

end Rearranged

/-- How the rows of paths in a tree come about. Each part says which result work has there; that it
has one is said beside it. -/
structure Composes (t : FileTree) (event : String → List FeatureRow → Event) : Prop where
  /-- Paths have a result, and it is that of `StandsFor` for one path after the other. -/
  sources (paths : List String) :
    (∃ found, ComesTo t (sources paths) found) ∧
      ∀ found, ComesTo t (sources paths) found ↔ OneByOne (StandsFor t) paths found
  /-- What is collected from a directory, in which no name holds a slash, leads to the sources in
  it, each by its name and in the order of these. -/
  collected (path : String) (entries : List (String × Node)) (files : List String) :
    t.find path = some (.directory entries) → (∀ entry ∈ entries, '/' ∉ entry.1.toList) →
      ComesTo t (FeatureRow.sources [path]) (.ok files) →
        ∃ names, names.Perm (sourcesAmong entries) ∧
          (names.Pairwise fun a b => bytes a ≤ bytes b) ∧
          List.Forall₂ (fun name file => t.find file = entries.lookup name ∧
            Path.lastName? file = some name) names files
  /-- A file has the rows of its own text. -/
  ofFile (path : String) :
    (∃ result, ComesTo t (ofFile path) result) ∧
      ∀ result, ComesTo t (ofFile path) result ↔ HasRows t path result
  /-- The rows of paths are those of their sources one after the other. -/
  extraction (paths : List String) :
    (∃ result, ComesTo t (extraction event paths) result) ∧
      ∀ result, ComesTo t (extraction event paths) result ↔ Extracts t paths result
  /-- There are rows if and only if every source is a text that can be parsed. -/
  succeeds (paths : List String) :
    (∃ rows, ComesTo t (FeatureRow.extraction event paths) (.ok rows)) ↔
      ∃ files, ComesTo t (FeatureRow.sources paths) (.ok files) ∧ ∀ path ∈ files,
        ∃ source, t.readText path = some source ∧
          (ofSource? ((Path.lastName? path).getD path) source).isSome
  append (paths more : List String) (rows rest : List FeatureRow) :
    ComesTo t (FeatureRow.extraction event paths) (.ok rows) →
      ComesTo t (FeatureRow.extraction event more) (.ok rest) →
        ComesTo t (FeatureRow.extraction event (paths ++ more)) (.ok (rows ++ rest))
  /-- In whichever order directories list their entries, the results are the same. -/
  rearranged (other : FileTree) (paths : List String) : t.Rearranged other →
    (∀ found, ComesTo t (FeatureRow.sources paths) found ↔
      ComesTo other (FeatureRow.sources paths) found) ∧
      ∀ result, ComesTo t (FeatureRow.extraction event paths) result ↔
        ComesTo other (FeatureRow.extraction event paths) result

section

variable {t : FileTree} {event : String → List FeatureRow → Event} {paths more : List String}

theorem comesTo_sources_iff (found : Except ExtractionError (List String)) :
    ComesTo t (sources paths) found ↔ OneByOne (StandsFor t) paths found :=
  ComesTo.iff (OneByOne.exists_result (exists_standsFor t) paths) (fun _ => comesTo_sources) found

theorem comesTo_extraction_iff (result : Except ExtractionError (List FeatureRow)) :
    ComesTo t (extraction event paths) result ↔ Extracts t paths result :=
  ComesTo.iff (exists_extracts t paths) (fun _ => comesTo_extraction) result

theorem hasRows_ok_iff {path : String} : (∃ rows, HasRows t path (.ok rows)) ↔
    ∃ source, t.readText path = some source ∧
      (ofSource? ((Path.lastName? path).getD path) source).isSome := by
  constructor
  · rintro ⟨rows, has⟩
    cases has with
    | rows text parsed => exact ⟨_, text, by rw [parsed]; rfl⟩
  · rintro ⟨source, text, parses⟩
    obtain ⟨rows, parsed⟩ := Option.isSome_iff_exists.mp parses
    exact ⟨rows, .rows text parsed⟩

theorem extracts_ok_iff : (∃ rows, Extracts t paths (.ok rows)) ↔
    ∃ files, OneByOne (StandsFor t) paths (.ok files) ∧
      ∀ path ∈ files, ∃ rows, HasRows t path (.ok rows) := by
  constructor
  · rintro ⟨rows, extracts⟩
    cases extracts with
    | read collected read => exact ⟨_, collected, OneByOne.exists_ok_iff.mp ⟨rows, read⟩⟩
  · rintro ⟨files, collected, each⟩
    obtain ⟨rows, read⟩ := OneByOne.exists_ok_iff.mpr each
    exact ⟨rows, .read collected read⟩

theorem Extracts.append {rows rest : List FeatureRow} (first : Extracts t paths (.ok rows))
    (second : Extracts t more (.ok rest)) : Extracts t (paths ++ more) (.ok (rows ++ rest)) := by
  cases first with
  | read collected read =>
    cases second with
    | read collected' read' => exact .read (collected.append collected') (read.append read')

end

/-- The sources of paths are those of each in turn, the rows of paths are those of their sources in
turn, and the first path or else the first source that has none is the reason for having none. -/
theorem extraction_composes (t : FileTree) (event : String → List FeatureRow → Event) :
    Composes t event where
  sources paths := by
    obtain ⟨found, collected⟩ := OneByOne.exists_result (exists_standsFor t) paths
    exact ⟨⟨found, comesTo_sources collected⟩, comesTo_sources_iff⟩
  collected path entries files found plain comes :=
    ((comesTo_sources_iff _).mp comes).of_singleton.leads found plain
  ofFile path := by
    obtain ⟨result, has⟩ := exists_hasRows t path
    exact ⟨⟨result, comesTo_ofFile has⟩, ComesTo.iff ⟨result, has⟩ fun _ => comesTo_ofFile⟩
  extraction paths := by
    obtain ⟨result, extracts⟩ := exists_extracts t paths
    exact ⟨⟨result, comesTo_extraction extracts⟩, comesTo_extraction_iff⟩
  succeeds paths := by
    simp only [comesTo_extraction_iff, comesTo_sources_iff, extracts_ok_iff, hasRows_ok_iff]
  append paths more rows rest first second := by
    rw [comesTo_extraction_iff] at first second ⊢
    exact first.append second
  rearranged other paths same := by
    constructor
    · refine fun found => (comesTo_sources_iff found).trans (ComesTo.iff ?_ ?_ found).symm
      · exact OneByOne.exists_result (exists_standsFor t) paths
      · exact fun _ h => comesTo_sources (h.mono fun _ _ => .rearranged same)
    · refine fun result => (comesTo_extraction_iff result).trans (ComesTo.iff ?_ ?_ result).symm
      · exact exists_extracts t paths
      · exact fun _ h => comesTo_extraction (h.rearranged same)

/-- Sources beside other entries, listed out of order. -/
def listedSources : List (String × Node) :=
  [("b.rs", .file "fn b() {}".toUTF8), ("deep", .directory [("c.rs", .file "fn c() {}".toUTF8)]),
    ("a.rs", .file "fn a() {}".toUTF8), ("notes.txt", .file "fn d() {}".toUTF8)]

/-- A tree with some entries in a directory beside the current one. -/
def besideCurrent (entries : List (String × Node)) : FileTree :=
  ⟨.directory [("work", .directory []), ("lib", .directory entries)], ["work"]⟩

theorem rearranged_listedSources {entries : List (String × Node)}
    (perm : listedSources.Perm entries) :
    (besideCurrent listedSources).Rearranged (besideCurrent entries) := by
  have single (name : String) (content : ByteArray) :
      (Node.directory [(name, .file content)]).Rearranged (.directory [(name, .file content)]) :=
    .of_perm (List.nodup_singleton _) (.refl _) fun entry mem => by
      obtain rfl := List.mem_singleton.mp mem
      exact .file content
  have lib : (Node.directory listedSources).Rearranged (.directory entries) := by
    refine .of_perm (by decide) perm fun entry mem => ?_
    simp only [listedSources, List.mem_cons, List.not_mem_nil, or_false] at mem
    obtain rfl | rfl | rfl | rfl := mem
    · exact .file _
    · exact single _ _
    · exact .file _
    · exact .file _
  refine ⟨.directory (by decide) (.refl _) fun name child other here there => ?_, rfl⟩
  rw [List.lookup_cons] at here there
  split at here
  · next work =>
    rw [work] at there
    cases here
    cases there
    exact .of_perm List.nodup_nil (.refl _) nofun
  · next other =>
    rw [other] at there
    rw [List.lookup_cons] at here there
    split at here
    · next last =>
      rw [last] at there
      cases here
      cases there
      exact lib
    · cases here

theorem extraction_composes_beside_current :
    ∃ rows : List FeatureRow,
      (rows.map fun row => (row.fileName, row.functionName)) =
        [("a.rs", "a"), ("b.rs", "b"), ("b.rs", "b")] ∧
      (∀ entries, listedSources.Perm entries → ComesTo (besideCurrent entries)
        (extraction (fun path rows => .fileExtracted path rows.length) (["../lib"] ++ ["/lib/b.rs"]))
        (.ok rows)) ∧
      ∃ names, names.Perm ["b.rs", "a.rs"] ∧
        List.Forall₂ (fun name file => (besideCurrent listedSources).find file =
          listedSources.lookup name ∧ Path.lastName? file = some name)
          names ["../lib/a.rs", "../lib/b.rs"] := by
  have columns (name source : String) (texts : List (String × String))
      (h : (ofSource? name source).map (·.map fun row => (row.fileName, row.functionName)) =
        some texts) := Option.map_eq_some_iff.mp h
  obtain ⟨first, parsed, texts⟩ := columns "a.rs" "fn a() {}" [("a.rs", "a")] (by decide +kernel)
  obtain ⟨second, parsed', texts'⟩ := columns "b.rs" "fn b() {}" [("b.rs", "b")] (by decide +kernel)
  let t := besideCurrent listedSources
  have composes := extraction_composes t fun path rows => .fileExtracted path rows.length
  have lib : t.find "../lib" = some (.directory listedSources) := rfl
  have children : StandsFor t "../lib" (.ok (["a.rs", "b.rs"].map (Path.join "../lib"))) :=
    .children lib (by decide +kernel) (by decide +kernel) nofun
  have itself : StandsFor t "/lib/b.rs" (.ok ["/lib/b.rs"]) := .itself nofun
  have a : HasRows t "../lib/a.rs" (.ok first) := .rows rfl parsed
  have b : HasRows t "../lib/b.rs" (.ok second) := .rows rfl parsed'
  have again : HasRows t "/lib/b.rs" (.ok second) := .rows rfl parsed'
  have collected := ((composes.sources ["../lib"]).2 (.ok ["../lib/a.rs", "../lib/b.rs"])).mpr
    (.all (.cons children .nil))
  have ofDirectory := ((composes.extraction ["../lib"]).2 (.ok [first, second].flatten)).mpr
    (.read (.all (.cons children .nil)) (.all (.cons a (.cons b .nil))))
  have ofFile := ((composes.extraction ["/lib/b.rs"]).2 (.ok [second].flatten)).mpr
    (.read (.all (.cons itself .nil)) (.all (.cons again .nil)))
  have all := composes.append _ _ _ _ ofDirectory ofFile
  refine ⟨[first, second].flatten ++ [second].flatten, ?_, fun entries perm => ?_, ?_⟩
  · simp [texts, texts']
  · exact ((composes.rearranged _ _ (rearranged_listedSources perm)).2 _).mp all
  · obtain ⟨names, listed, -, leads⟩ :=
      composes.collected "../lib" listedSources _ lib (by decide) collected
    exact ⟨names, listed.trans (by decide +kernel), leads⟩

end FeatureRow
end CallStudy
