import CallStudy.Proofs.Command.Atomic
import CallStudy.Proofs.Command.Look
import CallStudy.Proofs.Files.Ancestors

/-!
Which configuration file counts. The search goes up from a place and ends at the first file, which
is loaded whatever it holds; only where no directory has one are there defaults.
-/

set_option autoImplicit false

namespace CallStudy.Config

open Command (Telling ComesTo Request Outcome Work)

variable {t : FileTree} {place path : String}

/-- The nearest configuration file around a place: no directory further in has an entry with its
name, of whichever kind. Where there is none, no directory around the place has such an entry. -/
inductive Nearest (t : FileTree) (place : String) : Option String → Prop
  | found {around : String} (level : around ∈ Path.ancestors place)
      (present : (t.root.find (Path.names around ++ [fileName])).isSome)
      (nearest : ∀ inner, inner <+: Path.names place →
        (Path.names around).length < inner.length → t.root.find (inner ++ [fileName]) = none) :
      Nearest t place (some (Path.join around fileName))
  | absent (free : ∀ outer, outer <+: Path.names place →
        t.root.find (outer ++ [fileName]) = none) :
      Nearest t place none

/-- What loading the configuration at a path comes to. -/
inductive LoadsAs (t : FileTree) (path : String) : Except ConfigError Config → Prop
  | absent (free : t.find path = none) : LoadsAs t path (.error (.notFound path))
  | directory {entries : List (String × Node)} (found : t.find path = some (.directory entries)) :
      LoadsAs t path (.error .inaccessible)
  | noText {content : ByteArray} (found : t.find path = some (.file content))
      (noText : String.fromUTF8? content = none) : LoadsAs t path (.error .inaccessible)
  | unread {content : ByteArray} {text : String} {e : ConfigError}
      (found : t.find path = some (.file content)) (isText : String.fromUTF8? content = some text)
      (fails : ofText text = .error e) : LoadsAs t path (.error e)
  | invalid {content : ByteArray} {text : String} {c : Config} {reason : InvalidConfig}
      (found : t.find path = some (.file content)) (isText : String.fromUTF8? content = some text)
      (read : ofText text = .ok c) (fails : c.validate = .error reason) :
      LoadsAs t path (.error (.invalid reason))
  | valid {content : ByteArray} {text : String} {c : Config}
      (found : t.find path = some (.file content)) (isText : String.fromUTF8? content = some text)
      (read : ofText text = .ok c) (valid : c.validate = .ok ()) : LoadsAs t path (.ok c)

theorem exists_loadsAs (t : FileTree) (path : String) : ∃ result, LoadsAs t path result := by
  cases found : t.find path with
  | none => exact ⟨_, .absent found⟩
  | some node =>
    cases node with
    | directory entries => exact ⟨_, .directory found⟩
    | file content =>
      cases isText : String.fromUTF8? content with
      | none => exact ⟨_, .noText found isText⟩
      | some text =>
        cases read : ofText text with
        | error e => exact ⟨_, .unread found isText read⟩
        | ok c =>
          cases valid : c.validate with
          | error reason => exact ⟨_, .invalid found isText read valid⟩
          | ok _ => exact ⟨_, .valid found isText read valid⟩

theorem comesTo_load {result : Except ConfigError Config} (h : LoadsAs t path result) :
    ComesTo t (load path : ExceptT ConfigError Telling Config) result := by
  intro s
  refine ⟨s.events, ?_⟩
  rw [Command.runIn_load, FileTree.readText]
  cases h with
  | absent free =>
    rw [free]
    rfl
  | directory found =>
    rw [found]
    rfl
  | noText found noText =>
    rw [found]
    dsimp only
    rw [noText]
    rfl
  | unread found isText fails =>
    rw [found]
    dsimp only
    rw [isText, ofContent, fails]
    rfl
  | invalid found isText read fails =>
    rw [found]
    dsimp only
    rw [isText, ofContent, read, bind_ok, fails]
    rfl
  | valid found isText read valid =>
    rw [found]
    dsimp only
    rw [isText, ofContent_some_eq_ok_iff.mpr ⟨read, valid⟩]
    rfl

/-! The search. -/

/-- The first of some paths that leads to something. -/
theorem comesTo_firstPresent {ε : Type} (paths : List String) :
    ComesTo t (firstPresent paths : ExceptT ε Telling (Option String))
      (.ok (paths.find? fun path => (t.find path).isSome)) := by
  induction paths with
  | nil => exact .of_pure _
  | cons path rest ih =>
    refine ComesTo.isPresent.bind ?_
    rw [List.find?_cons]
    cases (t.find path).isSome with
    | true => exact .of_pure _
    | false => exact ih

/-- The file that the search finds in a tree. -/
def foundIn (t : FileTree) (place : String) : Option String :=
  ((Path.ancestors place).map (Path.join · fileName)).find? fun path => (t.find path).isSome

theorem find_at_level (absolute : Path.isAbsolute place) (down : ".." ∉ Path.names place)
    {level : String} (mem : level ∈ Path.ancestors place) :
    t.find (Path.join level fileName) = t.root.find (Path.names level ++ [fileName]) := by
  have outer := (Path.exists_ancestor_iff absolute).mp ⟨level, mem, rfl⟩
  have down' : ".." ∉ Path.names level := fun up => down (outer.subset up)
  exact FileTree.find_join (Path.of_mem_ancestors absolute mem).1 down' (by decide) (by decide)
    (by decide)

theorem comesTo_find {ε : Type} :
    ComesTo t (find? place : ExceptT ε Telling (Option String)) (.ok (foundIn t place)) :=
  comesTo_firstPresent _

theorem nearest_foundIn (absolute : Path.isAbsolute place) (down : ".." ∉ Path.names place) :
    Nearest t place (foundIn t place) := by
  rw [foundIn, List.find?_map]
  cases search : (Path.ancestors place).find?
      ((fun path => (t.find path).isSome) ∘ (Path.join · fileName)) with
  | none =>
    refine .absent fun outer inside => ?_
    obtain ⟨level, mem, rfl⟩ := (Path.exists_ancestor_iff absolute).mpr inside
    have free := List.find?_eq_none.mp search level mem
    rw [← find_at_level absolute down mem]
    simpa using free
  | some around =>
    obtain ⟨present, before, after, split, free⟩ := List.find?_eq_some_iff_append.mp search
    have mem : around ∈ Path.ancestors place := List.mem_of_find?_eq_some search
    refine .found mem ?_ ?_
    · rw [← find_at_level absolute down mem]
      exact present
    · intro inner inside longer
      obtain ⟨level, mem', rfl⟩ := (Path.exists_ancestor_iff absolute).mpr inside
      -- The levels that are not before the one that is found have no more names than it.
      have outer := (List.pairwise_append.mp (split ▸ Path.length_names_ancestors absolute)).2.1
      have earlier : level ∈ before := by
        rw [split, List.mem_append, List.mem_cons] at mem'
        obtain earlier | same | later := mem'
        · exact earlier
        · exact absurd longer (by rw [same]; exact lt_irrefl _)
        · exact absurd longer (not_lt.mpr ((List.pairwise_cons.mp outer).1 level later))
      have free := free level earlier
      rw [← find_at_level absolute down mem']
      simpa using free

/-- What loading what was found comes to. -/
inductive FoundAs (t : FileTree) : Option String → Except ConfigError Config → Prop
  | file {path : String} {result : Except ConfigError Config} (loads : LoadsAs t path result) :
      FoundAs t (some path) result
  | defaults : FoundAs t none (.ok {})

theorem exists_foundAs (t : FileTree) (found : Option String) :
    ∃ result, FoundAs t found result := by
  cases found with
  | none => exact ⟨_, .defaults⟩
  | some path =>
    obtain ⟨result, loads⟩ := exists_loadsAs t path
    exact ⟨result, .file loads⟩

theorem comesTo_loadFound {found : Option String} {result : Except ConfigError Config}
    (h : FoundAs t found result) :
    ComesTo t (loadFound found : ExceptT ConfigError Telling Config) result := by
  cases h with
  | file loads => exact comesTo_load loads
  | defaults => exact .of_pure _

/-- The configuration of the nearest file around a place. -/
def findAndLoad (place : String) : ExceptT ConfigError Telling Config := do
  loadFound (← find? place)

theorem comesTo_findAndLoad {result : Except ConfigError Config}
    (h : FoundAs t (foundIn t place) result) : ComesTo t (findAndLoad place) result :=
  comesTo_find.bind (comesTo_loadFound h)

/-! The path that is shown. -/

/-- The current directory as a text. -/
def currentIn (t : FileTree) : String := "/" ++ "/".intercalate t.current

/-- Where the configuration for a request comes from. -/
def sourceIn (t : FileTree) (r : Request) : Option String :=
  r.config <|> foundIn t (currentIn t)

theorem comesTo_currentDirectory :
    ComesTo t (Command.currentDirectory : Work (StateM FileTree) String) (.ok (currentIn t)) :=
  fun s => ⟨s.events, rfl⟩

theorem comesTo_loadConfig {r : Request} {result : Except ConfigError Config}
    (h : FoundAs t (sourceIn t r) result) :
    ComesTo t (Command.loadConfig r.config : Work (StateM FileTree) Config)
      (result.mapError (.config r.config)) := by
  rw [sourceIn] at h
  cases config : r.config with
  | some path =>
    rw [config] at h
    cases h with
    | file loads => exact (comesTo_load loads).attempt
  | none =>
    rw [config] at h
    refine comesTo_currentDirectory.bind (comesTo_find.bind ?_)
    have loads : ComesTo t (Work.attempt (.config none) _) _ := (comesTo_loadFound h).attempt
    revert loads
    generalize foundIn t (currentIn t) = found
    intro loads
    cases found with
    | none => exact loads
    | some path => exact (ComesTo.note _).bind loads

/-- The line for a path, or for the lack of one. -/
def shownPath : Option String → String
  | some path => path ++ "\n"
  | none => "(no inlinelab.toml found, using defaults)\n"

theorem runIn_showConfigPath (r : Request) (s : Command.Transcript) :
    ∃ events, Command.runIn (Command.showConfigPath r.config : Work (StateM FileTree) Unit) s t =
      ((.ok (), ⟨events, s.output ++ shownPath (sourceIn t r)⟩), t) := by
  rw [sourceIn]
  cases r.config with
  | some path => exact ⟨_, rfl⟩
  | none =>
    have found :
        ComesTo t (do find? (← Command.currentDirectory)) (.ok (foundIn t (currentIn t))) :=
      comesTo_currentDirectory.bind comesTo_find
    obtain ⟨events, ran⟩ := found s
    refine ⟨events, (Command.runIn_bind_of_ok ran).trans ?_⟩
    have same : (none <|> foundIn t (currentIn t)) = foundIn t (currentIn t) := rfl
    rw [same]
    cases foundIn t (currentIn t) <;> rfl

/-- What a request for the path of the configuration leaves behind: the path from which the
configuration was loaded, and nothing if that failed. -/
inductive ShowsPath (t : FileTree) (r : Request) : Option String → Outcome → Prop
  | loaded {path : String} {c : Config} {o : Outcome} (loads : LoadsAs t path (.ok c))
      (config : r.configIn t = .ok c) (code : o.code = 0) (output : o.output = path ++ "\n") :
      ShowsPath t r (some path) o
  | failed {path : String} {e : ConfigError} {o : Outcome} (fails : LoadsAs t path (.error e))
      (config : r.configIn t = .error (.config r.config e)) (code : o.code = 1)
      (output : o.output = "") :
      ShowsPath t r (some path) o
  | defaults {o : Outcome} (config : r.configIn t = .ok {}) (code : o.code = 0)
      (output : o.output = "(no inlinelab.toml found, using defaults)\n") :
      ShowsPath t r none o

theorem outcome_showsPath {r : Request} (command : r.command = .config true none)
    (setting : Option String) :
    ∃ o, StateT.run (r.outcome setting : StateM FileTree Outcome) t = (o, t) ∧
      ShowsPath t r (sourceIn t r) o := by
  obtain ⟨result, loads⟩ := exists_foundAs t (sourceIn t r)
  obtain ⟨events, ran⟩ := comesTo_loadConfig loads {}
  have config : r.configIn t = result.mapError (.config r.config) := by rw [Request.configIn, ran]
  cases result with
  | error e =>
    have last : Command.runIn r.execute {} t = ((.error _, { events }), t) :=
      Command.runIn_bind_of_error ran
    obtain ⟨lines, shown⟩ := Request.run_outcome setting last
    refine ⟨_, shown, ?_⟩
    generalize sourceIn t r = source at loads
    cases loads with
    | file loads => exact .failed loads config rfl rfl
  | ok c =>
    obtain ⟨events', shows⟩ := runIn_showConfigPath (t := t) r { events }
    have last : Command.runIn r.execute {} t =
        ((.ok (), ⟨events', "" ++ shownPath (sourceIn t r)⟩), t) := by
      refine (Command.runIn_bind_of_ok ran).trans ?_
      rw [Request.perform, command]
      exact shows
    obtain ⟨lines, shown⟩ := Request.run_outcome setting last
    refine ⟨_, shown, ?_⟩
    rw [String.empty_append]
    generalize sourceIn t r = source at loads
    cases loads with
    | file loads => exact .loaded loads config rfl rfl
    | defaults => exact .defaults config rfl rfl

/-- The search goes from a place to the root and takes the file of the nearest directory that has
one, which is then loaded whether it is any good or not; there are defaults only where there is none.
The path that is shown is the one that was loaded. -/
theorem search_takes_nearest (t : FileTree) {place : String} (absolute : Path.isAbsolute place)
    (down : ".." ∉ Path.names place) :
    (Path.ancestors place).map Path.names = (Path.names place).inits.reverse ∧
    (∀ level ∈ Path.ancestors place, Path.isAbsolute level ∧ level.toList <+: place.toList) ∧
    ∃ found, Nearest t place found ∧
      ComesTo t (find? place : ExceptT ConfigError Telling (Option String)) (.ok found) ∧
      (∃ result, ComesTo t (findAndLoad place) result) ∧
      (∀ result, ComesTo t (findAndLoad place) result ↔ FoundAs t found result) ∧
      (∀ path result, ComesTo t (load path : ExceptT ConfigError Telling Config) result ↔
        LoadsAs t path result) ∧
      ∀ setting args r, Request.ofArguments args = .ok r → r.command = .config true none →
        (r.config = none → currentIn t = place) →
        ∃ o, StateT.run (Command.program setting args : StateM FileTree (Option Outcome)) t =
          (some o, t) ∧ ShowsPath t r (r.config <|> found) o := by
  refine ⟨Path.names_ancestors absolute, fun level => Path.of_mem_ancestors absolute,
    foundIn t place, nearest_foundIn absolute down, comesTo_find, ?_, ?_, ?_, ?_⟩
  · obtain ⟨result, loads⟩ := exists_foundAs t (foundIn t place)
    exact ⟨result, comesTo_findAndLoad loads⟩
  · exact ComesTo.iff (exists_foundAs t _) fun _ => comesTo_findAndLoad
  · exact fun path => ComesTo.iff (exists_loadsAs t path) fun _ => comesTo_load
  · intro setting args r accepted command around
    obtain ⟨o, shown, shows⟩ := outcome_showsPath (t := t) command setting
    refine ⟨o, Command.run_program accepted shown, ?_⟩
    have same : sourceIn t r = (r.config <|> foundIn t place) := by
      rw [sourceIn]
      cases config : r.config with
      | some path => rfl
      | none => rw [around config]
    exact same ▸ shows

/-- A directory with the name of the file hides the file further out. -/
theorem search_takes_nearest_of_any_kind :
    ∃ t : FileTree, (∃ content, t.find "/inlinelab.toml" = some (.file content)) ∧
      ComesTo t (findAndLoad "/a/b") (.error .inaccessible) ∧
      ∃ o, StateT.run (Command.program none ["config", "--path"] :
        StateM FileTree (Option Outcome)) t = (some o, t) ∧ o.code = 1 ∧ o.output = "" := by
  let t : FileTree := {
    root := .directory [("inlinelab.toml", .file "".toUTF8),
      ("a", .directory [("b", .directory []), ("inlinelab.toml", .directory [])])]
    current := ["a", "b"] }
  have directory : t.find "/a/inlinelab.toml" = some (.directory []) := rfl
  have levels : Path.ancestors "/a/b" = ["/a/b", "/a", "/"] := by
    have b : Path.up? ['b', '/', 'a', '/'] = some ['a', '/'] := rfl
    have a : Path.up? ['a', '/'] = some ['/'] := rfl
    have top : Path.up? ['/'] = none := rfl
    change (Path.ascending ['b', '/', 'a', '/']).map _ = _
    rw [Path.ascending_of_some b, Path.ascending_of_some a, Path.ascending_of_none top]
    rfl
  have nearest : foundIn t "/a/b" = some "/a/inlinelab.toml" := by
    rw [foundIn, levels]
    rfl
  obtain ⟨-, -, found, -, searched, -, loads, -, shows⟩ :=
    search_takes_nearest t (show Path.isAbsolute "/a/b" from by decide) (by decide)
  obtain rfl : found = some "/a/inlinelab.toml" := by
    rw [← nearest]
    exact Except.ok.inj (searched.unique comesTo_find)
  refine ⟨t, ⟨_, rfl⟩, (loads _).mpr (.file (.directory directory)), ?_⟩
  obtain ⟨o, ran, shown⟩ := shows none ["config", "--path"] ⟨none, 0, .config true none⟩ rfl rfl
    fun _ => rfl
  refine ⟨o, ran, ?_⟩
  cases shown with
  | failed fails config code output => exact ⟨code, output⟩
  | loaded loads =>
    cases loads with
    | valid found =>
      rw [directory] at found
      cases found

end CallStudy.Config
