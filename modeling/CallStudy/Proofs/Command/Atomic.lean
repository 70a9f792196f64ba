import CallStudy.Proofs.Command.Work

/-!
Commands all fail in one way: before they write. A command looks at all that may go wrong, the
configuration first, and only then writes its output or the one file that it is for, so a failure
leaves the output empty and the tree as it was.
-/

set_option autoImplicit false

namespace CallStudy.Command

variable {target : Option String} {s : Transcript} {t : FileTree}

/-- What work may come to that began with `s` told and written and the tree `t`. -/
inductive Commit (target : Option String) (s : Transcript) (t : FileTree) :
    (Except Failure Unit × Transcript) × FileTree → Prop where
  | failed (f : Failure) (events : Array Event) (provided : f.IsProvided) :
    Commit target s t ((.error f, { s with events }), t)
  | looked (s' : Transcript) : Commit target s t ((.ok (), s'), t)
  | wrote (s' : Transcript) (path text : String) (t' : FileTree) (named : target = some path)
      (written : t.write path text.toUTF8 = some t') :
    Commit target s t ((.ok (), s'), t')

/-- Work that changes nothing when it fails, and else no file but that of `target`. -/
def Commits (target : Option String) (work : Work (StateM FileTree) Unit) : Prop :=
  ∀ s t, Commit target s t (runIn work s t)

/-- Work may look as long as it likes before it commits. -/
theorem Looks.commits {α : Type} {work : Work (StateM FileTree) α}
    {next : α → Work (StateM FileTree) Unit} {good : α → Prop}
    (first : Looks work good Failure.IsProvided) (second : ∀ a, good a → Commits target (next a)) :
    Commits target (work >>= next) := by
  intro s t
  obtain ⟨a, events, ran, h⟩ | ⟨e, events, ran, h⟩ := first s t
  · rw [runIn_bind_of_ok ran]
    generalize hr : runIn (next a) { s with events } t = r
    have last := hr ▸ second a h { s with events } t
    cases last with
    | failed f events provided => exact .failed f events provided
    | looked s' => exact .looked s'
    | wrote s' path text t' named written => exact .wrote s' path text t' named written
  · rw [runIn_bind_of_error ran]
    exact .failed e events h

theorem commits_writeLine (text : String) :
    Commits target (Work.writeLine text : Work (StateM FileTree) Unit) :=
  fun _ _ => .looked _

theorem commits_write (text : String) :
    Commits target (Work.write text : Work (StateM FileTree) Unit) :=
  fun _ _ => .looked _

theorem commits_throw {f : Failure} (provided : f.IsProvided) :
    Commits target (throw f : Work (StateM FileTree) Unit) :=
  fun s _ => .failed f s.events provided

/-! The commands one by one. -/

theorem bench_commits (c : Config) (iterations : UInt64) (rows cols : Option UInt64) :
    Commits target (bench c iterations rows cols) := by
  unfold bench
  split
  · exact commits_throw rfl
  · refine (Looks.boundsOf c rows cols).commits fun b ⟨_, fits⟩ => ?_
    split
    · exact commits_throw rfl
    · rw [timePasses_of_fits fits]
      exact fun _ _ => .looked _

theorem branch_commits (x y : Int64) : Commits target (branch x y) := by
  unfold branch
  split
  · exact commits_throw rfl
  · next checked =>
    obtain ⟨v, hv⟩ := Option.ne_none_iff_exists'.mp (by simpa using checked)
    exact (Looks.narrate (runBranch_tells (branchedAccumulate_eq_ok_iff.mpr hv)).outcome).commits
      fun _ _ => commits_writeLine _

/-- Text goes to the file that a command is for, or else the command fails. -/
theorem commits_writeText {path text : String} {next : Bool → Work (StateM FileTree) Unit}
    (last : ∀ s t, ∃ s', runIn (next true) s t = ((.ok (), s'), t))
    (refuses : ∃ f : Failure, f.IsProvided ∧ next false = throw f) :
    Commits (some path) (FileAccess.writeText path text >>= next) := by
  intro s t
  cases written : t.write path text.toUTF8 with
  | some t' =>
    obtain ⟨s', ends⟩ := last s t'
    rw [runIn_bind_of_ok (runIn_writeText_of_some written), ends]
    exact .wrote s' path text t' rfl written
  | none =>
    obtain ⟨f, provided, same⟩ := refuses
    rw [runIn_bind_of_ok (runIn_writeText_of_none written), same]
    exact .failed f s.events provided

theorem attempt_save {c : Config} {path text : String} (written : c.written? = some text) :
    (Work.attempt (.unwritten path) (Config.save c path) : Work (StateM FileTree) Unit) =
      FileAccess.writeText path text >>= fun done =>
        if done then pure () else throw (.unwritten path .inaccessible) := by
  have write : (FileAccess.writeText path text : Work (StateM FileTree) Bool).run =
      Except.ok <$> (FileAccess.writeText path text : Telling Bool) := rfl
  apply ExceptT.ext
  change Except.mapError _ <$> (Config.save c path).run = _
  rw [Config.run_save written, map_bind, ExceptT.run_bind, write, bind_map_left]
  apply bind_congr
  intro done
  cases done <;> rfl

theorem initConfig_commits (path : String) : Commits (some path) (initConfig path) := by
  obtain ⟨text, written⟩ : ∃ text, Config.written? {} = some text :=
    ⟨_, if_pos Config.isWritable_default⟩
  unfold initConfig
  refine Looks.isPresent.commits fun present _ => ?_
  split
  · exact commits_throw rfl
  · rw [attempt_save written, bind_assoc]
    exact commits_writeText (fun s _ => ⟨_, rfl⟩) ⟨.unwritten path .inaccessible, rfl, rfl⟩

/-- Defaults are written only where nothing is. -/
theorem find_eq_none_of_initConfig {path : String} {s s' : Transcript} {t t' : FileTree}
    (h : runIn (initConfig path) s t = ((.ok (), s'), t')) : t.find path = none := by
  rw [initConfig, runIn_bind_of_ok runIn_isPresent] at h
  cases found : t.find path with
  | none => rfl
  | some node =>
    rw [found] at h
    cases h

theorem showConfigPath_commits (path : Option String) : Commits target (showConfigPath path) := by
  unfold showConfigPath
  cases path with
  | some path => exact commits_writeLine _
  | none =>
    refine Looks.currentDirectory.commits fun place _ => ?_
    refine (Looks.firstPresent _).commits fun found _ => ?_
    cases found <;> exact commits_writeLine _

theorem showConfig_commits (c : Config) : Commits target (showConfig c) := by
  unfold showConfig
  split
  · exact commits_write _
  · exact commits_throw rfl

theorem features_commits (c : Config) (inputs : List String) (format : Option TableFormat)
    (output : Option String) :
    Commits (output <|> c.features.output) (features c inputs format output) := by
  have extracts : Looks (Work.attempt .extraction
      (FeatureRow.ofPaths (fun path rows => Work.note (.fileExtracted path rows.length)) inputs))
      (fun _ => True) Failure.IsProvided :=
    (Looks.ofPaths (fun path rows => .fileExtracted path rows.length) inputs).attempt
      fun _ _ => rfl
  refine extracts.commits fun rows _ => (Looks.note _).commits fun _ _ => ?_
  dsimp only
  cases output <|> c.features.output with
  | none => exact commits_write _
  | some path =>
    exact commits_writeText (fun s _ => ⟨{ s with events := s.events.push _ }, rfl⟩)
      ⟨.uncreated path, rfl, rfl⟩

theorem grid_commits (c : Config) (rows cols : Option UInt64) (inlined : Bool) :
    Commits target (grid c rows cols inlined) := by
  refine (Looks.boundsOf c rows cols).commits fun b ⟨_, fits⟩ => ?_
  obtain ⟨v, total⟩ := Option.isSome_iff_exists.mp fits
  rw [gridAccumulate_of_closedForm total]
  exact (Looks.note _).commits fun _ _ => commits_writeLine _

theorem runAll_commits {c : Config} (valid : c.validate = .ok ()) (json : Bool) :
    Commits target (runAll c json) := by
  obtain ⟨report, events, told, -⟩ := Config.run_of_valid valid
  refine (Looks.narrate told).commits fun _ _ => ?_
  split
  · exact commits_writeLine _
  · exact fun _ _ => .looked _

theorem scaleRead_commits {α : Type} [Scalable α] (text : String) (value : Option α) :
    Commits target (scaleRead text value) := by
  cases value with
  | none => exact commits_throw rfl
  | some value =>
    rw [scaleRead]
    split
    · exact fun _ _ => .looked _
    · exact fun _ _ => .looked _

theorem scale_commits (type : NumberType) (text : String) :
    Commits target (scale type text) := by
  cases type <;> exact scaleRead_commits text _

theorem variance_commits (c : Config) (values : List Float) :
    Commits target (variance c values) :=
  (Looks.narrate (runVariance_tells _).outcome).commits fun _ _ => commits_writeLine _

/-- The path of the file that a request is for. -/
def Request.target? (r : Request) (c : Config) : Option String :=
  match r.command with
  | .config _ target => target
  | .features _ _ output => output <|> c.features.output
  | _ => none

/-- What the configuration for a request is on a tree. -/
def Request.configIn (r : Request) (t : FileTree) : Except Failure Config :=
  (runIn (loadConfig r.config) {} t).1.1

theorem Request.loadConfig_cases (r : Request) (t : FileTree) :
    (∃ c events, runIn (loadConfig r.config) {} t = ((.ok c, { events }), t) ∧
      r.configIn t = .ok c ∧ Ready c) ∨
    ∃ f events, runIn (loadConfig r.config) {} t = ((.error f, { events }), t) ∧
      r.configIn t = .error f ∧ f.IsProvided := by
  obtain ⟨c, events, ran, ready⟩ | ⟨f, events, ran, provided⟩ := Looks.loadConfig r.config {} t
  · exact .inl ⟨c, events, ran, by rw [configIn, ran], ready⟩
  · exact .inr ⟨f, events, ran, by rw [configIn, ran], provided⟩

theorem Request.perform_commits (r : Request) {c : Config} (ready : Ready c) :
    Commits (r.target? c) (r.perform c) := by
  obtain ⟨path, verbosity, command⟩ := r
  cases command with
  | bench iterations rows cols => exact bench_commits c iterations rows cols
  | branch x y => exact branch_commits x y
  | config showPath target =>
    cases target with
    | some path => exact initConfig_commits path
    | none =>
      cases showPath with
      | true => exact showConfigPath_commits path
      | false => exact showConfig_commits c
  | features inputs format output => exact features_commits c inputs format output
  | grid rows cols inlined => exact grid_commits c rows cols inlined
  | run json => exact runAll_commits ready.1 json
  | scale type text => exact scale_commits type text
  | variance values => exact variance_commits c values

/-! The two commands with totals, when the configuration is loaded. -/

theorem runIn_branch {x y v : Int64} (total : checkedBranchedAccumulate x y = some v)
    (s : Transcript) (t : FileTree) :
    ∃ events, runIn (branch x y) s t =
      ((.ok (), ⟨events, s.output ++ (toString v.toInt ++ "\n")⟩), t) := by
  have told := (runBranch_tells (branchedAccumulate_eq_ok_iff.mpr total)).outcome
  have looks : Looks (Work.narrate (runBranch x y)) (· = ⟨x, y, v⟩) fun _ => False :=
    .narrate told
  obtain ⟨o, events, ran, rfl⟩ | ⟨f, _, _, impossible⟩ := looks s t
  · refine ⟨events, ?_⟩
    rw [branch, total]
    exact runIn_bind_of_ok ran
  · exact impossible.elim

theorem runIn_branch_of_none {x y : Int64} (total : checkedBranchedAccumulate x y = none)
    (s : Transcript) (t : FileTree) :
    runIn (branch x y) s t = ((.error (.branch x y), s), t) := by
  rw [branch, total]
  rfl

theorem runIn_grid {c : Config} {rows cols : Option UInt64} {v : Int64}
    (total : gridClosedForm ⟨rows.getD c.grid.rows, cols.getD c.grid.cols⟩ = some v)
    (inlined : Bool) (s : Transcript) (t : FileTree) :
    ∃ events, runIn (grid c rows cols inlined) s t =
      ((.ok (), ⟨events, s.output ++ (toString v.toInt ++ "\n")⟩), t) := by
  have bounds : (boundsOf c rows cols : Work (StateM FileTree) GridBounds) =
      pure ⟨rows.getD c.grid.rows, cols.getD c.grid.cols⟩ :=
    if_pos (Option.isSome_iff_exists.mpr ⟨v, total⟩)
  rw [grid, bounds, pure_bind, gridAccumulate_of_closedForm total]
  exact ⟨_, rfl⟩

theorem runIn_grid_of_none {c : Config} {rows cols : Option UInt64}
    (total : gridClosedForm ⟨rows.getD c.grid.rows, cols.getD c.grid.cols⟩ = none)
    (inlined : Bool) (s : Transcript) (t : FileTree) :
    ∃ f : Failure, f.IsProvided ∧ runIn (grid c rows cols inlined) s t = ((.error f, s), t) := by
  have bounds : (boundsOf c rows cols : Work (StateM FileTree) GridBounds) =
      throw (.tooLarge ⟨rows.getD c.grid.rows, cols.getD c.grid.cols⟩) :=
    if_neg (by rw [GridBounds.fits, total]; decide)
  rw [grid, bounds]
  exact ⟨.tooLarge _, rfl, rfl⟩

/-! A whole run. -/

/-- At most the file that `target` leads to differs between two trees. -/
def SameBut (target : Option String) (t t' : FileTree) : Prop :=
  t' = t ∨ ∃ path place name content, target = some path ∧ t.LeadsTo path place name ∧
    t' = t.withFile (place ++ [name]) content ∧
    ∀ other ≠ place ++ [name], ∀ content,
      t'.root.find other = some (.file content) ↔ t.root.find other = some (.file content)

theorem sameBut_of_write {path : String} {t' : FileTree} {content : ByteArray}
    (h : t.write path content = some t') : SameBut (some path) t t' := by
  obtain ⟨place, name, leads, rfl⟩ := FileTree.write_eq_some_iff.mp h
  exact .inr ⟨path, place, name, content, rfl, leads, rfl,
    fun other apart content => leads.find_withFile_eq_file_iff apart⟩

/-- What a run for a request leaves of a tree: everything, if it fails, and else everything but the
file that the request is for. -/
structure Request.Atomic (r : Request) (t : FileTree) (o : Outcome) (t' : FileTree) : Prop where
  code : o.code = 0 ∨ o.code = 1
  noOverflow : ∀ cause, o.failure ≠ some (.overflow cause)
  failed : o.code = 1 → o.output = "" ∧ t' = t
  succeeded : o.code = 0 → ∃ c, r.configIn t = .ok c ∧ SameBut (r.target? c) t t'
  /-- New defaults overwrite no file. -/
  kept : ∀ showPath path, r.command = .config showPath (some path) → ∀ place content,
    t.root.find place = some (.file content) → t'.root.find place = some (.file content)
  branch : ∀ x y c, r.command = .branch x y → r.configIn t = .ok c →
    match checkedBranchedAccumulate x y with
    | some v =>
      branchedAccumulate x y = .ok v ∧ o.code = 0 ∧ o.output = toString v.toInt ++ "\n"
    | none => o.code = 1
  grid : ∀ rows cols inlined c, r.command = .grid rows cols inlined → r.configIn t = .ok c →
    match gridClosedForm ⟨rows.getD c.grid.rows, cols.getD c.grid.cols⟩ with
    | some v => o.code = 0 ∧ o.output = toString v.toInt ++ "\n"
    | none => o.code = 1

namespace Request

variable {r : Request} {c : Config} {f : Failure} {s : Transcript} {t' : FileTree}
  {lines : List String}

theorem runIn_execute (loaded : r.configIn t = .ok c) :
    ∃ events, runIn r.execute {} t = runIn (r.perform c) { events } t := by
  obtain ⟨c', events, ran, same, -⟩ | ⟨f, events, -, same, -⟩ := r.loadConfig_cases t
  · rw [loaded] at same
    cases same
    exact ⟨events, runIn_bind_of_ok ran⟩
  · rw [loaded] at same
    cases same

/-- What is seen of a run from outside. -/
def seen (result : Except Failure Unit) (s : Transcript) (lines : List String) : Outcome :=
  match result with
  | .ok () => { output := s.output, lines }
  | .error f => { code := f.code, output := s.output, lines, failure := some f }

theorem run_outcome {result : Except Failure Unit} (setting : Option String)
    (h : runIn r.execute {} t = ((result, s), t')) :
    ∃ lines, StateT.run (r.outcome setting : StateM FileTree Outcome) t =
      (seen result s lines, t') := by
  rw [runIn] at h
  rw [outcome, StateT.run_bind, h]
  cases result <;> exact ⟨_, rfl⟩

theorem atomic_of_failed {events : Array Event} (provided : f.IsProvided)
    (h : runIn r.execute {} t = ((.error f, { events }), t)) :
    r.Atomic t (seen (.error f) { events } lines) t where
  code := .inr provided
  noOverflow := by
    rintro cause ⟨⟩
    cases provided
  failed _ := ⟨rfl, rfl⟩
  succeeded zero := by
    rw [show (seen (.error f) { events } lines).code = 1 from provided] at zero
    cases zero
  kept _ _ _ _ _ found := found
  branch x y c command loaded := by
    obtain ⟨events', same⟩ := runIn_execute loaded
    rw [h, perform, command] at same
    split
    · next v total =>
      obtain ⟨_, ran⟩ := runIn_branch total { events := events' } t
      cases same.trans ran
    · exact provided
  grid rows cols inlined c command loaded := by
    obtain ⟨events', same⟩ := runIn_execute loaded
    rw [h, perform, command] at same
    split
    · next v total =>
      obtain ⟨_, ran⟩ := runIn_grid total inlined { events := events' } t
      cases same.trans ran
    · exact provided

theorem atomic_of_done (loaded : r.configIn t = .ok c) (same : SameBut (r.target? c) t t')
    (h : runIn r.execute {} t = ((.ok (), s), t')) :
    r.Atomic t (seen (.ok ()) s lines) t' where
  code := .inl rfl
  noOverflow := nofun
  failed := nofun
  succeeded _ := ⟨c, loaded, same⟩
  kept showPath path command place content found := by
    obtain ⟨events, ran⟩ := runIn_execute loaded
    rw [h, perform, command] at ran
    have absent := find_eq_none_of_initConfig ran.symm
    obtain rfl | ⟨path', place', name, content', named, leads, rfl, -⟩ := same
    · exact found
    · rw [target?, command] at named
      cases named
      exact leads.find_withFile_of_find_eq_none absent found
  branch x y c command loaded := by
    obtain ⟨events, same⟩ := runIn_execute loaded
    rw [h, perform, command] at same
    split
    · next v total =>
      obtain ⟨_, ran⟩ := runIn_branch total { events } t
      cases same.trans ran
      exact ⟨branchedAccumulate_eq_ok_iff.mpr total, rfl, String.empty_append⟩
    · next total => cases same.trans (runIn_branch_of_none total _ t)
  grid rows cols inlined c command loaded := by
    obtain ⟨events, same⟩ := runIn_execute loaded
    rw [h, perform, command] at same
    split
    · next v total =>
      obtain ⟨_, ran⟩ := runIn_grid total inlined { events } t
      cases same.trans ran
      exact ⟨rfl, String.empty_append⟩
    · next total =>
      obtain ⟨f, -, ran⟩ := runIn_grid_of_none total inlined { events } t
      cases same.trans ran

theorem outcome_atomic (r : Request) (setting : Option String) (t : FileTree) :
    ∃ o t', StateT.run (r.outcome setting : StateM FileTree Outcome) t = (o, t') ∧
      r.Atomic t o t' := by
  obtain ⟨c, events, ran, loaded, ready⟩ | ⟨f, events, ran, -, provided⟩ := r.loadConfig_cases t
  -- Only a loaded configuration is certain to be valid, which a run relies on.
  · have commit := r.perform_commits ready { events } t
    rw [← runIn_bind_of_ok ran] at commit
    generalize last : runIn (loadConfig r.config >>= r.perform) {} t = left at commit
    cases commit with
    | failed f events provided =>
      obtain ⟨lines, shown⟩ := run_outcome setting last
      exact ⟨_, _, shown, atomic_of_failed provided last⟩
    | looked s' =>
      obtain ⟨lines, shown⟩ := run_outcome setting last
      exact ⟨_, _, shown, atomic_of_done loaded (.inl rfl) last⟩
    | wrote s' path text t' named written =>
      obtain ⟨lines, shown⟩ := run_outcome setting last
      exact ⟨_, _, shown, atomic_of_done loaded (named ▸ sameBut_of_write written) last⟩
  · have last : runIn r.execute {} t = ((.error f, { events }), t) := runIn_bind_of_error ran
    obtain ⟨lines, shown⟩ := run_outcome setting last
    exact ⟨_, _, shown, atomic_of_failed provided last⟩

/-- The exit code and the output of a pass over a grid. -/
def gridSeen (rows cols : Option UInt64) : Except Failure Config → Nat × String
  | .ok c =>
    match gridClosedForm ⟨rows.getD c.grid.rows, cols.getD c.grid.cols⟩ with
    | some v => (0, toString v.toInt ++ "\n")
    | none => (1, "")
  | .error _ => (1, "")

theorem Atomic.seen_of_grid {o : Outcome} (atomic : r.Atomic t o t') {rows cols : Option UInt64}
    {inlined : Bool} (command : r.command = .grid rows cols inlined) :
    t' = t ∧ (o.code, o.output) = gridSeen rows cols (r.configIn t) := by
  have untouched : t' = t := by
    rcases atomic.code with zero | one
    · obtain ⟨c, -, rfl | ⟨_, _, _, _, named, -⟩⟩ := atomic.succeeded zero
      · rfl
      · rw [target?, command] at named
        cases named
    · exact (atomic.failed one).2
  refine ⟨untouched, ?_⟩
  cases loaded : r.configIn t with
  | error f =>
    have one : o.code = 1 := atomic.code.resolve_left fun zero => by
      obtain ⟨c, found, -⟩ := atomic.succeeded zero
      rw [loaded] at found
      cases found
    rw [one, (atomic.failed one).1]
    rfl
  | ok c =>
    have seen := atomic.grid rows cols inlined c command loaded
    rw [gridSeen]
    split at seen
    · rw [seen.1, seen.2]
    · rw [seen, (atomic.failed seen).1]

end Request

theorem run_program {setting : Option String} {args : List String} {r : Request}
    (accepted : Request.ofArguments args = .ok r) {o : Outcome} {t' : FileTree}
    (h : StateT.run (r.outcome setting : StateM FileTree Outcome) t = (o, t')) :
    StateT.run (program setting args : StateM FileTree (Option Outcome)) t = (some o, t') := by
  rw [program, accepted, StateT.run_bind, h]
  rfl

/-- Whatever request the arguments of the program make, nothing overflows, and a failure comes
before anything is written. A grid is passed with the same output whether its cells are inlined or
not. -/
theorem program_fails_atomically (setting : Option String) {args : List String} (t : FileTree)
    {r : Request} (accepted : Request.ofArguments args = .ok r) :
    ∃ o t', StateT.run (program setting args : StateM FileTree (Option Outcome)) t = (some o, t') ∧
      r.Atomic t o t' ∧
      ∀ rows cols inlined, r.command = .grid rows cols inlined →
        ∀ args' inlined', Request.ofArguments args' =
            .ok { r with command := .grid rows cols inlined' } →
          ∃ o', StateT.run (program setting args' : StateM FileTree (Option Outcome)) t =
              (some o', t') ∧ o'.code = o.code ∧ o'.output = o.output := by
  obtain ⟨o, t', ran, atomic⟩ := r.outcome_atomic setting t
  refine ⟨o, t', run_program accepted ran, atomic, ?_⟩
  intro rows cols inlined command args' inlined' accepted'
  obtain ⟨o', left, ran', atomic'⟩ :=
    Request.outcome_atomic { r with command := .grid rows cols inlined' } setting t
  obtain ⟨rfl, seen⟩ := atomic.seen_of_grid command
  obtain ⟨rfl, seen'⟩ := atomic'.seen_of_grid rfl
  have same : (o'.code, o'.output) = (o.code, o.output) := seen'.trans seen.symm
  exact ⟨o', run_program accepted' ran', congrArg Prod.fst same, congrArg Prod.snd same⟩

theorem program_fails_atomically_for_branch :
    ∃ o t', StateT.run (program none ["branch", "5", "10"] : StateM FileTree (Option Outcome)) {} =
      (some o, t') ∧ o.code = 0 ∧ o.output = "26\n" ∧ t' = {} := by
  have accepted : Request.ofArguments ["branch", "5", "10"] = .ok ⟨none, 0, .branch 5 10⟩ := by
    rfl
  have place : runIn (currentDirectory : Work (StateM FileTree) String) {} {} =
      ((.ok "/", {}), {}) := by rfl
  have around : runIn (Config.find? "/" : Work (StateM FileTree) (Option String)) {} {} =
      ((.ok none, {}), {}) := by
    rw [Config.find?, Path.ancestors, Path.ascending]
    rfl
  have loaded : Request.configIn ⟨none, 0, .branch 5 10⟩ {} = .ok {} := by
    rw [Request.configIn, loadConfig, runIn_bind_of_ok place, runIn_bind_of_ok around]
    rfl
  obtain ⟨o, t', ran, atomic, -⟩ := program_fails_atomically none {} accepted
  obtain ⟨-, code, output⟩ := atomic.branch 5 10 {} rfl loaded
  obtain ⟨c, -, rfl | ⟨_, _, _, _, named, -⟩⟩ := atomic.succeeded code
  · exact ⟨o, {}, ran, code, output, rfl⟩
  · cases named

end CallStudy.Command
