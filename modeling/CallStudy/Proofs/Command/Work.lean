import CallStudy.Command.Execute
import CallStudy.Proofs.Config.RoundTrip

/-!
What work does to the output and to a tree of files. Work that only looks leaves both as they are,
whether it succeeds or fails. All that stands in front of the last step of a command is of this
kind.
-/

set_option autoImplicit false

namespace CallStudy.Command

/-- Passes over a grid that fits are timed to their end. -/
theorem timePasses_of_fits {m : Type → Type} [Monad m] {b : GridBounds} (fits : b.fits)
    (iterations : UInt64) : (timePasses b iterations : Work m Unit) = pure () := by
  rw [timePasses, gridPasses_of_fits fits]

/-- Access to a tree of files beside what has been told and written. -/
abbrev Telling := StateT Transcript (StateM FileTree)

variable {ε α β : Type}

/-- The result of work with what it has told and written and the tree that it leaves. -/
def runIn (work : ExceptT ε Telling α) (s : Transcript) (t : FileTree) :
    (Except ε α × Transcript) × FileTree :=
  StateT.run (StateT.run work.run s) t

section Run

variable {work : ExceptT ε Telling α} {next : α → ExceptT ε Telling β} {s s' : Transcript}
  {t t' : FileTree} {path : String}

theorem runIn_bind_of_ok {a : α} (h : runIn work s t = ((.ok a, s'), t')) :
    runIn (work >>= next) s t = runIn (next a) s' t' := by
  rw [runIn] at h
  rw [runIn, ExceptT.run_bind, StateT.run_bind, StateT.run_bind, h]
  rfl

theorem runIn_bind_of_error {e : ε} (h : runIn work s t = ((.error e, s'), t')) :
    runIn (work >>= next) s t = ((.error e, s'), t') := by
  rw [runIn] at h
  rw [runIn, ExceptT.run_bind, StateT.run_bind, StateT.run_bind, h]
  rfl

theorem runIn_attempt {failure : ε → Failure} {result : Except ε α}
    (h : runIn work s t = ((result, s'), t')) :
    runIn (Work.attempt failure work) s t = ((result.mapError failure, s'), t') := by
  rw [runIn] at h
  change StateT.run (StateT.run (Except.mapError failure <$> work.run) s) t = _
  rw [StateT.run_map, StateT.run_map, h]
  rfl

theorem runIn_isPresent :
    runIn (FileAccess.isPresent path : ExceptT ε Telling Bool) s t =
      ((.ok (t.find path).isSome, s), t) := rfl

theorem runIn_writeText_of_some {text : String} (h : t.write path text.toUTF8 = some t') :
    runIn (FileAccess.writeText path text : ExceptT ε Telling Bool) s t = ((.ok true, s), t') := by
  change (fun p => ((Except.ok p.1, s), p.2)) <$>
    StateT.run (FileAccess.writeText path text : StateM FileTree Bool) t = _
  simp only [FileAccess.writeText, StateT.run_bind, StateT.run_get, pure_bind, h]
  rfl

theorem runIn_writeText_of_none {text : String} (h : t.write path text.toUTF8 = none) :
    runIn (FileAccess.writeText path text : ExceptT ε Telling Bool) s t = ((.ok false, s), t) := by
  change (fun p => ((Except.ok p.1, s), p.2)) <$>
    StateT.run (FileAccess.writeText path text : StateM FileTree Bool) t = _
  simp only [FileAccess.writeText, StateT.run_bind, StateT.run_get, pure_bind, h]
  rfl

end Run

/-- Work that leaves the tree and the output as they are: either it returns something `good`, or it
fails for a reason that is `bad`. -/
def Looks (work : ExceptT ε Telling α) (good : α → Prop) (bad : ε → Prop) : Prop :=
  ∀ (s : Transcript) (t : FileTree),
    (∃ a events, runIn work s t = ((.ok a, { s with events }), t) ∧ good a) ∨
      ∃ e events, runIn work s t = ((.error e, { s with events }), t) ∧ bad e

namespace Looks

variable {good : α → Prop} {bad : ε → Prop} {also : β → Prop} {path : String}

theorem of_pure {a : α} (h : good a) : Looks (pure a : ExceptT ε Telling α) good bad :=
  fun s _ => .inl ⟨a, s.events, rfl, h⟩

theorem of_throw {e : ε} (h : bad e) : Looks (throw e : ExceptT ε Telling α) good bad :=
  fun s _ => .inr ⟨e, s.events, rfl, h⟩

theorem bind {work : ExceptT ε Telling α} {next : α → ExceptT ε Telling β}
    (first : Looks work good bad) (second : ∀ a, good a → Looks (next a) also bad) :
    Looks (work >>= next) also bad := by
  intro s t
  obtain ⟨a, events, ran, h⟩ | ⟨e, events, ran, h⟩ := first s t
  · rw [runIn_bind_of_ok ran]
    exact second a h { s with events } t
  · exact .inr ⟨e, events, runIn_bind_of_error ran, h⟩

theorem attempt {work : ExceptT ε Telling α} {failure : ε → Failure} {worse : Failure → Prop}
    (h : Looks work good bad) (reasons : ∀ e, bad e → worse (failure e)) :
    Looks (Work.attempt failure work) good worse := by
  intro s t
  obtain ⟨a, events, ran, h⟩ | ⟨e, events, ran, h⟩ := h s t
  · exact .inl ⟨a, events, runIn_attempt ran, h⟩
  · exact .inr ⟨failure e, events, runIn_attempt ran, reasons e h⟩

/-! Looking at files and telling of it. -/

theorem isPresent : Looks (FileAccess.isPresent path : ExceptT ε Telling Bool) (fun _ => True) bad :=
  fun s _ => .inl ⟨_, s.events, rfl, trivial⟩

theorem isDirectory :
    Looks (FileAccess.isDirectory path : ExceptT ε Telling Bool) (fun _ => True) bad :=
  fun s _ => .inl ⟨_, s.events, rfl, trivial⟩

theorem readText :
    Looks (FileAccess.readText path : ExceptT ε Telling (Option String)) (fun _ => True) bad :=
  fun s _ => .inl ⟨_, s.events, rfl, trivial⟩

theorem regularFiles :
    Looks (FileAccess.regularFiles path : ExceptT ε Telling (Option (List String)))
      (fun _ => True) bad :=
  fun s _ => .inl ⟨_, s.events, rfl, trivial⟩

theorem currentDirectory? :
    Looks (FileAccess.currentDirectory : ExceptT ε Telling (Option String)) (fun _ => True) bad :=
  fun s _ => .inl ⟨_, s.events, rfl, trivial⟩

theorem note (e : Event) :
    Looks (liftM (Work.note e : Telling Unit) : ExceptT ε Telling Unit) (fun _ => True) bad :=
  fun s _ => .inl ⟨(), s.events.push e, rfl, trivial⟩

theorem forM_tell (events : List Event) {bad : Failure → Prop} :
    Looks (events.forM Work.tell : Work (StateM FileTree) PUnit) (fun _ => True) bad := by
  induction events with
  | nil => exact of_pure trivial
  | cons e rest ih => exact (note e).bind fun _ _ => ih

/-- A demonstration that overflows nowhere is only told of. -/
theorem narrate {work : Narration α} {value : α} {events : List Event} {bad : Failure → Prop}
    (h : work.outcome = .ok (value, events)) :
    Looks (Work.narrate work : Work (StateM FileTree) α) (· = value) bad := by
  rw [Work.narrate, h]
  exact (forM_tell events).bind fun _ _ => of_pure rfl

end Looks

/-! Loading the configuration. -/

theorem runIn_load {path : String} {s : Transcript} {t : FileTree} :
    runIn (Config.load path : ExceptT ConfigError Telling Config) s t =
      ((if (t.find path).isSome then Config.ofContent (t.readText path)
        else .error (.notFound path), s), t) := by
  rw [runIn, Config.run_load]
  change StateT.run (StateT.run (if (t.find path).isSome then _ else _) s) t = _
  cases (t.find path).isSome <;> rfl

/-- What holds of every configuration that was loaded. -/
def Ready (c : Config) : Prop := c.validate = .ok () ∧ c.isWritable

theorem ready_default : Ready {} := ⟨Config.validate_default, Config.isWritable_default⟩

theorem ready_of_ofContent {content : Option String} {c : Config}
    (h : Config.ofContent content = .ok c) : Ready c := by
  cases content with
  | none => cases h
  | some text =>
    obtain ⟨read, valid⟩ := Config.ofContent_some_eq_ok_iff.mp h
    exact ⟨valid, Config.isWritable_of_ofText read⟩

/-- A failure that was provided for. -/
def Failure.IsProvided (f : Failure) : Prop := f.code = 1

namespace Looks

theorem load (path : String) :
    Looks (Config.load path : ExceptT ConfigError Telling Config) Ready (fun _ => True) := by
  intro s t
  rw [runIn_load]
  split
  · cases h : Config.ofContent (t.readText path) with
    | ok c => exact .inl ⟨c, s.events, rfl, ready_of_ofContent h⟩
    | error e => exact .inr ⟨e, s.events, rfl, trivial⟩
  · exact .inr ⟨_, s.events, rfl, trivial⟩

theorem loadFound (found : Option String) :
    Looks (Config.loadFound found : ExceptT ConfigError Telling Config) Ready
      (fun _ => True) := by
  cases found with
  | some path => exact load path
  | none => exact of_pure ready_default

theorem firstPresent (paths : List String) {bad : Failure → Prop} :
    Looks (Config.firstPresent paths : Work (StateM FileTree) (Option String))
      (fun _ => True) bad := by
  induction paths with
  | nil => exact of_pure trivial
  | cons path rest ih =>
    refine isPresent.bind fun present _ => ?_
    split
    · exact of_pure trivial
    · exact ih

theorem currentDirectory :
    Looks (Command.currentDirectory : Work (StateM FileTree) String) (fun _ => True)
      Failure.IsProvided := by
  refine currentDirectory?.bind fun directory _ => ?_
  cases directory with
  | some directory => exact of_pure trivial
  | none => exact of_throw rfl

theorem loadConfig (path : Option String) :
    Looks (Command.loadConfig path : Work (StateM FileTree) Config) Ready Failure.IsProvided := by
  cases path with
  | some path => exact (load path).attempt fun _ _ => rfl
  | none =>
    refine currentDirectory.bind fun place _ => (firstPresent _).bind fun found _ => ?_
    have loaded : Looks (Work.attempt (.config none) (Config.loadFound found)) Ready
        Failure.IsProvided := (loadFound found).attempt fun _ _ => rfl
    cases found with
    | some path => exact (note _).bind fun _ _ => loaded
    | none => exact loaded

theorem boundsOf (c : Config) (rows cols : Option UInt64) :
    Looks (Command.boundsOf c rows cols : Work (StateM FileTree) GridBounds)
      (fun b => b = ⟨rows.getD c.grid.rows, cols.getD c.grid.cols⟩ ∧ b.fits)
      Failure.IsProvided := by
  unfold Command.boundsOf
  dsimp only
  split
  · next fits => exact of_pure ⟨rfl, fits⟩
  · exact of_throw rfl

end Looks

/-! Collecting the rows of all sources. -/

namespace Looks

theorem sourcesOf (path : String) :
    Looks (FeatureRow.sourcesOf path : ExceptT ExtractionError Telling (List String))
      (fun _ => True) (fun _ => True) := by
  refine isDirectory.bind fun directory _ => ?_
  split
  · exact of_pure trivial
  · refine regularFiles.bind fun names _ => ?_
    cases names with
    | none => exact of_throw trivial
    | some names =>
      dsimp only
      split
      · exact of_throw trivial
      · exact of_pure trivial

theorem sources (paths : List String) :
    Looks (FeatureRow.sources paths : ExceptT ExtractionError Telling (List String))
      (fun _ => True) (fun _ => True) := by
  induction paths with
  | nil => exact of_pure trivial
  | cons path rest ih =>
    exact (sourcesOf path).bind fun _ _ => ih.bind fun _ _ => of_pure trivial

theorem ofFile (path : String) :
    Looks (FeatureRow.ofFile path : ExceptT ExtractionError Telling (List FeatureRow))
      (fun _ => True) (fun _ => True) := by
  refine readText.bind fun content _ => ?_
  cases content with
  | none => exact of_throw trivial
  | some source =>
    dsimp only
    split
    · exact of_throw trivial
    · exact of_pure trivial

theorem ofFiles (event : String → List FeatureRow → Event) (paths : List String) :
    Looks (FeatureRow.ofFiles (fun path rows => Work.note (event path rows)) paths :
      ExceptT ExtractionError Telling (List FeatureRow)) (fun _ => True) (fun _ => True) := by
  induction paths with
  | nil => exact of_pure trivial
  | cons path rest ih =>
    exact (ofFile path).bind fun rows _ => (note (event path rows)).bind fun _ _ =>
      ih.bind fun _ _ => of_pure trivial

theorem ofPaths (event : String → List FeatureRow → Event) (paths : List String) :
    Looks (FeatureRow.ofPaths (fun path rows => Work.note (event path rows)) paths :
      ExceptT ExtractionError Telling (List FeatureRow)) (fun _ => True) (fun _ => True) :=
  (sources paths).bind fun found _ => ofFiles event found

end Looks

end CallStudy.Command
