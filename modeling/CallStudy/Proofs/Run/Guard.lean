import CallStudy.Config.Store
import CallStudy.Proofs.Run.Narrated

/-!
What a valid configuration is good for. Validation computes in closed form whether the loops of a
run overflow, so a run of a valid configuration ends with the totals that validation computed, and
a run of another one overflows, single lines of cells with a cut side excepted.
-/

set_option autoImplicit false

namespace CallStudy
namespace Config

theorem validate_eq_ok_iff {c : Config} :
    c.validate = .ok () ↔
      c.gridBounds.fits ∧ (checkedBranchedAccumulate c.branch.x c.branch.y).isSome := by
  unfold validate
  split
  · next large => simp_all
  · next fits => split <;> simp_all [Option.isSome_iff_ne_none]

/-! Loading. -/

/-- The valid configuration in what was read of a file. -/
def ofContent : Option String → Except ConfigError Config
  | none => .error .inaccessible
  | some text => do
    let c ← ofText text
    c.validate.mapError .invalid
    return c

theorem ofContent_some_eq_ok_iff {text : String} {c : Config} :
    ofContent (some text) = .ok c ↔ ofText text = .ok c ∧ c.validate = .ok () := by
  simp only [ofContent, bind_eq_ok_iff, mapError_eq_ok_iff, pure, Except.pure, Except.ok.injEq]
  constructor
  · rintro ⟨d, hd, _, valid, rfl⟩
    exact ⟨hd, valid⟩
  · rintro ⟨hd, valid⟩
    exact ⟨c, hd, (), valid, rfl⟩

theorem validate_of_ofContent {content : Option String} {c : Config}
    (h : ofContent content = .ok c) : c.validate = .ok () := by
  cases content with
  | none => cases h
  | some text => exact (ofContent_some_eq_ok_iff.mp h).2

section Store

variable {m : Type → Type} [Monad m]

@[simp] theorem run_ofExcept {ε α : Type} (work : Except ε α) :
    (MonadExcept.ofExcept work : ExceptT ε m α).run = pure work := by
  cases work <;> rfl

variable [FileAccess m]

@[simp] theorem run_isPresent {ε : Type} (path : String) :
    (FileAccess.isPresent path : ExceptT ε m Bool).run =
      Except.ok <$> (FileAccess.isPresent path : m Bool) := rfl

@[simp] theorem run_readText {ε : Type} (path : String) :
    (FileAccess.readText path : ExceptT ε m (Option String)).run =
      Except.ok <$> (FileAccess.readText path : m (Option String)) := rfl

/-- Loading looks whether the file is there, reads it, and changes nothing by itself. -/
theorem run_load [LawfulMonad m] (path : String) :
    (load path : ExceptT ConfigError m Config).run = do
      if ← FileAccess.isPresent path then return ofContent (← FileAccess.readText path)
      else return .error (.notFound path) := by
  simp only [load, ExceptT.run_bind, run_isPresent, bind_map_left]
  apply bind_congr
  intro present
  cases present with
  | false => simp
  | true =>
    simp only [Bool.not_true, Bool.false_eq_true, ↓reduceIte, ExceptT.run_bind, run_readText,
      bind_map_left]
    apply bind_congr
    intro content
    cases content with
    | none => simp [ofContent]
    | some text =>
      simp only [ofContent, ExceptT.run_bind, run_ofExcept, pure_bind]
      cases ofText text with
      | error _ => rfl
      | ok c =>
        cases valid : c.validate with
        | error _ => simp [valid, Except.mapError, bind, Except.bind]
        | ok _ =>
          simp [valid, Except.mapError, bind, Except.bind, pure, Except.pure]
          rfl

end Store

variable {σ : Type} [FileAccess (StateM σ)]

/-- What a loaded file or, without one, the defaults can return on a file system with state `σ`. -/
inductive Loaded (σ : Type) [FileAccess (StateM σ)] (c : Config) : Prop where
  | file (path : String) (s : σ)
      (h : ((load path : ExceptT ConfigError (StateM σ) Config).run.run s).1 = .ok c)
  | around (place : String) (s : σ)
      (h : ((do loadFound (← find? place) : ExceptT ConfigError (StateM σ) Config).run.run s).1 =
        .ok c)

/-- What a file of a tree is loaded as. -/
def loadIn (t : FileTree) (path : String) : Except ConfigError Config :=
  ((load path : ExceptT ConfigError (StateM FileTree) Config).run.run t).1

theorem exists_loaded {β : Type} {t : FileTree} {path : String} (view : Config → β) {fields : β}
    (h : (loadIn t path).toOption.map view = some fields) :
    ∃ c, Loaded FileTree c ∧ view c = fields := by
  obtain ⟨c, loads, viewed⟩ := Option.map_eq_some_iff.mp h
  exact ⟨c, .file path t (toOption_eq_some_iff.mp loads), viewed⟩

theorem exists_content_of_load {path : String} {s : σ} {c : Config}
    (h : ((load path : ExceptT ConfigError (StateM σ) Config).run.run s).1 = .ok c) :
    ∃ content, ofContent content = .ok c := by
  rw [run_load, StateT.run_bind] at h
  rcases hp : StateT.run (FileAccess.isPresent path : StateM σ Bool) s with ⟨present, s₁⟩
  rw [hp] at h
  cases present with
  | false => cases h
  | true => exact ⟨_, h⟩

/-- What is loaded is what some file holds, or the defaults. -/
theorem Loaded.eq_default_or {c : Config} (loaded : Loaded σ c) :
    c = {} ∨ ∃ content, ofContent content = .ok c := by
  cases loaded with
  | file path s h => exact .inr (exists_content_of_load h)
  | around place s h =>
    rw [ExceptT.run_bind, StateT.run_bind] at h
    rcases hf : StateT.run (ExceptT.run (find? place : ExceptT ConfigError (StateM σ) _)) s with
      ⟨found, s₁⟩
    rw [hf] at h
    cases found with
    | error e => cases h
    | ok found =>
      cases found with
      | none =>
        cases h
        exact .inl rfl
      | some path => exact .inr (exists_content_of_load h)

theorem validate_default : validate {} = .ok () := by decide

theorem Loaded.validate_eq_ok {c : Config} (loaded : Loaded σ c) : c.validate = .ok () := by
  obtain rfl | ⟨content, h⟩ := loaded.eq_default_or
  · exact validate_default
  · exact validate_of_ofContent h

/-- What comes of the run of a configuration that is not valid. -/
theorem run_of_not_valid {c : Config} (invalid : c.validate ≠ .ok ()) :
    if (checkedBranchedAccumulate c.branch.x c.branch.y).isSome ∧ c.gridBounds.IsCutLine then
      ∃ report events, (run c).outcome = .ok (report, events) ∧
        report.grid.total = Int64.maxValue
    else ∃ o : Overflow, (run c).outcome = .error o := by
  rw [ne_eq, validate_eq_ok_iff, not_and'] at invalid
  cases branch : branchedAccumulate c.branch.x c.branch.y with
  | error o =>
    have unchecked : ¬ (checkedBranchedAccumulate c.branch.x c.branch.y).isSome := fun some => by
      obtain ⟨w, hw⟩ := Option.isSome_iff_exists.mp some
      rw [← branchedAccumulate_eq_ok_iff, branch] at hw
      cases hw
    rw [if_neg (unchecked ·.1)]
    exact ⟨o, (run_overflows_of_branch branch).outcome⟩
  | ok result =>
    have checked : (checkedBranchedAccumulate c.branch.x c.branch.y).isSome := by
      rw [branchedAccumulate_eq_ok_iff.mp branch]
      rfl
    split
    · next line =>
      have grid : gridAccumulate c.gridBounds = .ok Int64.maxValue := by
        rw [gridAccumulate_eq_ok_iff, GridBounds.gridTotal_side_of_isCutLine line.2,
          Int64.toInt_maxValue]
        rfl
      exact ⟨_, _, (run_tells branch grid).outcome, rfl⟩
    · next line =>
      have large := GridBounds.le_gridTotal_side (invalid checked) fun cut => line ⟨checked, cut⟩
      cases grid : gridAccumulate c.gridBounds with
      | error o => exact ⟨o, (run_overflows_of_grid branch grid).outcome⟩
      | ok total =>
        have value := gridAccumulate_eq_ok_iff.mp grid
        have top := Int64.toInt_lt total
        omega

theorem run_eq_reportOf {c : Config} (valid : c.validate = .ok ()) :
    ∃ result total, (run c).outcome = .ok (reportOf c result total, storyOf c result total) ∧
      checkedBranchedAccumulate c.branch.x c.branch.y = some result ∧
      gridClosedForm c.gridBounds = some total := by
  obtain ⟨fits, checked⟩ := validate_eq_ok_iff.mp valid
  obtain ⟨result, hr⟩ := Option.isSome_iff_exists.mp checked
  obtain ⟨total, ht⟩ := Option.isSome_iff_exists.mp fits
  have branch := branchedAccumulate_eq_ok_iff.mpr hr
  have grid := gridAccumulate_of_closedForm ht
  exact ⟨result, total, (run_tells branch grid).outcome, hr, ht⟩

theorem run_of_valid {c : Config} (valid : c.validate = .ok ()) :
    ∃ report events, (run c).outcome = .ok (report, events) ∧
      checkedBranchedAccumulate c.branch.x c.branch.y = some report.branch.result ∧
      gridClosedForm c.gridBounds = some report.grid.total := by
  obtain ⟨result, total, told, hr, ht⟩ := run_eq_reportOf valid
  exact ⟨_, _, told, hr, ht⟩

/-- Validation is exactly the overflow guard of a run: a valid configuration runs to the totals of
the closed forms, one that is not valid overflows unless its grid is a cut line, and whatever is
loaded is valid. -/
theorem validate_guards_run (c : Config) :
    (c.validate = .ok () → ∃ report events, (run c).outcome = .ok (report, events) ∧
      checkedBranchedAccumulate c.branch.x c.branch.y = some report.branch.result ∧
      gridClosedForm c.gridBounds = some report.grid.total) ∧
    (∀ reason, c.validate = .error reason →
      if (checkedBranchedAccumulate c.branch.x c.branch.y).isSome ∧ c.gridBounds.IsCutLine then
        ∃ report events, (run c).outcome = .ok (report, events) ∧
          report.grid.total = Int64.maxValue
      else ∃ o : Overflow, (run c).outcome = .error o) ∧
    ∀ (σ : Type) [FileAccess (StateM σ)], Loaded σ c →
      c.validate = .ok () ∧ ∃ report events, (run c).outcome = .ok (report, events) := by
  refine ⟨run_of_valid, fun reason invalid => run_of_not_valid fun valid => ?_,
    fun σ _ loaded => ?_⟩
  · rw [invalid] at valid
    cases valid
  have valid := loaded.validate_eq_ok
  obtain ⟨report, events, told, -⟩ := run_of_valid valid
  exact ⟨valid, report, events, told⟩

theorem validate_guards_run_cases :
    (∃ report events, (run {}).outcome = .ok (report, events) ∧
      checkedBranchedAccumulate 5 10 = some report.branch.result ∧
      gridClosedForm (.square defaultGridSide) = some report.grid.total) ∧
    (∃ o : Overflow, (run { branch := ⟨Int64.maxValue, 1⟩ }).outcome = .error o) ∧
    (∃ report events, (run { grid := ⟨1, 9223372036854775808⟩ }).outcome = .ok (report, events) ∧
      report.grid.total = Int64.maxValue) ∧
    ∃ c : Config, (c.grid.rows, c.grid.cols, c.branch.x, c.branch.y) = (6, 7, -3, 10) ∧
      Loaded FileTree c ∧ c.validate = .ok () ∧
      ∃ report events, (run c).outcome = .ok (report, events) := by
  refine ⟨(validate_guards_run {}).1 validate_default, ?_, ?_, ?_⟩
  · have told := (validate_guards_run { branch := ⟨Int64.maxValue, 1⟩ }).2.1
      (.branch Int64.maxValue 1) (by decide)
    rwa [if_neg (by decide)] at told
  · have told := (validate_guards_run { grid := ⟨1, 9223372036854775808⟩ }).2.1
      (.grid ⟨1, 9223372036854775808⟩) (by decide)
    have line : GridBounds.IsCutLine ⟨1, 9223372036854775808⟩ := .inl ⟨rfl, Nat.le_refl _⟩
    rwa [if_pos ⟨by decide, line⟩] at told
  · let t : FileTree :=
      { root := .directory
          [("a.toml", .file "[grid]\nrows = 6\ncols = 7\n\n[branch]\nx = -3\n".toUTF8)] }
    obtain ⟨c, loaded, fields⟩ := exists_loaded
      (fun c => (c.grid.rows, c.grid.cols, c.branch.x, c.branch.y))
      (show (loadIn t "a.toml").toOption.map _ = some (6, 7, -3, 10) by decide +kernel)
    exact ⟨c, fields, loaded, (validate_guards_run c).2.2 FileTree loaded⟩

end Config

end CallStudy
