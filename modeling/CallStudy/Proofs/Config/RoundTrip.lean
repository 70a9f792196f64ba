import CallStudy.Proofs.Config.Loaded
import CallStudy.Proofs.Config.Written
import CallStudy.Proofs.Files.Tree

/-!
Saving a configuration and loading it again. The text of a configuration reads back as the same
one, and a file that was written holds what was written, so a valid configuration survives the way
through a file wherever a file can be written.
-/

set_option autoImplicit false

namespace CallStudy

open FileTree

/-! Access to a tree of files. -/

theorem run_isPresent_tree (path : String) (t : FileTree) :
    StateT.run (FileAccess.isPresent path : StateM FileTree Bool) t =
      ((t.find path).isSome, t) := rfl

theorem run_writeText_tree {path text : String} {t t' : FileTree}
    (h : t.write path text.toUTF8 = some t') :
    StateT.run (FileAccess.writeText path text : StateM FileTree Bool) t = (true, t') := by
  simp only [FileAccess.writeText, StateT.run_bind, StateT.run_get, pure_bind, h]
  rfl

namespace Config

theorem isSome_ofInt?_toNat {n : Nat} : (Word.ofInt? n).isSome ↔ n < 2 ^ 63 := by
  rw [Word.isSome_ofInt?_iff]
  omega

theorem isWritable_iff_lt {c : Config} :
    c.isWritable ↔ c.grid.rows.toNat < 2 ^ 63 ∧ c.grid.cols.toNat < 2 ^ 63 := by
  rw [isWritable_iff, GridConfig.IsWritable, isSome_ofInt?_toNat, isSome_ofInt?_toNat]

section Save

variable {m : Type → Type} [Monad m] [FileAccess m]

/-- Saving touches nothing when there is no text to write. -/
theorem run_save_of_not_writable {c : Config} (unwritable : ¬ c.isWritable) (path : String) :
    (save c path : ExceptT ConfigError m Unit).run = pure (.error .unwritable) := by
  rw [save, written?, if_neg unwritable]
  rfl

theorem run_save [LawfulMonad m] {c : Config} {text : String} (written : c.written? = some text)
    (path : String) :
    (save c path : ExceptT ConfigError m Unit).run = do
      if ← FileAccess.writeText path text then return .ok () else return .error .inaccessible := by
  have write : (FileAccess.writeText path text : ExceptT ConfigError m Bool).run =
      Except.ok <$> (FileAccess.writeText path text : m Bool) := rfl
  rw [save, written]
  simp only [ExceptT.run_bind, write, bind_map_left]
  apply bind_congr
  intro done
  cases done <;> rfl

end Save

theorem save_tree {c : Config} {text path : String} (written : c.written? = some text)
    {t t' : FileTree} (h : t.write path text.toUTF8 = some t') :
    (save c path : ExceptT ConfigError (StateM FileTree) Unit).run.run t = (.ok (), t') := by
  rw [run_save written, StateT.run_bind, run_writeText_tree h]
  rfl

theorem load_tree {text path : String} {t : FileTree} (present : (t.find path).isSome)
    (read : t.readText path = some text) :
    (load path : ExceptT ConfigError (StateM FileTree) Config).run.run t =
      (ofContent (some text), t) := by
  rw [run_load, StateT.run_bind, run_isPresent_tree, present, ← read]
  rfl

/-- A configuration with a text that is written wherever a file can be written. It is loaded from
there as it was, and saving it once more changes nothing. -/
def RoundTrips (c : Config) : Prop :=
  ∃ text, c.written? = some text ∧
    ∀ (t : FileTree) (path : String) (content : ByteArray), (t.write path content).isSome →
      ∃ t' : FileTree,
        (save c path : ExceptT ConfigError (StateM FileTree) Unit).run.run t = (.ok (), t') ∧
        t'.readText path = some text ∧
        (load path : ExceptT ConfigError (StateM FileTree) Config).run.run t' = (.ok c, t') ∧
        (save c path : ExceptT ConfigError (StateM FileTree) Unit).run.run t' = (.ok (), t')

theorem roundTrips_of_isWritable {c : Config} (valid : c.validate = .ok ())
    (writable : c.isWritable) : c.RoundTrips := by
  obtain ⟨text, written⟩ : ∃ text, c.written? = some text := ⟨_, if_pos writable⟩
  refine ⟨text, written, fun t path content possible => ?_⟩
  obtain ⟨_, h⟩ := Option.isSome_iff_exists.mp possible
  obtain ⟨place, name, leads, -⟩ := write_eq_some_iff.mp h
  have wrote := write_eq_some_iff.mpr
    ⟨place, name, leads, (rfl : t.withFile (place ++ [name]) text.toUTF8 = _)⟩
  obtain ⟨present, read, again⟩ := readText_of_write wrote
  refine ⟨_, save_tree written wrote, read, ?_, save_tree written again⟩
  rw [load_tree present read, ofContent_some_eq_ok_iff.mpr ⟨ofText_of_written? written, valid⟩]

/-- Saving and loading is a round trip for valid configurations with sides that fit in a signed
word, all that was ever loaded among them. Others are refused before anything is touched. Reals are
equal here when their bits are, with a single real that is no number. -/
theorem save_load_round_trip (c : Config) :
    (c.validate = .ok () → c.grid.rows.toNat < 2 ^ 63 → c.grid.cols.toNat < 2 ^ 63 →
      c.RoundTrips) ∧
    (2 ^ 63 ≤ c.grid.rows.toNat ∨ 2 ^ 63 ≤ c.grid.cols.toNat →
      ∀ (m : Type → Type) [Monad m] [FileAccess m] (path : String),
        (save c path : ExceptT ConfigError m Unit).run = pure (.error .unwritable)) ∧
    ∀ (σ : Type) [FileAccess (StateM σ)], Loaded σ c → c.RoundTrips := by
  refine ⟨fun valid rows cols => ?_, fun long m _ _ path => ?_, fun σ _ loaded => ?_⟩
  · exact roundTrips_of_isWritable valid (isWritable_iff_lt.mpr ⟨rows, cols⟩)
  · refine run_save_of_not_writable (fun writable => ?_) path
    obtain ⟨rows, cols⟩ := isWritable_iff_lt.mp writable
    omega
  · exact roundTrips_of_isWritable loaded.validate_eq_ok loaded.isWritable

/-- Reals that compare oddly and a name that has to be quoted with care. -/
def delicate : Config :=
  { moments := ⟨[-0.0, 1 / 0, -1 / 0]⟩
    features := { format := .json, output := some "a \"b\" 'c'\n\t\\" } }

theorem save_load_round_trip_cases :
    (∃ text t', (save delicate "a" : ExceptT ConfigError (StateM FileTree) Unit).run.run {} =
        (.ok (), t') ∧ t'.readText "a" = some text ∧
      (load "a" : ExceptT ConfigError (StateM FileTree) Config).run.run t' =
        (.ok delicate, t')) ∧
    (save { grid := ⟨0, 9223372036854775808⟩ } "a" :
      ExceptT ConfigError (StateM FileTree) Unit).run = pure (.error .unwritable) ∧
    ∃ c : Config, (c.grid.rows, c.moments.samples.length, c.features.output) =
        (6, 2, some "a \"b\"") ∧ Loaded FileTree c ∧ RoundTrips c := by
  have steps : Path.steps "a" = ["a"] := by simp [Path.steps, Path.pieces]
  have leads : LeadsTo {} "a" [] "a" :=
    { isFileName := by decide +kernel
      last := by rw [steps]; rfl
      around := by rw [steps]; simp [start]
      directory := ⟨[], rfl⟩
      free := by rintro _ ⟨⟩ }
  have possible : (FileTree.write {} "a" .empty).isSome :=
    Option.isSome_iff_exists.mpr ⟨_, write_eq_some_iff.mpr ⟨[], "a", leads, rfl⟩⟩
  refine ⟨?_, ?_, ?_⟩
  · obtain ⟨text, -, writes⟩ :=
      (save_load_round_trip delicate).1 (by decide) (by decide) (by decide)
    obtain ⟨t', saved, read, loaded, -⟩ := writes {} "a" .empty possible
    exact ⟨text, t', saved, read, loaded⟩
  · exact (save_load_round_trip { grid := ⟨0, 9223372036854775808⟩ }).2.1
      (.inr (Nat.le_refl _)) (StateM FileTree) "a"
  · let t : FileTree :=
      { root := .directory [("a.toml", .file ("[grid]\nrows = 6\n[moments]\n" ++
          "samples = [-0.0, inf]\n[features]\noutput = 'a \"b\"'\n").toUTF8)] }
    obtain ⟨c, loaded, fields⟩ := exists_loaded
      (fun c => (c.grid.rows, c.moments.samples.length, c.features.output))
      (show (loadIn t "a.toml").toOption.map _ = some (6, 2, some "a \"b\"") by decide +kernel)
    exact ⟨c, fields, loaded, (save_load_round_trip c).2.2 FileTree loaded⟩

end Config
end CallStudy
