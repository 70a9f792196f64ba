import CallStudy.Proofs.Command.Work
import CallStudy.Proofs.Workload.Visited

/-!
Every cell of a pass is visited once, row by row, and a pass of increments over a grid that fits
visits as many cells as are counted for it. So a benchmark, which passes over no other grid, always
has their number.
-/

set_option autoImplicit false

namespace CallStudy

open Command Command.Work GridBounds

section Pass

variable {σ ε : Type}

/-- How a pass ends and what it calls on the way. -/
theorem passes_gridAccumulateWith (b : GridBounds) (cell : Int64 → CellWork σ ε Int64) (s : σ) :
    ∃ ending calls s', endFrom (gridAccumulateWith b cell) s = (ending, s') ∧
      endFrom (gridAccumulateWith b (noted cell)) ({}, s) = (ending, calls, s') ∧
      Passes cell s (products (side b.rows) (side b.cols)) ending calls s' := by
  rw [gridAccumulateWith_eq_foldlM, gridAccumulateWith_eq_foldlM]
  exact passes_foldlM .start rfl _

/-- A pass of increments over a grid that fits calls them for every cell that is counted. -/
theorem exists_calls_of_fits {b : GridBounds} (fits : b.fits) :
    ∃ n total calls, b.cells = some n ∧ n.toNat < 2 ^ 63 ∧
      endFrom (gridAccumulateWith b (noted (incremented : Int64 → CellWork Unit Empty Int64)))
        ({}, ()) = (.ok (.ok total), calls, ()) ∧
      calls.arguments.length = n.toNat ∧ gridAccumulate b = .ok total := by
  obtain ⟨n, cells, count, small⟩ := cells_of_fits fits
  have word : incrementSum (products (side b.rows) (side b.cols)) < 2 ^ 63 := by
    rw [incrementSum_products, gridTotal_side_of_fits fits]
    exact fits_iff.mp fits
  obtain ⟨ending, calls, s', -, note, passes⟩ :=
    passes_gridAccumulateWith b (incremented : Int64 → CellWork Unit Empty Int64) ()
  cases passes with
  | @whole total _ _ visits sum =>
    refine ⟨n, total, calls, cells, small, note, ?_, ?_⟩
    · rw [visits.length_arguments, length_products, count]
    · rw [gridAccumulate_eq_ok_iff, sum, visits.total_incremented, incrementSum_products]
  | short parts stops => exact absurd stops (not_stops_incremented word parts)

end Pass

section Bench

variable {m : Type → Type} [Monad m] [LawfulMonad m]

theorem run_writeLine_bind (text : String) (next : Unit → Work m Unit) (t : Transcript) :
    (writeLine text >>= next : Work m Unit).run.run t =
      (next ()).run.run { t with output := t.output ++ (text ++ "\n") } := by
  have line : (writeLine text : Work m Unit).run.run t =
      pure (.ok (), { t with output := t.output ++ (text ++ "\n") }) := by
    change StateT.run (Except.ok <$> (modify _ : StateT Transcript m Unit)) t = _
    rw [StateT.run_map, StateT.run_modify, map_pure]
  rw [ExceptT.run_bind, StateT.run_bind, line, pure_bind]

/-- A benchmark fails only where there is nothing to time or the grid is too large. -/
theorem run_bench [FileAccess m] (c : Config) (iterations : UInt64) (rows cols : Option UInt64)
    (t : Transcript) :
    ∃ t', (bench c iterations rows cols : Work m Unit).run.run t =
      pure (let bounds : GridBounds := ⟨rows.getD c.grid.rows, cols.getD c.grid.cols⟩
        if iterations = 0 then .error .noIterations
        else if bounds.fits then .ok () else .error (.tooLarge bounds), t') := by
  dsimp only
  unfold bench boundsOf
  split
  · exact ⟨t, by simp⟩
  · dsimp only
    split
    · next fits =>
      obtain ⟨n, cells, -, -⟩ := cells_of_fits fits
      simp only [cells, timePasses_of_fits fits, pure_bind, run_writeLine_bind]
      exact ⟨_, rfl⟩
    · exact ⟨t, by simp⟩

end Bench

/-- Whatever the work at a cell is, a pass gives it the products of the indices row by row and
returns the exact sum of what it returns, or it stops at one of them. Over a grid that fits,
increments are called as often as there are cells, so a benchmark never fails to count them. -/
theorem pass_visits_each_cell_once {m : Type → Type} [Monad m] [LawfulMonad m] [FileAccess m] :
    (∀ (σ ε : Type) (b : GridBounds) (cell : Int64 → CellWork σ ε Int64) (s : σ),
      ∃ ending calls s', endFrom (gridAccumulateWith b cell) s = (ending, s') ∧
        endFrom (gridAccumulateWith b (noted cell)) ({}, s) = (ending, calls, s') ∧
        ((∃ total, ending = .ok (.ok total) ∧
          Visits cell s (products (side b.rows) (side b.cols)) calls s' ∧
          calls.arguments.map Int64.toInt =
            (products (side b.rows) (side b.cols)).map Int.ofNat ∧
          calls.values.length = calls.arguments.length ∧
          total.toInt = (calls.values.map Int64.toInt).sum) ∨
        (∀ total, ending ≠ .ok (.ok total)) ∧
          ∃ done n rest, products (side b.rows) (side b.cols) = done ++ n :: rest ∧
            Stops cell s done n ending calls s' ∧
            calls.arguments.map Int64.toInt <+: (done ++ [n]).map Int.ofNat)) ∧
    (∀ b : GridBounds, b.fits → ∃ n total calls, b.cells = some n ∧ n.toNat < 2 ^ 63 ∧
      endFrom (gridAccumulateWith b (noted (incremented : Int64 → CellWork Unit Empty Int64)))
        ({}, ()) = (.ok (.ok total), calls, ()) ∧
      calls.arguments.length = n.toNat ∧ gridAccumulate b = .ok total) ∧
    ∀ (c : Config) (iterations : UInt64) (rows cols : Option UInt64) (t : Transcript),
      ∃ result t', (bench c iterations rows cols : Work m Unit).run.run t = pure (result, t') ∧
        result ≠ .error .uncountable := by
  refine ⟨fun σ ε b cell s => ?_, fun b fits => exists_calls_of_fits fits,
    fun c iterations rows cols t => ?_⟩
  · obtain ⟨ending, calls, s', raw, note, passes⟩ := passes_gridAccumulateWith b cell s
    refine ⟨ending, calls, s', raw, note, ?_⟩
    cases passes with
    | @whole total _ _ visits sum =>
      refine .inl ⟨total, rfl, visits, visits.map_arguments, ?_, sum⟩
      rw [visits.length_values, visits.length_arguments]
    | @short done rest n _ _ _ parts stops =>
      exact .inr ⟨stops.not_value, done, n, rest, parts, stops, stops.map_arguments⟩
  · obtain ⟨t', ran⟩ := run_bench (m := m) c iterations rows cols t
    refine ⟨_, t', ran, ?_⟩
    dsimp only
    split_ifs <;> nofun

theorem pass_visits_each_cell_once_of_two_by_three : (GridBounds.mk 2 3).fits ∧
    (GridBounds.mk 2 3).cells = some 6 ∧ gridAccumulate (GridBounds.mk 2 3) = .ok 9 ∧
    ∃ calls, endFrom (gridAccumulateWith (GridBounds.mk 2 3)
      (noted (incremented : Int64 → CellWork Unit Empty Int64))) ({}, ()) =
        (.ok (.ok 9), calls, ()) ∧ calls.arguments.length = 6 := by
  have fits : (GridBounds.mk 2 3).fits := by decide
  obtain ⟨n, total, calls, cells, small, ran, count, sum⟩ :=
    (pass_visits_each_cell_once (m := StateM FileTree)).2.1 (GridBounds.mk 2 3) fits
  have six : (GridBounds.mk 2 3).cells = some 6 := by decide
  have nine : gridAccumulate (GridBounds.mk 2 3) = .ok 9 := by decide
  obtain rfl : n = 6 := Option.some.inj (cells.symm.trans six)
  obtain rfl : total = 9 := Except.ok.inj (sum.symm.trans nine)
  exact ⟨fits, six, nine, calls, ran, count⟩

end CallStudy
