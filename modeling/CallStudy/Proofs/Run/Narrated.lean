import CallStudy.Run.Demonstration
import CallStudy.Proofs.Workload.Sums

/-!
What a run tells. Narrated work only ever adds events at the end, so a run's story is its parts'
stories in a row, and work that overflows overflows whatever was told before it.
-/

set_option autoImplicit false

namespace CallStudy

namespace Narration

variable {α β : Type}

/-- The work returns `value` and tells `events`, whatever was told before. -/
def Tells (work : Narration α) (value : α) (events : List Event) : Prop :=
  ∀ told : Array Event, StateT.run work told = .ok (value, told ++ events)

/-- The work overflows, whatever was told before. -/
def Overflows (work : Narration α) (o : Overflow) : Prop :=
  ∀ told : Array Event, StateT.run work told = .error o

theorem tells_pure (value : α) : Tells (pure value) value [] := by
  intro told
  simp [pure, StateT.pure, StateT.run, Except.pure]

theorem tells_tell (e : Event) : Tells (tell e) () [e] := by
  intro told
  simp [tell, modify, modifyGet, MonadStateOf.modifyGet, StateT.modifyGet, StateT.run, pure,
    Except.pure]

theorem tells_lift {work : Except Overflow α} {value : α} (h : work = .ok value) :
    Tells (liftM work) value [] := by
  intro told
  subst h
  simp [liftM, monadLift, MonadLift.monadLift, StateT.lift, StateT.run, bind, Except.bind, pure,
    Except.pure]

theorem overflows_lift {work : Except Overflow α} {o : Overflow} (h : work = .error o) :
    Overflows (liftM work) o := by
  intro told
  subst h
  rfl

theorem Tells.bind {work : Narration α} {next : α → Narration β} {a : α} {b : β}
    {first second : List Event} (hw : Tells work a first) (hn : Tells (next a) b second) :
    Tells (work >>= next) b (first ++ second) := by
  intro told
  have joined : told ++ first ++ second = told ++ (first ++ second) := Array.ext' (by simp)
  rw [StateT.run_bind, hw told, ← joined]
  exact hn (told ++ first)

theorem Overflows.bind {work : Narration α} {o : Overflow} (hw : Overflows work o)
    (next : α → Narration β) : Overflows (work >>= next) o := by
  intro told
  rw [StateT.run_bind, hw told]
  rfl

theorem Tells.bind_overflows {work : Narration α} {next : α → Narration β} {a : α}
    {events : List Event} {o : Overflow} (hw : Tells work a events) (hn : Overflows (next a) o) :
    Overflows (work >>= next) o := by
  intro told
  rw [StateT.run_bind, hw told]
  exact hn (told ++ events)

theorem Tells.outcome {work : Narration α} {value : α} {events : List Event}
    (h : Tells work value events) : work.outcome = .ok (value, events) := by
  rw [Narration.outcome, h]
  simp [Except.map]

theorem Overflows.outcome {work : Narration α} {o : Overflow} (h : Overflows work o) :
    work.outcome = .error o := by
  rw [Narration.outcome, h]
  rfl

end Narration

open Narration

theorem runBranch_tells {x y result : Int64} (h : branchedAccumulate x y = .ok result) :
    Tells (runBranch x y) ⟨x, y, result⟩ [.branched ⟨x, y, result⟩] :=
  (tells_lift h).bind ((tells_tell _).bind (tells_pure _))

theorem runBranch_overflows {x y : Int64} {o : Overflow}
    (h : branchedAccumulate x y = .error o) : Overflows (runBranch x y) o :=
  (overflows_lift h).bind _

/-- The results of the chain of calls. -/
def chainResults : CallChain := ⟨21, 41, 125⟩

def chainEvents : List Event := [.chainCalled, .chainFormed 21 41, .chainEnded 125]

theorem runChain_tells : Tells runChain chainResults chainEvents :=
  (tells_tell _).bind ((tells_lift callChain_eq).bind
    ((tells_tell _).bind ((tells_tell _).bind (tells_pure _))))

theorem sumsWith_tells (data : List Float) (sum squares : Float) :
    Tells (sumsWith (fun x => tell (.sampleSeen x)) data sum squares)
      (Id.run (sumsWith (fun _ => pure ()) data sum squares)) (data.map .sampleSeen) := by
  induction data generalizing sum squares with
  | nil => exact tells_pure _
  | cons x rest ih => exact (tells_tell _).bind (ih _ _)

/-- Showing the samples changes nothing about the variance. -/
theorem populationVarianceWith_tells (data : List Float) :
    Tells (populationVarianceWith (fun x => tell (.sampleSeen x)) data) (populationVariance data)
      (data.map .sampleSeen) := by
  unfold populationVariance populationVarianceWith
  cases data with
  | nil => exact tells_pure _
  | cons x rest =>
    rw [← List.append_nil (List.map _ _)]
    exact (sumsWith_tells (x :: rest) 0.0 0.0).bind (tells_pure _)

def varianceOutcome (samples : List Float) : VarianceOutcome :=
  ⟨samples.length, mean samples, populationVariance samples⟩

theorem runVariance_tells (samples : List Float) :
    Tells (runVariance samples) (varianceOutcome samples)
      (samples.map .sampleSeen ++ [.varied (varianceOutcome samples)]) :=
  (populationVarianceWith_tells samples).bind ((tells_tell _).bind (tells_pure _))

theorem runGrid_tells {bounds : GridBounds} {total : Int64}
    (h : gridAccumulate bounds = .ok total) :
    Tells (runGrid bounds) ⟨bounds, total⟩ [.accumulated ⟨bounds, total⟩] :=
  (tells_lift h).bind ((tells_tell _).bind (tells_pure _))

theorem runGrid_overflows {bounds : GridBounds} {o : Overflow}
    (h : gridAccumulate bounds = .error o) : Overflows (runGrid bounds) o :=
  (overflows_lift h).bind _

/-- A scaled value is told of once more when it is large. -/
def scaleEvents {α : Type} [Scalable α] (value : α) : List Event :=
  .scaled (Scalable.typeName α) (Scalable.display (scaleValue value).unscaled)
      (Scalable.display (scaleValue value).processed) ::
    if (scaleValue value).isLarge then [.foundLarge] else []

theorem runScale_tells {α : Type} [Scalable α] (value : α) :
    Tells (runScale value) (scaleOutcome value) (scaleEvents value) := by
  unfold runScale scaleEvents
  refine (tells_tell _).bind (show Tells _ _ (if (scaleValue value).isLarge then _ else []) from ?_)
  cases (scaleValue value).isLarge with
  | true => exact (tells_tell _).bind (tells_pure _)
  | false => exact tells_pure _

/-- The report of a run whose branched sum and grid have these results. -/
def reportOf (c : Config) (result total : Int64) : Report where
  branch := ⟨c.branch.x, c.branch.y, result⟩
  chain := chainResults
  variance := varianceOutcome c.moments.samples
  grid := ⟨c.gridBounds, total⟩
  scaled := [scaleOutcome c.scaler.intValue, scaleOutcome c.scaler.doubleValue,
    scaleOutcome c.scaler.floatValue, scaleOutcome c.scaler.shortValue]

/-- The story of such a run, in order. -/
def storyOf (c : Config) (result total : Int64) : List Event :=
  List.flatten
    [[.started], [.branched ⟨c.branch.x, c.branch.y, result⟩], chainEvents,
      c.moments.samples.map .sampleSeen ++ [.varied (varianceOutcome c.moments.samples)],
      [.accumulated ⟨c.gridBounds, total⟩], scaleEvents c.scaler.intValue,
      scaleEvents c.scaler.doubleValue, scaleEvents c.scaler.floatValue,
      scaleEvents c.scaler.shortValue, [.standaloneCalled], [.finished]]

theorem run_tells {c : Config} {result total : Int64}
    (branch : branchedAccumulate c.branch.x c.branch.y = .ok result)
    (grid : gridAccumulate c.gridBounds = .ok total) :
    Tells (run c) (reportOf c result total) (storyOf c result total) := by
  apply (tells_tell .started).bind
  apply (runBranch_tells branch).bind
  apply runChain_tells.bind
  apply (runVariance_tells c.moments.samples).bind
  apply (runGrid_tells grid).bind
  apply (runScale_tells c.scaler.intValue).bind
  apply (runScale_tells c.scaler.doubleValue).bind
  apply (runScale_tells c.scaler.floatValue).bind
  apply (runScale_tells c.scaler.shortValue).bind
  apply (tells_tell .standaloneCalled).bind
  apply (tells_tell .finished).bind
  exact tells_pure _

theorem run_overflows_of_branch {c : Config} {o : Overflow}
    (branch : branchedAccumulate c.branch.x c.branch.y = .error o) : Overflows (run c) o :=
  (tells_tell .started).bind_overflows ((runBranch_overflows branch).bind _)

theorem run_overflows_of_grid {c : Config} {result : Int64} {o : Overflow}
    (branch : branchedAccumulate c.branch.x c.branch.y = .ok result)
    (grid : gridAccumulate c.gridBounds = .error o) : Overflows (run c) o :=
  (tells_tell .started).bind_overflows ((runBranch_tells branch).bind_overflows
    (runChain_tells.bind_overflows ((runVariance_tells c.moments.samples).bind_overflows
      ((runGrid_overflows grid).bind _))))

end CallStudy
