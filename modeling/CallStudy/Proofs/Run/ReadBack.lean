import CallStudy.Proofs.Run.Guard
import CallStudy.Proofs.Run.Report
import CallStudy.Proofs.Workload.Moments
import CallStudy.Proofs.Workload.Scale

/-!
Which runs have a report that reads back. Results that overflow have no JSON form: a scaled value
overflows from a bound of its type on, and the moments may where the squares of the samples do.
-/

set_option autoImplicit false

namespace CallStudy

open Binary Narration

/-- The real is written as a number. -/
def IsNumeric (x : Float) : Prop := Json.isNumeral (Json.compact (.real x)).toList

instance (x : Float) : Decidable (IsNumeric x) := inferInstanceAs (Decidable (_ = true))

theorem isNumeric_iff {x : Float} : IsNumeric x ↔ x.isFinite := Json.isNumeral_double_iff x

/-- Reports that differ in reals only. -/
structure Report.Agrees (a b : Report) : Prop where
  branch : a.branch = b.branch
  chain : a.chain = b.chain
  samples : a.variance.samples = b.variance.samples
  grid : a.grid = b.grid
  scaled : a.scaled.map (fun o => (o.typeName, o.isLarge)) =
    b.scaled.map fun o => (o.typeName, o.isLarge)

theorem Report.Agrees.refl (r : Report) : r.Agrees r := ⟨rfl, rfl, rfl, rfl, rfl⟩

/-- The real inputs are finite. -/
structure Config.IsFinite (c : Config) : Prop where
  samples : ∀ x ∈ c.moments.samples, x.isFinite
  doubleValue : c.scaler.doubleValue.isFinite
  floatValue : c.scaler.floatValue.isFinite

/-- The bounds below which the reals of a configuration are scaled within the range of their types,
by the name of the type. -/
structure Config.KeepsRange (c : Config) (typeName : String) : Prop where
  double : typeName = "f64" → |value c.scaler.doubleValue| < 2 ^ 1023
  single : typeName = "f32" → |valueSingle c.scaler.floatValue| < 3 * 2 ^ 126

namespace Config.KeepsRange

variable {c : Config}

theorem of_ne {typeName : String} (double : typeName ≠ "f64") (single : typeName ≠ "f32") :
    c.KeepsRange typeName := ⟨fun same => absurd same double, fun same => absurd same single⟩

theorem double_iff : c.KeepsRange "f64" ↔ |value c.scaler.doubleValue| < 2 ^ 1023 :=
  ⟨fun keeps => keeps.double rfl, fun small => ⟨fun _ => small, fun same => absurd same (by decide)⟩⟩

theorem single_iff : c.KeepsRange "f32" ↔ |valueSingle c.scaler.floatValue| < 3 * 2 ^ 126 :=
  ⟨fun keeps => keeps.single rfl, fun small => ⟨fun same => absurd same (by decide), fun _ => small⟩⟩

end Config.KeepsRange

/-! Scaled values. -/

theorem isFinite_of_int32 (n : Int32) : (Float.ofInt n.toInt).isFinite := by
  have low := n.le_toInt
  have high := n.toInt_lt
  exact isFinite_ofInt (by omega)

theorem isFinite_of_int16 (n : Int16) : (Float.ofInt n.toInt).isFinite := by
  have low := n.le_toInt
  have high := n.toInt_lt
  exact isFinite_ofInt (by omega)

theorem scaled_reportOf {c : Config} (finite : c.IsFinite) (result total : Int64) :
    ∀ o ∈ (reportOf c result total).scaled,
      o.unscaled.isFinite ∧ (o.processed.isFinite ↔ c.KeepsRange o.typeName) := by
  simp only [reportOf, List.forall_mem_cons]
  refine ⟨⟨isFinite_of_int32 _, ?_⟩, ⟨finite.doubleValue, ?_⟩,
    ⟨(isFinite_widen_iff _).mpr finite.floatValue, ?_⟩, ⟨isFinite_of_int16 _, ?_⟩,
    List.forall_mem_nil _⟩
  · have keeps : c.KeepsRange "i32" := .of_ne (by decide) (by decide)
    exact iff_of_true (isFinite_of_int32 _) keeps
  · exact (isFinite_scaled_iff finite.doubleValue).trans Config.KeepsRange.double_iff.symm
  · have scaled := isFinite_scaled_single_iff finite.floatValue
    exact (isFinite_widen_iff _).trans (scaled.trans Config.KeepsRange.single_iff.symm)
  · have keeps : c.KeepsRange "i16" := .of_ne (by decide) (by decide)
    exact iff_of_true (isFinite_of_int16 _) keeps

theorem forall_keepsRange_iff {c : Config} (result total : Int64) :
    (∀ o ∈ (reportOf c result total).scaled, c.KeepsRange o.typeName) ↔
      |value c.scaler.doubleValue| < 2 ^ 1023 ∧
        |valueSingle c.scaler.floatValue| < 3 * 2 ^ 126 := by
  constructor
  · intro each
    have double := each (scaleOutcome c.scaler.doubleValue) (by simp [reportOf])
    have single := each (scaleOutcome c.scaler.floatValue) (by simp [reportOf])
    exact ⟨double.double rfl, single.single rfl⟩
  · intro bounds o _
    exact ⟨fun _ => bounds.1, fun _ => bounds.2⟩

theorem Report.forall_reals_iff {r : Report} :
    (∀ x ∈ r.reals, x.isFinite) ↔
      r.variance.mean.isFinite ∧ r.variance.variance.isFinite ∧
        ∀ o ∈ r.scaled, o.unscaled.isFinite ∧ o.processed.isFinite := by
  simp only [reals, VarianceOutcome.reals, ScaleOutcome.reals, List.forall_mem_append,
    List.forall_mem_cons, List.forall_mem_flatMap]
  simp [and_assoc]

theorem forall_reals_reportOf_iff {c : Config} (finite : c.IsFinite) (result total : Int64) :
    (∀ x ∈ (reportOf c result total).reals, x.isFinite) ↔
      (mean c.moments.samples).isFinite ∧ (populationVariance c.moments.samples).isFinite ∧
        |value c.scaler.doubleValue| < 2 ^ 1023 ∧
        |valueSingle c.scaler.floatValue| < 3 * 2 ^ 126 := by
  have scaled := scaled_reportOf finite result total
  rw [Report.forall_reals_iff, ← forall_keepsRange_iff result total]
  have each : (∀ o ∈ (reportOf c result total).scaled, o.unscaled.isFinite ∧ o.processed.isFinite) ↔
      ∀ o ∈ (reportOf c result total).scaled, c.KeepsRange o.typeName := by
    refine forall₂_congr fun o mem => ?_
    rw [(scaled o mem).2]
    exact and_iff_right (scaled o mem).1
  rw [each]
  rfl

/-- The run of a valid configuration with finite reals has a report that reads back from its text,
on one line or indented, exactly when all its reals are written as numbers. Values before scaling
always are, a scaled one is below the bound of its type, and the two moments are when the samples
have a bound whose square, taken once for each sample, adds up to a double. No memory holds more
samples than `few` allows. -/
theorem report_reads_back {c : Config} (valid : c.validate = .ok ()) (finite : c.IsFinite)
    (few : c.moments.samples.length < UInt64.size) :
    ∃ report story, (run c).outcome = .ok (report, story) ∧
      (∀ o ∈ report.scaled,
        IsNumeric o.unscaled ∧ (IsNumeric o.processed ↔ c.KeepsRange o.typeName)) ∧
      ((∀ x ∈ report.reals, IsNumeric x) ↔
        IsNumeric report.variance.mean ∧ IsNumeric report.variance.variance ∧
          |value c.scaler.doubleValue| < 2 ^ 1023 ∧
          |valueSingle c.scaler.floatValue| < 3 * 2 ^ 126) ∧
      (∀ text, text = report.json.compact ∨ text = report.json.indented 0 →
        if ∀ x ∈ report.reals, IsNumeric x then
          ∃ back, Report.ofText? text = some back ∧ back.Agrees report
        else Report.ofText? text = none) ∧
      ∀ b, Roomy b c.moments.samples.length → (∀ x ∈ c.moments.samples, |value x| ≤ 2 ^ b) →
        IsNumeric report.variance.mean ∧ IsNumeric report.variance.variance := by
  obtain ⟨result, total, told, -⟩ := Config.run_eq_reportOf valid
  refine ⟨reportOf c result total, storyOf c result total, told, ?_⟩
  simp only [isNumeric_iff]
  refine ⟨scaled_reportOf finite result total, forall_reals_reportOf_iff finite result total, ?_, ?_⟩
  · intro text written
    have read := Report.ofText?_eq (r := reportOf c result total) few
      (written.imp_right fun indented => ⟨0, indented⟩)
    split
    · next numeric =>
      rw [if_pos numeric] at read
      exact ⟨_, read, .refl _⟩
    · next special => rwa [if_neg special] at read
  · intro b room bounded
    have within : ∀ x ∈ c.moments.samples, Within (-(2 ^ b)) (2 ^ b) x :=
      fun x mem => .of_abs_le (finite.samples x mem) (bounded x mem)
    exact ⟨isFinite_mean within room, isFinite_populationVariance within room⟩

theorem report_reads_back_of_moderate :
    ∃ report story, (run { moments := ⟨[1.0, 1.5]⟩ }).outcome = .ok (report, story) ∧
      ∃ back, Report.ofText? report.json.compact = some back ∧ back.Agrees report := by
  have samples : ∀ x ∈ [1.0, 1.5], x.isFinite := by decide +kernel
  have bounded : ∀ x ∈ [1.0, 1.5], |value x| ≤ 2 ^ 1 := by
    simp only [List.forall_mem_cons, value_one, value_three_halves]
    refine ⟨?_, ?_, List.forall_mem_nil _⟩ <;> norm_num
  have double : |value 20.5| < 2 ^ 1023 := (isFinite_scaled_iff rfl).mp (by decide +kernel)
  have single : |valueSingle 30.5| < 3 * 2 ^ 126 :=
    (isFinite_scaled_single_iff rfl).mp (by decide +kernel)
  have few : [1.0, (1.5 : Float)].length < UInt64.size := by decide
  obtain ⟨report, story, told, -, numeric, read, moments⟩ :=
    report_reads_back (c := { moments := ⟨[1.0, 1.5]⟩ }) (by decide) ⟨samples, rfl, rfl⟩ few
  obtain ⟨mean, variance⟩ := moments 1 ⟨by decide, by decide +kernel⟩ bounded
  have back := read _ (.inl rfl)
  rw [if_pos (numeric.mpr ⟨mean, variance, double, single⟩)] at back
  exact ⟨report, story, told, back⟩

/-- A double of 2^1023 leaves the range when it is doubled: it is written as null once scaled, and
the report does not read back. -/
theorem report_of_great_double_unreadable :
    Config.validate { scaler := { doubleValue := .ofBits 0x7fe0000000000000 } } = .ok () ∧
    Config.IsFinite { scaler := { doubleValue := .ofBits 0x7fe0000000000000 } } ∧
    ∃ report story,
      (run { scaler := { doubleValue := .ofBits 0x7fe0000000000000 } }).outcome =
        .ok (report, story) ∧
      (∃ o ∈ report.scaled, Json.compact (.real o.processed) = "null") ∧
      Report.ofText? report.json.compact = none := by
  have valid : Config.validate { scaler := { doubleValue := .ofBits 0x7fe0000000000000 } } =
      .ok () := by decide
  have samples : ∀ x ∈ [1.1, 2.2, 3.3, 4.4, 5.5], x.isFinite := by decide +kernel
  have scaled : ¬ (Float.ofBits 0x7fe0000000000000 * 2.0 / 1.5 : Float).isFinite := by
    decide +kernel
  have few : [1.1, 2.2, 3.3, 4.4, (5.5 : Float)].length < UInt64.size := by decide
  obtain ⟨result, total, told, -⟩ := Config.run_eq_reportOf valid
  refine ⟨valid, ⟨samples, by decide +kernel, by decide +kernel⟩, _, _, told, ?_, ?_⟩
  · refine ⟨scaleOutcome (Float.ofBits 0x7fe0000000000000), by simp [reportOf], ?_⟩
    exact Json.double_of_not_isFinite scaled
  · rw [Report.ofText?_eq few (.inl rfl), if_neg]
    intro finite
    refine scaled (finite _ ?_)
    simp [Report.reals, reportOf, ScaleOutcome.reals, scaleOutcome, scaleValue, Scalable.toReal,
      Scalable.ofReal]

end CallStudy
