import MappingSweep.Proofs.Run.Refusal
import MappingSweep.Proofs.Sweep.Lasting

/-!
# What a failed sweep leaves behind

A run whose trials or whose writer failed still writes its summary, and ends there: it answers for
the writer first, then for the first mapping that failed, and leaves everything else as workers and
writer have left it.
-/

namespace MappingSweep
namespace Run

variable {plan : Plan} {simulator : Simulator} {turns : List Turn} {elapsed : Float}
  {fs swept settled : FileSystem} {drained : Drained}

section

variable {outcome : SweepOutcome} (hsummary : swept.writeText plan.summaryPath
  (outcome.summary.document elapsed) = .ok settled)
include hsummary

/-- Once the summary is written, the writer answers before the trials. -/
theorem settle_of_summary (written : Except SweepError Nat) :
    settle plan ⟨outcome, written⟩ elapsed swept =
      (match written, outcome.error with
        | .error e, _ => .error (.during .writingRows (.sweep e))
        | .ok _, some e => .error (.during .sweeping (.sweep e))
        | .ok rows, none => .ok (outcome.summary, rows), settled) := by
  simp only [settle, writeSummary, Action.bind_apply, Action.change, hsummary, mapError_ok]
  cases written with
  | error e => rfl
  | ok rows =>
    simp only [Action.look, mapError_ok]
    cases outcome.error <;> rfl

theorem conclude_of_writer (e : SweepError) :
    conclude plan ⟨outcome, .error e⟩ elapsed swept =
      (.error (.during .writingRows (.sweep e)), settled) := by
  simp only [conclude, Action.bind_apply, settle_of_summary hsummary]

theorem conclude_of_trial {e : SweepError} (herror : outcome.error = some e) (rows : Nat) :
    conclude plan ⟨outcome, .ok rows⟩ elapsed swept =
      (.error (.during .sweeping (.sweep e)), settled) := by
  simp only [conclude, Action.bind_apply, settle_of_summary hsummary, herror]

end

/-- The places that may still change once the summary is written. -/
def Finishes (plan : Plan) (q : Place) : Prop :=
  q = plan.reportPath.place ∨ Figure.InSomeTrial plan.outputDir q

theorem preserves_conclude {outcome : SweepOutcome} (hsummary : swept.writeText plan.summaryPath
      (outcome.summary.document elapsed) = .ok settled) (written : Except SweepError Nat) :
    FileSystem.Preserves (Finishes plan) settled
      (conclude plan ⟨outcome, written⟩ elapsed swept).2 := by
  cases written with
  | error e =>
    rw [conclude_of_writer hsummary e]
    exact .refl _ settled
  | ok rows =>
    cases herror : outcome.error with
    | some e =>
      rw [conclude_of_trial hsummary herror rows]
      exact .refl _ settled
    | none =>
      simp only [conclude, Action.bind_apply, settle_of_summary hsummary, herror,
        Action.mapError, Action.produce]
      cases hbuild : Report.build plan.rowSinkPath plan.reportPath settled with
      | error e => exact .refl _ settled
      | ok made =>
        obtain ⟨report, reported⟩ := made
        obtain ⟨_, _, _, -, -, hwrite, -⟩ := Report.build_eq_ok hbuild
        have hreport : FileSystem.Preserves (Finishes plan) settled reported :=
          (FileSystem.preserves_writeBytes hwrite).mono fun _ => .inl
        have hfinish : FileSystem.Preserves (Finishes plan) reported _ :=
          (Figure.preserves_finishTrials plan reported).mono fun _ => .inr
        simp only [mapError_ok]
        generalize Figure.finishTrials plan reported = r at *
        obtain ⟨result, last⟩ := r
        cases result with
        | error e => exact hreport.trans hfinish
        | ok count => exact hreport.trans hfinish

/-! ## The whole run -/

theorem not_finishes_summary (plan : Plan) : ¬ Finishes plan plan.summaryPath.place := by
  rintro (h | h)
  · rw [plan.place_summaryPath, plan.place_reportPath] at h
    simp at h
  · rw [plan.place_summaryPath] at h
    exact not_inSomeTrial plan _ h

end Run
end MappingSweep
