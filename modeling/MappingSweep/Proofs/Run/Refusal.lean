import MappingSweep.Proofs.Config.Template
import MappingSweep.Proofs.Run.Completed
import MappingSweep.Proofs.Sweep.Kept

/-!
# Runs that are refused

A run whose output directory exists, or whose base configuration is of no use, changes nothing and
never asks the simulator.  A run that is past these two says neither of them later, whatever else
goes wrong.
-/

namespace MappingSweep

/-- What the action answers is good, or its error is one of the given errors. -/
def Action.Answers {ε σ α : Type} (good : α → Prop) (bad : ε → Prop) (a : Action ε σ α) : Prop :=
  ∀ s, match (a s).1 with
    | .ok x => good x
    | .error e => bad e

namespace Action

variable {ε ε' σ α β : Type} {good : α → Prop} {bad : ε → Prop}

theorem answers_pure {x : α} (h : good x) : (pure x : Action ε σ α).Answers good bad :=
  fun _ => h

theorem Answers.bind {mid : β → Prop} {a : Action ε σ β} {f : β → Action ε σ α}
    (h : a.Answers mid bad) (hf : ∀ x, mid x → (f x).Answers good bad) :
    (a >>= f).Answers good bad := by
  intro s
  have hfirst := h s
  rw [bind_apply]
  generalize a s = r at *
  obtain ⟨result, s'⟩ := r
  cases result with
  | ok x => exact hf x hfirst s'
  | error e => exact hfirst

theorem Answers.mapError {bad' : ε' → Prop} {a : Action ε σ α} {f : ε → ε'}
    (h : a.Answers good bad) (hf : ∀ e, bad e → bad' (f e)) :
    (a.mapError f).Answers good bad' := by
  intro s
  have hs := h s
  unfold Action.mapError
  generalize a s = r at *
  obtain ⟨result, s'⟩ := r
  cases result with
  | ok x => exact hs
  | error e => exact hf e hs

theorem answers_look {f : σ → Except ε α} (hgood : ∀ s x, f s = .ok x → good x)
    (hbad : ∀ s e, f s = .error e → bad e) : (look f).Answers good bad := by
  intro s
  unfold look
  cases hf : f s with
  | ok x => exact hgood s x hf
  | error e => exact hbad s e hf

theorem answers_change {f : σ → Except ε σ} (h : ∀ s e, f s = .error e → bad e) :
    (change f).Answers (fun _ => True) bad := by
  intro s
  unfold change
  cases hf : f s with
  | ok s' => trivial
  | error e => exact h s e hf

theorem answers_produce {f : σ → Except ε (α × σ)} (hgood : ∀ s x s', f s = .ok (x, s') → good x)
    (hbad : ∀ s e, f s = .error e → bad e) : (produce f).Answers good bad := by
  intro s
  unfold produce
  cases hf : f s with
  | ok made => exact hgood s made.1 made.2 hf
  | error e => exact hbad s e hf

theorem answers_all {actions : List (Action ε σ Unit)}
    (h : ∀ a ∈ actions, a.Answers (fun _ => True) bad) :
    (all actions).Answers (fun _ => True) bad := by
  induction actions with
  | nil => exact answers_pure trivial
  | cons a rest ih =>
    apply Answers.bind (h a List.mem_cons_self)
    exact fun _ _ => ih fun b hb => h b (List.mem_cons_of_mem a hb)

end Action

/-- The error says that a configuration could not be loaded, and is not wrapped as a trial's. -/
def SweepError.IsLoad (e : SweepError) : Prop :=
  ∃ path reason, e = .configLoad path reason

/-- The cause of the error is not that a configuration could not be loaded. -/
def RunError.PastLoading (e : RunError) : Prop :=
  ∀ source, e.cause = .sweep source → ¬ source.IsLoad

namespace RunError

theorem pastLoading_ofSweep {e : SweepError} (h : ¬ e.IsLoad) : (ofSweep e).PastLoading := by
  intro source hsource
  cases hsource
  exact h

theorem pastLoading_during {e : SweepError} (a : Activity) (h : ¬ e.IsLoad) :
    (during a (.sweep e)).PastLoading := by
  intro source hsource
  cases hsource
  exact h

theorem pastLoading_io (a : Activity) (e : IoFault) : (during a (.io e)).PastLoading :=
  fun _ hsource => nomatch hsource

end RunError

/-- A writer stops at a row that the log refuses. -/
theorem Funnel.stopped_take (f : Funnel) (fs : FileSystem) {e : SweepError}
    (h : (f.take fs).1.stopped = some e) : f.stopped = some e ∨ ∃ row, e = f.log.refusal row := by
  unfold Funnel.take at h
  cases hstopped : f.stopped with
  | some e' =>
    rw [hstopped] at h
    exact .inl (hstopped.symm.trans h)
  | none =>
    cases hqueue : f.queue with
    | nil =>
      simp only [hstopped, hqueue] at h
      cases h
    | cons row rest =>
      simp only [hstopped, hqueue] at h
      by_cases hfits : f.log.Fits row
      · rw [RowLog.append_of_fits hfits] at h
        cases h
      · rw [RowLog.append_of_not_fits hfits] at h
        cases h
        exact .inr ⟨row, rfl⟩

namespace Sweep

variable {plan : Plan} {simulator : Simulator}

/-- The writer has not stopped for want of a configuration. -/
def WriterPastLoading (w : World Funnel) : Prop :=
  ∀ e, w.sink.stopped = some e → ¬ e.IsLoad

theorem kept_writerPastLoading : Kept plan simulator funnelSink WriterPastLoading := by
  constructor
  · exact fun _ _ h => h
  · exact fun _ _ _ h _ => h
  · exact fun _ _ h => h
  · intro w row f h hsend
    obtain ⟨-, rfl⟩ := Funnel.send_eq_ok hsend
    exact h

theorem WriterPastLoading.writerStep {w : World Funnel} (h : WriterPastLoading w) :
    WriterPastLoading (writerStep w) := by
  intro e he
  rcases w.sink.stopped_take w.files he with hstopped | ⟨row, rfl⟩
  · exact h e hstopped
  · rintro ⟨_, _, hload⟩
    cases hload

theorem FailureOf.not_isLoad {m : Mapping} {failure : String × SweepError}
    (h : FailureOf plan m failure) : ¬ failure.2.IsLoad := by
  rintro ⟨_, _, hload⟩
  cases h <;> cases hload

/-- The error of an outcome is the failure of one of its reports. -/
theorem exists_failure {reports : List WorkerReport} {e : SweepError}
    (h : (outcomeOf reports).error = some e) :
    ∃ report ∈ reports, ∃ name, report.failure = some (name, e) := by
  obtain ⟨report, hreport, hfailure⟩ := List.exists_of_findSome?_eq_some h
  obtain ⟨failure, hsome, rfl⟩ := Option.map_eq_some_iff.mp hfailure
  exact ⟨report, hreport, failure.1, hsome⟩

end Sweep

namespace Run

variable {plan : Plan} {simulator : Simulator}

/-- Neither writer nor trials failed for want of a configuration. -/
def DrainedPastLoading (drained : Drained) : Prop :=
  (∀ e, drained.written = .error e → ¬ e.IsLoad) ∧
    ∀ e, drained.outcome.error = some e → ¬ e.IsLoad

theorem pastLoading_drainUnder (turns : List Turn) (plan : Plan) (template : Template)
    (simulator : Simulator) (log : RowLog) (fs : FileSystem) :
    DrainedPastLoading (drainUnder turns plan template simulator log fs).1 := by
  have hstart : Sweep.WriterPastLoading ⟨fs, { log }⟩ := fun e he => nomatch he
  obtain ⟨⟨f, hf, hwritten⟩, reports, houtcome, hfails⟩ :=
    ended_drainUnder Sweep.kept_writerPastLoading template (fun _ h => h.writerStep) turns hstart
  constructor
  · intro e he
    rw [hwritten, Funnel.answer] at he
    split at he
    · rename_i hstopped
      cases he
      exact hf e hstopped
    · cases he
  · intro e he
    rw [houtcome] at he
    obtain ⟨report, hreport, name, hfailure⟩ := Sweep.exists_failure he
    obtain ⟨i, hi, rfl⟩ := List.getElem_of_mem hreport
    have hm := hfails.length_eq ▸ hi
    have hfor := hfails.get hm hi
    exact (hfor _ hfailure).not_isLoad

theorem answers_createOutput (dir : Path) :
    (createOutput dir).Answers (fun _ => True) RunError.PastLoading := by
  intro fs
  simp only [createOutput, Action.mapError]
  cases (fs.createDirectories dir).1 with
  | ok _ => trivial
  | error e => exact RunError.pastLoading_io _ _

theorem answers_createLog (plan : Plan) :
    ((Action.produce (RowLog.create plan.rowSinkPath plan.commands)).mapError
      RunError.ofSweep).Answers (fun _ => True) RunError.PastLoading := by
  have hcreate : (Action.produce (RowLog.create plan.rowSinkPath plan.commands)).Answers
      (fun _ => True) fun e => ¬ e.IsLoad := by
    apply Action.answers_produce (fun _ _ _ _ => trivial)
    intro fs e he
    unfold RowLog.create at he
    dsimp only at he
    split at he
    · cases he
    · cases he
      rintro ⟨_, _, hload⟩
      cases hload
  exact hcreate.mapError fun _ => RunError.pastLoading_ofSweep

theorem answers_settle {drained : Drained} (h : DrainedPastLoading drained) (elapsed : Float) :
    (settle plan drained elapsed).Answers (fun _ => True) RunError.PastLoading := by
  unfold settle writeSummary
  apply Action.Answers.bind
  · apply Action.answers_change
    intro fs e he
    obtain ⟨e, -, rfl⟩ := mapError_eq_error he
    exact RunError.pastLoading_io _ _
  intro _ _
  apply Action.Answers.bind
  · apply Action.answers_look (fun _ _ _ => trivial)
    intro fs e he
    obtain ⟨e, hwritten, rfl⟩ := mapError_eq_error he
    exact RunError.pastLoading_during _ (h.1 e hwritten)
  intro rows _
  split
  · rename_i e herror
    apply Action.answers_look (fun _ _ _ => trivial)
    intro fs e' he'
    cases he'
    exact RunError.pastLoading_during _ (h.2 e herror)
  · exact Action.answers_pure trivial

theorem answers_build (plan : Plan) :
    ((Action.produce (Report.build plan.rowSinkPath plan.reportPath)).mapError
      RunError.ofSweep).Answers (fun _ => True) RunError.PastLoading := by
  have hbuild : (Action.produce (Report.build plan.rowSinkPath plan.reportPath)).Answers
      (fun _ => True) fun e => ¬ e.IsLoad := by
    apply Action.answers_produce (fun _ _ _ _ => trivial)
    intro fs e he
    obtain ⟨fault, -, rfl⟩ := mapError_eq_error he
    rintro ⟨_, _, hload⟩
    cases hload
  exact hbuild.mapError fun _ => RunError.pastLoading_ofSweep

theorem answers_of_handles {file : Path} {step : Figure.Step} (h : Figure.Handles file step) :
    step.Answers (fun _ => True) RunError.PastLoading := by
  cases h with
  | discarding =>
    apply Action.answers_change
    intro p e he
    unfold Figure.discard at he
    split at he
    · cases hremove : p.files.removeFile file with
      | ok fs => rw [hremove] at he; cases he
      | error o =>
        rw [hremove] at he
        cases he
        exact RunError.pastLoading_io _ _
    · cases he
  | @drawing draw _ =>
    intro p
    unfold Figure.drawing
    cases draw p.files <;> trivial

theorem answers_finishTrials (plan : Plan) :
    (Figure.finishTrials plan).Answers (fun _ => True) RunError.PastLoading := by
  have hsteps : ∀ step ∈ plan.trials.flatMap (Figure.trialSteps plan),
      step.Answers (fun _ => True) RunError.PastLoading := by
    intro step hstep
    obtain ⟨t, -, ht⟩ := List.mem_flatMap.mp hstep
    obtain ⟨name, -, hhandles⟩ := Figure.exists_handles plan t ht
    exact answers_of_handles hhandles
  intro fs
  have hall := Action.answers_all hsteps ⟨fs, 0⟩
  simp only [Figure.finishTrials]
  generalize Action.all (plan.trials.flatMap (Figure.trialSteps plan)) ⟨fs, 0⟩ = r at *
  obtain ⟨result, p⟩ := r
  cases result with
  | ok _ => trivial
  | error e => exact hall

theorem answers_conclude {drained : Drained} (h : DrainedPastLoading drained) (elapsed : Float) :
    (conclude plan drained elapsed).Answers (fun outcome => ∀ dir, outcome ≠ .outputExists dir)
      RunError.PastLoading := by
  unfold conclude
  apply Action.Answers.bind (answers_settle h elapsed)
  rintro ⟨summary, rows⟩ -
  apply Action.Answers.bind (answers_build plan)
  intro report _
  apply Action.Answers.bind (answers_finishTrials plan)
  intro _ _
  apply Action.answers_pure
  exact fun _ h => nomatch h

/-! ## The order of a run -/

theorem sweepUnder_of_load (turns : List Turn) (simulator : Simulator) {template : Template}
    {fs : FileSystem} (h : Template.load fs plan.baseConfig = .ok template) :
    sweepUnder turns plan simulator fs = sweepWith turns plan simulator template fs := by
  simp only [sweepUnder, Action.bind_apply, Action.look, h, mapError_ok]

theorem runUnder_of_load (turns : List Turn) (simulator : Simulator) (elapsed : Float)
    {template : Template} {fs : FileSystem} (hmissing : fs.pathExists plan.outputDir = false)
    (hload : Template.load fs plan.baseConfig = .ok template) :
    runUnder turns plan simulator elapsed fs =
      (sweepWith turns plan simulator template >>= fun drained => conclude plan drained elapsed)
        fs := by
  rw [runUnder_of_missing turns simulator elapsed hmissing, Action.bind_apply,
    sweepUnder_of_load turns simulator hload, Action.bind_apply]

theorem answers_sweepWith (turns : List Turn) (plan : Plan) (simulator : Simulator)
    (template : Template) :
    (sweepWith turns plan simulator template).Answers DrainedPastLoading RunError.PastLoading := by
  apply Action.Answers.bind (answers_createOutput plan.outputDir)
  intro _ _
  apply Action.Answers.bind (answers_createLog plan)
  intro log _ fs
  exact pastLoading_drainUnder turns plan template simulator log fs

/-- The refusals of a run.  An output directory to which its path leads is refused, and then a base
configuration of no use, whatever simulator there is, and all files stay as they are.  A run that
meets neither of the two never says so. -/
theorem refused_or_past (plan : Plan) (turns : List Turn) (elapsed : Float) (fs : FileSystem) :
    (∀ found, fs.find plan.outputDir = .ok found → ∀ simulator,
      runUnder turns plan simulator elapsed fs = (.ok (.outputExists plan.outputDir), fs)) ∧
    ∀ e, fs.find plan.outputDir = .error e →
      (∀ reason, Template.Unloadable fs plan.baseConfig reason → ∀ simulator,
        runUnder turns plan simulator elapsed fs =
          (.error (.during .loadingBase (.sweep (.configLoad plan.baseConfig reason))), fs)) ∧
      ((∀ reason, ¬ Template.Unloadable fs plan.baseConfig reason) → ∀ simulator,
        let result := (runUnder turns plan simulator elapsed fs).1
        (∀ dir, result ≠ .ok (.outputExists dir)) ∧
          ∀ error path reason, result = .error error →
            error.cause ≠ .sweep (.configLoad path reason)) := by
  constructor
  · intro found hfound simulator
    have hexists : fs.pathExists plan.outputDir = true := by
      rw [FileSystem.pathExists, hfound]
      rfl
    exact runUnder_of_exists turns simulator elapsed hexists
  intro e hfind
  have hmissing : fs.pathExists plan.outputDir = false := by
    rw [FileSystem.pathExists, hfind]
    rfl
  constructor
  · intro reason hreason simulator
    rw [runUnder_of_missing turns simulator elapsed hmissing]
    simp only [sweepUnder, Action.bind_apply, Action.look, Template.load_of_unloadable hreason,
      mapError_error]
  · intro hloads simulator
    obtain ⟨base, hload⟩ := Template.load_of_loadable hloads
    rw [runUnder_of_load turns simulator elapsed hmissing hload]
    have hanswer := (answers_sweepWith turns plan simulator ⟨plan.baseConfig, base⟩).bind
      (f := fun drained => conclude plan drained elapsed)
      (fun drained hdrained => answers_conclude hdrained elapsed) fs
    generalize (sweepWith turns plan simulator ⟨plan.baseConfig, base⟩ >>=
      fun drained => conclude plan drained elapsed) fs = r at *
    obtain ⟨result, last⟩ := r
    cases result with
    | ok outcome =>
      constructor
      · exact fun dir h => hanswer dir (Except.ok.inj h)
      · intro _ _ _ h
        cases h
    | error error =>
      constructor
      · intro _ h
        cases h
      · intro _ path reason h hcause
        cases h
        exact hanswer _ hcause ⟨path, reason, rfl⟩

/-- Nothing but a base configuration. -/
def baseAlone (text : String) : FileSystem :=
  ⟨[(["base.yaml"], .file text.toUTF8 false)]⟩

set_option maxRecDepth 100000 in
theorem refused_or_past_samplePlan :
    (∀ simulator, run (samplePlan [goodPattern]) simulator 0 ⟨[(["log"], .file .empty false)]⟩ =
      (.ok (.outputExists ⟨"log"⟩), ⟨[(["log"], .file .empty false)]⟩)) ∧
    (∃ reason, ∀ simulator, run (samplePlan [goodPattern]) simulator 0 (baseAlone "- 1\n") =
      (.error (.during .loadingBase (.sweep (.configLoad ⟨"base.yaml"⟩ reason))),
        baseAlone "- 1\n")) ∧
    ∀ error path reason,
      (run (samplePlan [badPattern]) sampleSimulator 0 (baseAlone "a: 1\n")).1 = .error error →
        error.cause ≠ .sweep (.configLoad path reason) := by
  have hlist : (Template.load (baseAlone "- 1\n") ⟨"base.yaml"⟩).isOk = false := by
    decide +kernel
  have hmap : (Template.load (baseAlone "a: 1\n") ⟨"base.yaml"⟩).isOk = true := by
    decide +kernel
  refine ⟨(refused_or_past (samplePlan [goodPattern]) [] 0 _).1 _ rfl, ?_, ?_⟩
  · cases hload : Template.load (baseAlone "- 1\n") ⟨"base.yaml"⟩ with
    | ok template => rw [hload] at hlist; cases hlist
    | error e =>
      obtain ⟨reason, hreason, -⟩ := Template.exists_unloadable hload
      exact ⟨reason,
        ((refused_or_past (samplePlan [goodPattern]) [] 0 _).2 .notFound rfl).1 reason hreason⟩
  · have hloads : ∀ reason,
        ¬ Template.Unloadable (baseAlone "a: 1\n") (samplePlan [badPattern]).baseConfig reason := by
      intro reason hreason
      have hload : Template.load (baseAlone "a: 1\n") ⟨"base.yaml"⟩ = _ :=
        Template.load_of_unloadable hreason
      rw [hload] at hmap
      cases hmap
    exact (((refused_or_past (samplePlan [badPattern]) [] 0 _).2 .notFound rfl).2 hloads
      sampleSimulator).2

end Run
end MappingSweep
