import MappingSweep.Proofs.Thread
import MappingSweep.Proofs.Trial.Effects

/-!
# Stages of a trial

A trial ends well when all its stages do, and otherwise as its first failing stage does, after which
it takes no step.  The sink gets the row of a trial that ended well, and nothing else.
-/

namespace MappingSweep

/-- The stages in the order in which a trial goes through them. -/
def Stage.all : List Stage :=
  [.directory, .configMerge, .simulator, .parse, .rowSink]

/-- What the sink holds is a list of rows, and an accepted row is put to its end. -/
def Sink.Records {σ : Type} (sink : Sink σ) (contents : σ → List Row) : Prop :=
  ∀ row s s', sink.append row s = .ok s' → contents s' = contents s ++ [row]

namespace World

variable {σ α : Type}

theorem alone_onFiles (a : Action SweepError FileSystem α) (w : World σ) :
    (onFiles a).alone w = ((a w.files).1, { w with files := (a w.files).2 }) :=
  rfl

theorem sink_onFiles (a : Action SweepError FileSystem α) (w : World σ) :
    ((onFiles a).alone w).2.sink = w.sink :=
  rfl

theorem states_onFiles (a : Action SweepError FileSystem α) (w : World σ) :
    (onFiles a).states w = [((onFiles a).alone w).2] :=
  rfl

theorem alone_append_of_ok {sink : Sink σ} {row : Row} {w : World σ} {s : σ}
    (h : sink.append row w.sink = .ok s) :
    (onSink (.change (sink.append row))).alone w = (.ok (), { w with sink := s }) := by
  rw [onSink, Task.alone_task, Action.within, Action.change, h]

theorem alone_append_of_error {sink : Sink σ} {row : Row} {w : World σ} {e : SweepError}
    (h : sink.append row w.sink = .error e) :
    (onSink (.change (sink.append row))).alone w = (.error e, w) := by
  rw [onSink, Task.alone_task, Action.within, Action.change, h]

end World

namespace Trial

variable {σ α : Type} (plan : Plan) (template : Template) (simulator : Simulator) (sink : Sink σ)
  (t : Trial)

/-- The row that the artifacts of the trial give. -/
def rowIn (fs : FileSystem) : Except SweepError Row :=
  (t.readRow plan (TrialPaths.ofTrial plan.outputDir t) fs).1

/-- The last stage hands over the row that the artifacts give. -/
def handOver : Action SweepError (World σ) Unit := fun w =>
  match t.rowIn plan w.files with
  | .ok row => (World.onSink (.change (sink.append row))).alone w
  | .error e => (.error e, w)

def stageAlone : Stage → Task SweepError (World σ) Unit
  | .directory => freshDirectory (TrialPaths.ofTrial plan.outputDir t).dir
  | .configMerge =>
    let paths := TrialPaths.ofTrial plan.outputDir t
    World.onFiles (writeConfig template (t.overrides paths plan.commands) paths)
  | .simulator =>
    let paths := TrialPaths.ofTrial plan.outputDir t
    World.onFiles (simulator.run paths.config paths.stdoutLog)
  | .parse => do
    let _ ← World.onFiles (t.readRow plan (TrialPaths.ofTrial plan.outputDir t))
  | .rowSink => (t.handOver plan sink).task

variable (stages : List Stage) (task : Task SweepError (World σ) Row)

/-- The task goes through the stages and ends with a row, and the sink gets that row alone. -/
structure Finishes (row : Row) (w last : World σ) : Prop where
  result : task.alone w = (.ok row, last)
  passes : Task.Passes (t.stageAlone plan template simulator sink) stages w (task.states w) last
  row_eq : t.rowIn plan last.files = .ok row
  appended : sink.append row w.sink = .ok last.sink

/-- The task ends where a stage is the first to fail, with the error of that stage, and takes no
step after it.  The sink stays as it was. -/
structure FailsAt (s : Stage) (source : SweepError) (w last : World σ) : Prop where
  result : task.alone w = (.error (.trial t.mapping.name t.pattern.name s source), last)
  first : ∃ before later visited mid, stages = before ++ s :: later ∧
    Task.Passes (t.stageAlone plan template simulator sink) before w visited mid ∧
    (t.stageAlone plan template simulator sink s).alone mid = (.error source, last) ∧
    task.states w = visited ++ (t.stageAlone plan template simulator sink s).states mid
  untouched : last.sink = w.sink

/-- The task has the given stages still to do, and ends as they do. -/
def Follows (w : World σ) : Prop :=
  (∃ row last, t.Finishes plan template simulator sink stages task row w last) ∨
    ∃ s source last, t.FailsAt plan template simulator sink stages task s source w last

variable {plan template simulator sink t stages}

/-- A stage that leaves the sink alone, in front of the rest of a trial. -/
theorem follows_stage {s : Stage} {a : Task SweepError (World σ) α}
    {f : α → Task SweepError (World σ) Row} {w : World σ}
    (halone : (t.stageAlone plan template simulator sink s).alone w =
      ((a.alone w).1.map fun _ => (), (a.alone w).2))
    (hstates : (t.stageAlone plan template simulator sink s).states w = a.states w)
    (hsink : (a.alone w).2.sink = w.sink)
    (hrest : ∀ x mid, a.alone w = (.ok x, mid) →
      t.Follows plan template simulator sink stages (f x) mid) :
    t.Follows plan template simulator sink (s :: stages) (t.stage s a >>= f) w := by
  have hmapped := a.alone_mapError (SweepError.trial t.mapping.name t.pattern.name s) w
  have hsteps := a.states_mapError (SweepError.trial t.mapping.name t.pattern.name s) w
  cases hresult : a.alone w with
  | mk result mid =>
    rw [hresult] at halone hsink hmapped
    cases result with
    | error e =>
      refine .inr ⟨s, e, mid, Task.alone_bind_of_error hmapped, ?_, hsink⟩
      refine ⟨[], stages, [], w, rfl, .nil w, halone, ?_⟩
      rw [List.nil_append, hstates, ← hsteps]
      exact Task.states_bind_of_error hmapped
    | ok x =>
      have hvisited : (t.stage s a >>= f).states w = a.states w ++ (f x).states mid := by
        rw [← hsteps]
        exact Task.states_bind_of_ok hmapped
      rcases hrest x mid hresult with ⟨row, last, hfinishes⟩ | ⟨s', source, last, hfails⟩
      · refine .inl ⟨row, last, ?_, ?_, hfinishes.row_eq, ?_⟩
        · exact (Task.alone_bind_of_ok hmapped).trans hfinishes.result
        · rw [hvisited, ← hstates]
          exact .cons halone hfinishes.passes
        · rw [← hsink]
          exact hfinishes.appended
      · obtain ⟨before, later, visited, mid', hsplit, hpasses, hfail, hlast⟩ := hfails.first
        refine .inr ⟨s', source, last, ?_, ?_, hfails.untouched.trans hsink⟩
        · exact (Task.alone_bind_of_ok hmapped).trans hfails.result
        · refine ⟨s :: before, later, _, mid', ?_, .cons halone hpasses, hfail, ?_⟩
          · rw [hsplit, List.cons_append]
          · rw [hvisited, hlast, hstates, List.append_assoc]

theorem map_unit (r : Except SweepError Unit) : (r.map fun _ => ()) = r := by
  cases r <;> rfl

/-- A stage without a result in front of the rest of a trial. -/
theorem follows_unit_stage {s : Stage} {a : Task SweepError (World σ) Unit}
    {f : Unit → Task SweepError (World σ) Row} {w : World σ}
    (hstage : t.stageAlone plan template simulator sink s = a)
    (hsink : (a.alone w).2.sink = w.sink)
    (hrest : ∀ mid, t.Follows plan template simulator sink stages (f ()) mid) :
    t.Follows plan template simulator sink (s :: stages) (t.stage s a >>= f) w :=
  follows_stage (by rw [hstage, map_unit]) (by rw [hstage]) hsink fun _ mid _ => hrest mid

theorem sink_freshDirectory (dir : Path) (w : World σ) :
    ((freshDirectory dir).alone w).2.sink = w.sink := by
  unfold freshDirectory
  apply Task.alone_bind_kept World.sink fun _ => rfl
  intro found
  cases found with
  | false => exact fun _ => rfl
  | true => exact Task.alone_bind_kept World.sink (fun _ => rfl) fun _ _ => rfl

theorem rowIn_of_parse {row : Row} {w last : World σ}
    (h : (World.onFiles (t.readRow plan (.ofTrial plan.outputDir t))).alone w = (.ok row, last)) :
    last = w ∧ t.rowIn plan w.files = .ok row := by
  rw [World.alone_onFiles] at h
  obtain ⟨hrow, hlast⟩ := Prod.mk.inj h
  exact ⟨hlast.symm, hrow⟩

theorem handOver_eq {row : Row} {w : World σ} (hrow : t.rowIn plan w.files = .ok row) :
    t.handOver plan sink w = (World.onSink (.change (sink.append row))).alone w := by
  delta handOver
  simp only [hrow]

theorem alone_rowSink {row : Row} {w : World σ} (hrow : t.rowIn plan w.files = .ok row) :
    (t.stageAlone plan template simulator sink .rowSink).alone w =
      (World.onSink (.change (sink.append row))).alone w := by
  rw [stageAlone, Task.alone_task, handOver_eq hrow]

theorem states_rowSink {row : Row} {w : World σ} (hrow : t.rowIn plan w.files = .ok row) :
    (t.stageAlone plan template simulator sink .rowSink).states w =
      (World.onSink (.change (sink.append row))).states w := by
  rw [stageAlone, World.onSink, Task.states_task, Task.states_task, handOver_eq hrow]
  rfl

/-- The last stage, once the artifacts have given the row. -/
theorem follows_rowSink {row : Row} {w : World σ} (hrow : t.rowIn plan w.files = .ok row) :
    t.Follows plan template simulator sink [.rowSink]
      (do t.stage .rowSink (World.onSink (.change (sink.append row))); return row) w := by
  have halone : (t.stageAlone plan template simulator sink .rowSink).alone w = _ :=
    alone_rowSink hrow
  have hstates : (t.stageAlone plan template simulator sink .rowSink).states w = _ :=
    states_rowSink hrow
  have hmapped := (World.onSink (.change (sink.append row))).alone_mapError
    (SweepError.trial t.mapping.name t.pattern.name .rowSink) w
  have hsteps := (World.onSink (.change (sink.append row))).states_mapError
    (SweepError.trial t.mapping.name t.pattern.name .rowSink) w
  cases happend : sink.append row w.sink with
  | ok s =>
    rw [World.alone_append_of_ok happend] at halone hmapped
    refine .inl ⟨row, { w with sink := s }, Task.alone_bind_of_ok hmapped, ?_, hrow, happend⟩
    have hpasses := Task.Passes.cons halone (.nil _)
    rw [hstates, ← hsteps] at hpasses
    exact (Task.states_bind_of_ok hmapped) ▸ hpasses
  | error e =>
    rw [World.alone_append_of_error happend] at halone hmapped
    refine .inr ⟨.rowSink, e, w, Task.alone_bind_of_error hmapped, ?_, rfl⟩
    refine ⟨[], [], [], w, rfl, .nil w, halone, ?_⟩
    rw [List.nil_append, hstates, ← hsteps]
    exact Task.states_bind_of_error hmapped

theorem follows_task (w : World σ) : t.Follows plan template simulator sink Stage.all
    (t.task plan template simulator sink) w := by
  unfold task Stage.all
  refine follows_unit_stage rfl (sink_freshDirectory _ w) fun w => ?_
  refine follows_unit_stage rfl (World.sink_onFiles _ w) fun w => ?_
  refine follows_unit_stage rfl (World.sink_onFiles _ w) fun w => ?_
  refine follows_stage ?_ ?_ (World.sink_onFiles _ w) fun row last hread => ?_
  · rw [World.alone_onFiles, stageAlone]
    cases hread : (t.readRow plan (.ofTrial plan.outputDir t) w.files).1 with
    | ok row => exact Task.alone_bind_of_ok (by rw [World.alone_onFiles, hread])
    | error e => exact Task.alone_bind_of_error (by rw [World.alone_onFiles, hread])
  · cases hread : (t.readRow plan (.ofTrial plan.outputDir t) w.files).1 with
    | ok row => exact Task.states_bind_of_ok (by rw [World.alone_onFiles, hread])
    | error e => exact Task.states_bind_of_error (by rw [World.alone_onFiles, hread])
  · obtain ⟨rfl, hrow⟩ := rowIn_of_parse hread
    exact follows_rowSink hrow

/-! ## Trials one after the other -/

/-- Trials in the given order, each from where the one before it has ended. -/
def runAll (plan : Plan) (template : Template) (simulator : Simulator) (sink : Sink σ)
    (ts : List Trial) (w : World σ) : List (Except SweepError Row) × World σ :=
  Thread.runAll (ts.map fun t => (t.task plan template simulator sink).run) w

def rowsOf (results : List (Except SweepError Row)) : List Row :=
  results.filterMap Except.toOption

theorem runAll_cons (ts : List Trial) (w : World σ) :
    runAll plan template simulator sink (t :: ts) w =
      (((t.task plan template simulator sink).alone w).1 ::
          (runAll plan template simulator sink ts
            ((t.task plan template simulator sink).alone w).2).1,
        (runAll plan template simulator sink ts
          ((t.task plan template simulator sink).alone w).2).2) :=
  Thread.runAll_cons _ _ w

/-- The sink ends as it does when it is handed the rows of the trials, and nothing else. -/
theorem sink_runAll (ts : List Trial) (w : World σ) :
    (rowsOf (runAll plan template simulator sink ts w).1).foldlM
        (fun s row => sink.append row s) w.sink =
      .ok (runAll plan template simulator sink ts w).2.sink := by
  induction ts generalizing w with
  | nil => rfl
  | cons t ts ih =>
    rw [runAll_cons, ← ih ((t.task plan template simulator sink).alone w).2, rowsOf,
      List.filterMap_cons]
    rcases follows_task w with ⟨row, last, hfinishes⟩ | ⟨s, source, last, hfails⟩
    · rw [hfinishes.result]
      simp only [Except.toOption, List.foldlM_cons, hfinishes.appended]
      rfl
    · rw [hfails.result]
      simp only [Except.toOption, hfails.untouched]
      rfl

theorem contents_of_foldlM {contents : σ → List Row} (hrecords : sink.Records contents)
    {rows : List Row} {s last : σ}
    (h : rows.foldlM (fun s row => sink.append row s) s = .ok last) :
    contents last = contents s ++ rows := by
  induction rows generalizing s with
  | nil =>
    cases h
    simp
  | cons row rows ih =>
    rw [List.foldlM_cons] at h
    cases happend : sink.append row s with
    | error e => rw [happend] at h; cases h
    | ok mid =>
      rw [happend] at h
      rw [ih h, hrecords row s mid happend, List.append_assoc]
      rfl

/-- A trial ends with a row, which the sink has got, or with the error of the first stage that
fails, where it stops with the sink as it was.  After any trials the sink has got their rows in
order. -/
theorem row_or_first_failure (plan : Plan) (template : Template) (simulator : Simulator)
    (sink : Sink σ) :
    (∀ (t : Trial) (w : World σ),
      (∃ row last, t.Finishes plan template simulator sink Stage.all
        (t.task plan template simulator sink) row w last) ∨
      ∃ s source last, t.FailsAt plan template simulator sink Stage.all
        (t.task plan template simulator sink) s source w last) ∧
    ∀ (ts : List Trial) (w : World σ),
      let results := (runAll plan template simulator sink ts w).1
      let last := (runAll plan template simulator sink ts w).2
      (rowsOf results).foldlM (fun s row => sink.append row s) w.sink = .ok last.sink ∧
        ∀ contents, sink.Records contents →
          contents last.sink = contents w.sink ++ rowsOf results :=
  ⟨fun _ w => follows_task w, fun ts w => ⟨sink_runAll ts w, fun _ hrecords =>
    contents_of_foldlM hrecords (sink_runAll ts w)⟩⟩

end Trial

namespace Run

/-- A sink that is the list of the rows. -/
def listSink : Sink (List Row) where
  append row rows := .ok (rows ++ [row])

theorem records_listSink : listSink.Records fun rows => rows := by
  intro row s s' h
  cases h
  rfl

end Run

namespace Trial

open Run (samplePlan goodPattern badPattern sampleSimulator listSink records_listSink)

def runPair : List (Except SweepError Row) × World (List Row) :=
  runAll (samplePlan [goodPattern, badPattern]) (.ofConfig (.mapOf [])) sampleSimulator listSink
    (samplePlan [goodPattern, badPattern]).trials ⟨{}, []⟩

set_option maxRecDepth 100000 in
theorem row_or_first_failure_runPair :
    listSink.Records (fun rows => rows) ∧ runPair.1.map Except.isOk = [true, false] ∧
      runPair.2.sink = rowsOf runPair.1 := by
  have hrows := (row_or_first_failure (samplePlan [goodPattern, badPattern])
    (.ofConfig (.mapOf [])) sampleSimulator listSink).2
      (samplePlan [goodPattern, badPattern]).trials ⟨{}, []⟩
  refine ⟨records_listSink, by decide +kernel, ?_⟩
  unfold runPair
  exact (hrows.2 _ records_listSink).trans (List.nil_append _)

end Trial
end MappingSweep
