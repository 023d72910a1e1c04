import MappingSweep.Proofs.Figure.Trial
import MappingSweep.Proofs.Report.Shape
import MappingSweep.Proofs.Sweep.Rows

/-!
# Completed runs

A run that completes has run all trials of its plan.  Its summary, its row log, the number that it
answers and its report agree on that.
-/

namespace MappingSweep

namespace Plan

theorem place_reportPath (plan : Plan) :
    plan.reportPath.place = plan.outputDir.place ++ ["result_report.csv"] :=
  Path.place_join (by decide)

theorem place_summaryPath (plan : Plan) :
    plan.summaryPath.place = plan.outputDir.place ++ ["summary.json"] :=
  Path.place_join (by decide)

theorem rowSinkPath_ne_summaryPath (plan : Plan) :
    plan.rowSinkPath.place ≠ plan.summaryPath.place := by
  rw [place_rowSinkPath, place_summaryPath]
  simp

theorem rowSinkPath_ne_reportPath (plan : Plan) :
    plan.rowSinkPath.place ≠ plan.reportPath.place := by
  rw [place_rowSinkPath, place_reportPath]
  simp

theorem length_trials (plan : Plan) :
    plan.trials.length = plan.mappings.length * plan.patterns.length := by
  simp only [trials, List.length_flatMap, List.length_map, List.map_const', List.sum_replicate_nat]

end Plan

theorem Report.build_eq_ok {sink target : Path} {fs fs' : FileSystem} {report : Report}
    (h : Report.build sink target fs = .ok (report, fs')) :
    ∃ content header rows, fs.readBytes sink = .ok content ∧
      Report.records sink content = .ok (header, rows) ∧
      fs.writeBytes target (Csv.encodeAll (header :: rows)).toUTF8 = .ok fs' ∧
      report.path = target := by
  obtain ⟨content, header, rows, hread, hrecords, hwrite, rfl⟩ := Report.build_eq_ok_iff.mp h
  exact ⟨content, header, rows, hread, hrecords, hwrite, rfl⟩

namespace Run

variable {plan : Plan} {simulator : Simulator} {turns : List Turn} {elapsed : Float}
  {fs fs' : FileSystem} {drained : Drained}

theorem sweepUnder_eq_ok (h : sweepUnder turns plan simulator fs = (.ok drained, fs')) :
    ∃ template log before created,
      RowLog.create plan.rowSinkPath plan.commands before = .ok (log, created) ∧
      drainUnder turns plan template simulator log created = (drained, fs') := by
  obtain ⟨template, loaded, -, h⟩ := Action.bind_eq_ok h
  obtain ⟨-, before, -, h⟩ := Action.bind_eq_ok h
  obtain ⟨log, created, hcreate, h⟩ := Action.bind_eq_ok h
  refine ⟨template, log, before, created,
    Action.produce_eq_ok (Action.mapError_eq_ok hcreate), ?_⟩
  obtain ⟨hdrained, hfiles⟩ := Prod.mk.inj h
  exact Prod.ext (Except.ok.inj hdrained) hfiles

/-- The steps of a second half that completes. -/
structure Concluded (plan : Plan) (drained : Drained) (summary : Summary) (rows : Nat)
    (report : Path) (fs settled reported fs' : FileSystem) : Prop where
  error : drained.outcome.error = none
  written : drained.written = .ok rows
  summary_eq : summary = drained.outcome.summary
  settle : ∃ text, fs.writeText plan.summaryPath text = .ok settled
  build : ∃ made, Report.build plan.rowSinkPath plan.reportPath settled = .ok (made, reported) ∧
    report = made.path
  finish : fs' = (Figure.finishTrials plan reported).2

theorem conclude_eq_ok {summary : Summary} {rows : Nat} {report : Path}
    (h : conclude plan drained elapsed fs = (.ok (.completed summary rows report), fs')) :
    ∃ settled reported, Concluded plan drained summary rows report fs settled reported fs' := by
  obtain ⟨⟨summary', rows'⟩, settled, hsettle, hreport⟩ := Action.bind_eq_ok h
  obtain ⟨made, reported, hbuild, hfigures⟩ := Action.bind_eq_ok hreport
  obtain ⟨count, finished, hfinish, hend⟩ := Action.bind_eq_ok hfigures
  obtain ⟨_, written, hsummary, hrows⟩ := Action.bind_eq_ok hsettle
  obtain ⟨rows'', last, hlook, herrors⟩ := Action.bind_eq_ok hrows
  obtain ⟨hwritten, hlast⟩ := Action.look_eq_ok hlook
  cases hend
  cases herror : drained.outcome.error with
  | some e => rw [herror] at herrors; cases herrors
  | none =>
    rw [herror, hlast] at herrors
    obtain ⟨hpair, hfiles⟩ := Prod.mk.inj herrors
    cases hpair
    rw [hfiles] at hsummary
    refine ⟨settled, reported, herror, mapError_eq_ok hwritten, rfl,
      ⟨_, mapError_eq_ok (Action.change_eq_ok hsummary)⟩,
      ⟨made, Action.produce_eq_ok (Action.mapError_eq_ok hbuild), rfl⟩, ?_⟩
    rw [hfinish]

theorem runUnder_of_exists (turns : List Turn) (simulator : Simulator) (elapsed : Float)
    (h : fs.pathExists plan.outputDir = true) :
    runUnder turns plan simulator elapsed fs = (.ok (.outputExists plan.outputDir), fs) := by
  simp only [runUnder, refusal?, Action.bind_apply, Action.look, h, if_true]
  rfl

theorem runUnder_of_missing (turns : List Turn) (simulator : Simulator) (elapsed : Float)
    (h : fs.pathExists plan.outputDir = false) :
    runUnder turns plan simulator elapsed fs =
      (sweepUnder turns plan simulator >>= fun drained => conclude plan drained elapsed) fs := by
  simp only [runUnder, refusal?, Action.bind_apply, Action.look, h, Bool.false_eq_true, if_false]

theorem runUnder_eq_ok {summary : Summary} {rows : Nat} {report : Path}
    (h : runUnder turns plan simulator elapsed fs = (.ok (.completed summary rows report), fs')) :
    ∃ drained swept, sweepUnder turns plan simulator fs = (.ok drained, swept) ∧
      conclude plan drained elapsed swept = (.ok (.completed summary rows report), fs') := by
  cases hexists : fs.pathExists plan.outputDir with
  | true => rw [runUnder_of_exists turns simulator elapsed hexists] at h; cases h
  | false => exact Action.bind_eq_ok (runUnder_of_missing turns simulator elapsed hexists ▸ h)

theorem not_inSomeTrial (plan : Plan) (name : String) :
    ¬ Figure.InSomeTrial plan.outputDir (plan.outputDir.place ++ [name]) := by
  rintro ⟨t, ht⟩
  exact t.not_prefix_output plan.outputDir name ht

/-- The report of a second half that completes is made of the row log that the first half has
filled, and both are as they were written. -/
theorem Concluded.built {summary : Summary} {rows : Nat} {report : Path}
    {settled reported : FileSystem} {sent : List Sweep.Filed}
    (h : Concluded plan drained summary rows report fs settled reported fs')
    (hfiling : Filing plan sent drained fs) :
    ∃ content header shown,
      content = (Csv.encodeAll
        (Row.header plan.commands :: (sent.map (·.2)).map Row.record)).toUTF8 ∧
      fs'.readBytes plan.rowSinkPath = .ok content ∧
      Report.records plan.rowSinkPath content = .ok (header, shown) ∧
      settled.writeBytes plan.reportPath (Csv.encodeAll (header :: shown)).toUTF8 = .ok reported ∧
      fs'.readBytes report = .ok (Csv.encodeAll (header :: shown)).toUTF8 := by
  obtain ⟨text, hsettle⟩ := h.settle
  obtain ⟨made, hbuild, rfl⟩ := h.build
  obtain ⟨content, header, shown, hread, hrecords, hwrite, hpath⟩ := Report.build_eq_ok hbuild
  have hfinish := Figure.preserves_finishTrials plan reported
  rw [← h.finish] at hfinish
  refine ⟨content, header, shown, ?_, ?_, hrecords, hwrite, ?_⟩
  · obtain ⟨x, hx⟩ := hfiling.file
    obtain ⟨y, hy⟩ := FileSystem.readBytes_eq_ok hread
    have hsettled := FileSystem.preserves_writeBytes (mapError_eq_ok hsettle)
    rw [hsettled.same _ plan.rowSinkPath_ne_summaryPath] at hy
    cases hy.symm.trans hx
    rfl
  · have hreported : reported.readBytes plan.rowSinkPath = .ok content :=
      (FileSystem.preserves_writeBytes hwrite).readBytes hread plan.rowSinkPath_ne_reportPath
    apply hfinish.readBytes hreported
    rw [plan.place_rowSinkPath]
    exact not_inSomeTrial plan _
  · rw [hpath]
    apply hfinish.readBytes (FileSystem.readBytes_writeBytes hwrite)
    rw [plan.place_reportPath]
    exact not_inSomeTrial plan _

/-- What the second half leaves of a row log that the first half has filled. -/
theorem Concluded.tables {summary : Summary} {rows : Nat} {report : Path}
    {settled reported : FileSystem} {sent : List Sweep.Filed}
    (h : Concluded plan drained summary rows report fs settled reported fs')
    (hfiling : Filing plan sent drained fs) :
    (∃ content, fs'.readBytes plan.rowSinkPath = .ok content ∧
      Csv.readRecords content = .ok (Row.header plan.commands :: sent.map (·.2.record))) ∧
    ∃ content header records, fs'.readBytes report = .ok content ∧
      Csv.readRecords content = .ok (header :: records) ∧ records.length = sent.length := by
  obtain ⟨content, header, shown, rfl, hsink, hrecords, -, hreport⟩ := h.built hfiling
  rw [Row.header_eq_cons] at hrecords
  obtain ⟨hheader, hcount, hwidth⟩ := Report.shape_records rfl hrecords
  refine ⟨⟨_, hsink, ?_⟩, _, header, shown, hreport, ?_, ?_⟩
  · rw [Row.readRecords_encodeAll (Sweep.fits_of_reportsOn hfiling.reports), List.map_map]
    rfl
  · rw [hheader, List.map_cons] at hwidth ⊢
    exact Csv.readRecords_encodeAll rfl hwidth
  · rw [hcount, List.length_map, List.length_map]

/-- A run that completes reports every trial of the plan as finished, mapping by mapping, and none
as failed.  It answers their number, its row log has exactly one record for each of them under the
header, and its report has as many records. -/
theorem every_trial_of_completed (hvalid : plan.validate = .ok ()) (hsim : simulator.Confined)
    {summary : Summary} {rows : Nat} {report : Path}
    (h : runUnder turns plan simulator elapsed fs = (.ok (.completed summary rows report), fs')) :
    summary.finished = plan.trials.map Trial.name ∧ summary.failed = [] ∧
    rows = plan.mappings.length * plan.patterns.length ∧
    (∃ content records, fs'.readBytes plan.rowSinkPath = .ok content ∧
      Csv.readRecords content = .ok (Row.header plan.commands :: records) ∧
      (records.map fun r => (r[2]?, r[0]?)).Perm
        (plan.trials.map fun t => (some t.mapping.name, some t.pattern.name)) ∧
      ∀ t ∈ plan.trials, records.countP
        (fun r => r[2]? = some t.mapping.name ∧ r[0]? = some t.pattern.name) = 1) ∧
    report = plan.reportPath ∧
    ∃ content header records, fs'.readBytes report = .ok content ∧
      Csv.readRecords content = .ok (header :: records) ∧ records.length = rows := by
  obtain ⟨drained, swept, hsweep, hconclude⟩ := runUnder_eq_ok h
  obtain ⟨settled, reported, hconcluded⟩ := conclude_eq_ok hconclude
  obtain ⟨template, log, before, created, hcreate, hdrain⟩ := sweepUnder_eq_ok hsweep
  have hstart := Funnel.carries_create hcreate
  obtain rfl : log = plan.rowLog := (RowLog.create_eq_ok hcreate).1
  obtain ⟨sent, hfiling⟩ := exists_filing hsim template turns hstart
  rw [hdrain] at hfiling
  obtain ⟨finished, hperm, -, hnames, hcomplete⟩ := hfiling.trials
  obtain ⟨rfl, hfailed⟩ := hcomplete hconcluded.error
  have hcount : sent.length = plan.mappings.length * plan.patterns.length := by
    rw [← plan.length_trials, ← hperm.length_eq, List.length_map]
  have hrows : rows = sent.length := by
    have hwritten := hconcluded.written.symm.trans hfiling.written
    exact Except.ok.inj hwritten
  obtain ⟨⟨content, hread, hrecords⟩, htable⟩ := hconcluded.tables hfiling
  obtain ⟨made, hbuild, rfl⟩ := hconcluded.build
  rw [hconcluded.summary_eq, hrows]
  refine ⟨hnames, hfailed, hcount, ⟨content, _, hread, hrecords, ?_, ?_⟩, ?_, htable⟩
  · have hkeys : ∀ e ∈ sent, (e.2.record[2]?, e.2.record[0]?) =
        (some e.1.mapping.name, some e.1.pattern.name) := by
      intro e he
      rw [Prod.mk.injEq]
      exact (getElem_record (hfiling.reports e he) e.1).mpr rfl
    have hmap := List.map_congr_left hkeys
    have htrials := hperm.map fun t => (some t.mapping.name, some t.pattern.name)
    rw [List.map_map] at htrials ⊢
    exact hmap ▸ htrials
  · intro t ht
    rw [hfiling.count_record hvalid t, if_pos]
    rw [hnames]
    exact List.mem_map_of_mem ht
  · obtain ⟨_, _, _, -, -, -, hpath⟩ := Report.build_eq_ok hbuild
    exact hpath

def sampleRun : Except RunError RunOutcome × FileSystem :=
  runUnder [.thread 0, .background] (samplePlan [goodPattern]) sampleSimulator 0
    ⟨[(["base.yaml"], .file "a: 1\n".toUTF8 false)]⟩

def isCompleted : Except RunError RunOutcome → Bool
  | .ok (.completed ..) => true
  | _ => false

set_option maxRecDepth 100000 in
theorem every_trial_of_completed_sampleRun :
    (samplePlan [goodPattern]).validate = .ok () ∧ sampleSimulator.Confined ∧
      ∃ summary rows report fs', sampleRun = (.ok (.completed summary rows report), fs') ∧
        summary.finished = ["m/good"] ∧ summary.failed = [] ∧ rows = 1 ∧
        ∃ content record, fs'.readBytes (samplePlan [goodPattern]).rowSinkPath = .ok content ∧
          Csv.readRecords content = .ok [Row.header ["RD"], record] := by
  have hvalid : (samplePlan [goodPattern]).validate = .ok () := rfl
  have hcompletes : isCompleted sampleRun.1 = true := by decide +kernel
  cases hrun : sampleRun with
  | mk result fs' =>
    rw [hrun] at hcompletes
    match result, hcompletes, hrun with
    | .ok (.completed summary rows report), _, hrun =>
      obtain ⟨hfinished, hfailed, hrows, ⟨content, records, hread, hrecords, hkeys, -⟩, -⟩ :=
        every_trial_of_completed hvalid confined_sampleSimulator hrun
      have hone : records.length = 1 := by
        have hlength := hkeys.length_eq
        rwa [List.length_map] at hlength
      obtain ⟨record, rfl⟩ := List.length_eq_one_iff.mp hone
      exact ⟨hvalid, confined_sampleSimulator, summary, rows, report, fs', rfl, hfinished, hfailed,
        hrows, content, record, hread, hrecords⟩

end Run
end MappingSweep
