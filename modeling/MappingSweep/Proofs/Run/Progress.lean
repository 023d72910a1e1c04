import MappingSweep.Proofs.Report.Progress
import MappingSweep.Proofs.Row.Log
import MappingSweep.Proofs.Run.Failure
import MappingSweep.Proofs.Sweep.Progress

/-!
# Runs that complete

A run whose simulator serves every trial completes, in any order of turns: it makes the output
directory, the row log and the trials, and nothing is in the way of its own files.  That is so
unless a mapping has the name of one of them.  Such a name is accepted, and the run then fails.
-/

namespace MappingSweep

namespace Plan

variable {plan : Plan} {fs : FileSystem}

/-- The paths that a run makes are within the limits of a file system. -/
structure WithinLimits (plan : Plan) : Prop where
  own : ∀ name ∈ ownNames, (plan.outputDir.join name).Short
  needed : ∀ t ∈ plan.trials, ∀ f ∈ TrialFile.needed, (f.path (.ofTrial plan.outputDir t)).Short

/-- The plan is accepted, its base configuration loads, and its output directory is not there, in
whatever way its path leads to it, but can be made. -/
structure Ready (plan : Plan) (template : Template) (fs : FileSystem) : Prop where
  valid : plan.validate = .ok ()
  rooted : fs.Rooted
  missing : fs.pathExists plan.outputDir = false
  seen : ¬ plan.Overlooked fs
  creatable : (fs.createDirectories plan.outputDir).1 = .ok ()
  loads : Template.load fs plan.baseConfig = .ok template
  limits : plan.WithinLimits

theorem WithinLimits.trialsFit (h : plan.WithinLimits) (hfree : plan.outputDir.NulFree) :
    Sweep.TrialsFit plan :=
  fun t ht => ⟨hfree, h.needed t ht⟩

theorem isName_own {name : String} (h : name ∈ ownNames) :
    IsName name ∧ '\x00' ∉ name.toList := by
  simp only [ownNames, List.mem_cons, List.not_mem_nil, or_false] at h
  rcases h with rfl | rfl | rfl
  · decide
  · decide
  · decide

/-- In an open output directory the files of the run are reached. -/
theorem WithinLimits.locate_own (h : plan.WithinLimits) (hfree : plan.outputDir.NulFree)
    (hopen : fs.Open plan.outputDir.stations) {name : String} (hname : name ∈ ownNames) :
    fs.locate (plan.outputDir.join name) = .ok (plan.outputDir.join name).place :=
  FileSystem.locate_join hopen (isName_own hname).1 (isName_own hname).2 hfree (h.own name hname)

theorem WithinLimits.exists_write_own (h : plan.WithinLimits) (hfree : plan.outputDir.NulFree)
    (hopen : fs.Open plan.outputDir.stations) {name : String} (hname : name ∈ ownNames)
    (hnone : fs.entryAt (plan.outputDir.place ++ [name]) = none) (content : ByteArray) :
    ∃ fs', fs.writeBytes (plan.outputDir.join name) content = .ok fs' := by
  rw [← Path.place_join (isName_own hname).1] at hnone
  exact ⟨_, FileSystem.writeBytes_of_missing content (h.locate_own hfree hopen hname)
    (Path.endsWithSlash_join (isName_own hname).1) hnone⟩

/-- What is in the output directory is not there before the directory is. -/
theorem missing_of_output (hrooted : fs.Rooted) (hnone : fs.entryAt plan.outputDir.place = none)
    {q : Place} (hbelow : plan.outputDir.place <+: q) (hq : q ∉ plan.outputDir.stations) :
    (fs.createDirectories plan.outputDir).2.entryAt q = none := by
  rw [FileSystem.entryAt_createDirectories fs hq]
  exact hrooted _ q hbelow hnone

/-- Making the output directory makes no files in it. -/
theorem not_isFile_of_output (hrooted : fs.Rooted)
    (hnone : fs.entryAt plan.outputDir.place = none) {q : Place}
    (hbelow : plan.outputDir.place <+: q) :
    ¬ (fs.createDirectories plan.outputDir).2.IsFile q := by
  intro hfile
  obtain ⟨content, x, hentry⟩ :=
    ((FileSystem.grows_createDirectories fs plan.outputDir).isFile_iff id).mp hfile
  rw [hrooted _ q hbelow hnone] at hentry
  cases hentry

end Plan

namespace Plan.Ready

variable {plan : Plan} {template : Template} {fs : FileSystem}

theorem missing_place (h : plan.Ready template fs) : fs.entryAt plan.outputDir.place = none :=
  Run.entryAt_outputDir h.missing h.seen h.creatable

theorem nonempty (h : plan.Ready template fs) : plan.outputDir.text.isEmpty = false :=
  FileSystem.nonempty_of_ne_directory (by rw [h.missing_place]; simp)

theorem nulFree (h : plan.Ready template fs) : plan.outputDir.NulFree :=
  (FileSystem.fit_of_createDirectories h.nonempty h.creatable).nulFree

end Plan.Ready

namespace Run

variable {plan : Plan} {template : Template} {simulator : Simulator} {fs swept settled : FileSystem}

theorem create_rowLog (hlimits : plan.WithinLimits) (hfree : plan.outputDir.NulFree)
    (hopen : fs.Open plan.outputDir.stations) (hnone : fs.entryAt plan.rowSinkPath.place = none) :
    RowLog.create plan.rowSinkPath plan.commands fs =
      .ok (plan.rowLog, fs.set plan.rowSinkPath.place
        (.file (Csv.encode (Row.header plan.commands)).toUTF8 false)) := by
  exact RowLog.create_of_missing plan.commands
    (hlimits.locate_own hfree hopen List.mem_cons_self) (Path.endsWithSlash_join (by decide)) hnone

/-- With the output directory and the row log just made every worker can start. -/
theorem working_created (hfree : plan.Unobstructed) (hrooted : fs.Rooted)
    (hnone : fs.entryAt plan.outputDir.place = none)
    (hopen : (fs.createDirectories plan.outputDir).2.Open plan.outputDir.stations)
    {created : FileSystem} {log : RowLog}
    (hcreate : RowLog.create plan.rowSinkPath plan.commands
      (fs.createDirectories plan.outputDir).2 = .ok (log, created)) :
    Sweep.Working plan (plan.mappings.map fun _ => none) ⟨created, { log := plan.rowLog }⟩ := by
  obtain rfl : log = plan.rowLog := (RowLog.create_eq_ok hcreate).1
  obtain ⟨-, -, x, rfl⟩ := RowLog.create_eq_ok hcreate
  have hcarries := Funnel.carries_create hcreate
  have hother : ∀ q, q ≠ plan.outputDir.place ++ ["result.csv"] →
      ((fs.createDirectories plan.outputDir).2.set plan.rowSinkPath.place
        (.file (Csv.encode (Row.header plan.commands)).toUTF8 x)).entryAt q =
          (fs.createDirectories plan.outputDir).2.entryAt q :=
    fun q hq => FileSystem.entryAt_set_of_ne _ _ (plan.place_rowSinkPath ▸ hq.symm)
  refine ⟨?_, ⟨[], by simp, hcarries⟩, ?_, ?_, ?_⟩
  · intro q hq
    rw [hother q fun heq => hfree.own _ List.mem_cons_self (heq ▸ hq)]
    exact hopen q hq
  · intro name hname hne
    rw [hother _ (by simpa using hne)]
    exact Plan.missing_of_output hrooted hnone (List.prefix_append _ _) (hfree.own name hname)
  · intro i m hm _
    have hmem : m ∈ plan.mappings := List.mem_of_getElem? hm
    refine ⟨?_, fun q hq => ?_⟩
    · rw [FileSystem.IsFile, hother _ (hfree.place_ne hmem List.mem_cons_self).symm]
      exact Plan.not_isFile_of_output hrooted hnone (List.prefix_append _ _)
    · rw [hother q fun heq => Plan.not_inTrialOf_of_output m _ (heq ▸ hq)]
      exact Plan.missing_of_output hrooted hnone ((List.prefix_append _ _).trans hq.prefix)
        fun hroad => hfree.not_inTrialOf hmem hroad hq
  · intro i m gs _ hnote
    rw [List.getElem?_map] at hnote
    obtain ⟨_, -, hnone⟩ := Option.map_eq_some_iff.mp hnote
    cases hnone

theorem rooted_baseAlone (text : String) : (baseAlone text).Rooted := by
  have hground : FileSystem.Grounded {} ["base.yaml"] := by
    intro p hbelow hne
    rcases List.prefix_cons_iff.mp hbelow with rfl | ⟨rest, rfl, hrest⟩
    · rfl
    · rw [List.prefix_nil.mp hrest] at hne
      exact absurd rfl hne
  exact FileSystem.rooted_empty.set hground _

/-- A plan of one mapping and one trial. -/
def planNaming (m : Mapping) : Plan :=
  { samplePlan [goodPattern] with mappings := [m] }

theorem ready_planNaming {m : Mapping}
    (hload : Template.load (baseAlone "a: 1\n") ⟨"base.yaml"⟩ = .ok template)
    (hlimits : (planNaming m).WithinLimits) :
    (planNaming m).Ready template (baseAlone "a: 1\n") := by
  have hnotdir : (baseAlone "a: 1\n").isDirectory (Path.place ⟨"log"⟩) = false := by decide +kernel
  have hmissing : (baseAlone "a: 1\n").pathExists ⟨"log"⟩ = false := by decide +kernel
  have hmade : ((baseAlone "a: 1\n").createDirectories ⟨"log"⟩).1 = .ok () := by decide +kernel
  refine ⟨rfl, rooted_baseAlone _, hmissing, ?_, hmade, hload, hlimits⟩
  rintro ⟨hdir, -⟩
  exact Bool.false_ne_true (hnotdir.symm.trans hdir)

/-- The rows of a sweep can be reported as soon as there are some. -/
theorem exists_build (hlimits : plan.WithinLimits) (hfree : plan.outputDir.NulFree)
    (hopen : fs.Open plan.outputDir.stations) {sent : List Sweep.Filed}
    (hsome : sent ≠ []) (hreports : ∀ e ∈ sent, e.2.ReportsOn e.1 plan)
    (hholds : plan.rowLog.Holds plan.commands (sent.map (·.2)) fs)
    (hnone : fs.entryAt (plan.outputDir.place ++ ["result_report.csv"]) = none) :
    ∃ report fs', Report.build plan.rowSinkPath plan.reportPath fs = .ok (report, fs') := by
  have hread : fs.readBytes plan.rowSinkPath = .ok (Csv.encodeAll
      (Row.header plan.commands :: (sent.map (·.2)).map Row.record)).toUTF8 :=
    FileSystem.readBytes_eq_ok_iff.mpr ⟨hlimits.locate_own hfree hopen List.mem_cons_self,
      Path.endsWithSlash_join (by decide), hholds⟩
  obtain ⟨header, shown, hrecords⟩ := Report.exists_records plan.rowSinkPath
    (List.map_eq_nil_iff.not.mpr hsome) (Sweep.fits_of_reportsOn hreports)
  obtain ⟨fs', hwrite⟩ := hlimits.exists_write_own hfree hopen (by decide) hnone
    (Csv.encodeAll (header :: shown)).toUTF8
  change fs.writeBytes plan.reportPath _ = _ at hwrite
  refine ⟨⟨plan.reportPath, shown.length, header.length⟩, fs', ?_⟩
  simp only [Report.build, Report.attempt, Report.readSink, hread, hrecords, bind, Except.bind,
    hwrite]
  rfl

/-- The trials of a sweep without failures have no directories in theirs, and the files of the run
bring none there. -/
theorem plain_of_tidy (h : ∀ t ∈ plan.trials, t.Tidy plan.outputDir fs) :
    Figure.Plain (Figure.InsideTrial plan) fs := by
  rintro q ⟨t, ht, hin, hne⟩
  exact h t ht q hin hne

/-- The second half of a run completes after a sweep without failures. -/
theorem exists_concluded (hlimits : plan.WithinLimits) (hfree : plan.outputDir.NulFree)
    (hworked : Worked plan swept) {drained : Drained} {sent : List Sweep.Filed}
    (hfiling : Filing plan sent drained swept) (hsome : sent ≠ [])
    (herror : drained.outcome.error = none) (elapsed : Float) :
    ∃ settled fs', swept.writeText plan.summaryPath
        (drained.outcome.summary.document elapsed) = .ok settled ∧
      conclude plan drained elapsed swept =
        (.ok (.completed drained.outcome.summary sent.length plan.reportPath), fs') := by
  obtain ⟨settled, hwrite⟩ := hlimits.exists_write_own hfree hworked.road (by decide)
    (hworked.own "summary.json" (by decide) (by decide))
    (drained.outcome.summary.document elapsed).toUTF8
  change swept.writeBytes plan.summaryPath _ = _ at hwrite
  have hsummary : swept.writeText plan.summaryPath
      (drained.outcome.summary.document elapsed) = .ok settled := by
    rw [FileSystem.writeText, hwrite, mapError_ok]
  have hsettled := FileSystem.preserves_writeBytes hwrite
  obtain ⟨report, reported, hbuild⟩ := exists_build hlimits hfree
    (fun q hq => hsettled.directory q (hworked.road q hq)) hsome hfiling.reports (by
      obtain ⟨x, hx⟩ := hfiling.file
      exact ⟨x, (hsettled.same _ plan.rowSinkPath_ne_summaryPath).trans hx⟩) (by
      rw [hsettled.same _ (plan.place_summaryPath ▸ by simp)]
      exact hworked.own _ (by decide) (by decide))
  obtain ⟨content, header, records, -, -, hreport, hpath⟩ := Report.build_eq_ok hbuild
  have hplain : Figure.Plain (Figure.InsideTrial plan) reported := fun q hq =>
    FileSystem.ne_directory_of_writeBytes hreport
      (FileSystem.ne_directory_of_writeBytes hwrite (plain_of_tidy hworked.tidy q hq))
  obtain ⟨failed, fs', hfinish⟩ := Figure.exists_finishTrials hplain
  refine ⟨settled, fs', hsummary, ?_⟩
  have hsettle := settle_of_summary hsummary drained.written
  simp only [conclude, Action.bind_apply, hsettle, hfiling.written, herror, Action.mapError,
    Action.produce, hbuild, hfinish, hpath, mapError_ok]
  rfl

/-! ## The whole run -/

theorem sweepUnder_of_created (turns : List Turn) (simulator : Simulator) {created : FileSystem}
    (hload : Template.load fs plan.baseConfig = .ok template)
    (hmade : (fs.createDirectories plan.outputDir).1 = .ok ())
    (hcreate : RowLog.create plan.rowSinkPath plan.commands
      (fs.createDirectories plan.outputDir).2 = .ok (plan.rowLog, created)) :
    sweepUnder turns plan simulator fs =
      (.ok (drainUnder turns plan template simulator plan.rowLog created).1,
        (drainUnder turns plan template simulator plan.rowLog created).2) := by
  rw [sweepUnder_of_load turns simulator hload]
  have hcreated : createOutput plan.outputDir fs =
      (.ok (), (fs.createDirectories plan.outputDir).2) := by
    simp only [createOutput, Action.mapError, hmade, mapError_ok]
  have hlogged : (Action.produce (RowLog.create plan.rowSinkPath plan.commands)).mapError
      RunError.ofSweep (fs.createDirectories plan.outputDir).2 = (.ok plan.rowLog, created) := by
    simp only [Action.mapError, Action.produce, hcreate, mapError_ok]
  exact (Action.bind_of_ok hcreated).trans (Action.bind_of_ok hlogged)

/-- The first half of a healthy run ends without failures. -/
theorem exists_swept (hready : plan.Ready template fs)
    (hhealthy : simulator.Healthy plan template) (hfree : plan.Unobstructed)
    (turns : List Turn) :
    ∃ drained swept sent, sweepUnder turns plan simulator fs = (.ok drained, swept) ∧
      drained.outcome.error = none ∧ Worked plan swept ∧ Filing plan sent drained swept := by
  have hopen := FileSystem.open_of_createDirectories hready.nonempty hready.creatable
  have hcreate := create_rowLog hready.limits hready.nulFree hopen (by
    rw [plan.place_rowSinkPath]
    exact Plan.missing_of_output hready.rooted hready.missing_place (List.prefix_append _ _)
      (hfree.own _ List.mem_cons_self))
  generalize FileSystem.set _ plan.rowSinkPath.place _ = created at hcreate
  have hworking := working_created hfree hready.rooted hready.missing_place hopen hcreate
  obtain ⟨herror, hworked⟩ := worked_drainUnder hready.valid hfree hhealthy
    (hready.limits.trialsFit hready.nulFree) hworking turns
  obtain ⟨sent, hfiling⟩ := exists_filing hhealthy.confined template turns
    (Funnel.carries_create hcreate)
  exact ⟨_, _, sent, sweepUnder_of_created turns simulator hready.loads hready.creatable hcreate,
    herror, hworked, hfiling⟩

/-- A sweep without failures has a row for every trial, and there are trials. -/
theorem Filing.complete {drained : Drained} {sent : List Sweep.Filed}
    (h : Filing plan sent drained swept) (herror : drained.outcome.error = none)
    (hvalid : plan.validate = .ok ()) :
    drained.outcome.summary = ⟨plan.trials.map Trial.name, []⟩ ∧
      sent.length = plan.mappings.length * plan.patterns.length ∧ sent ≠ [] := by
  obtain ⟨finished, hperm, -, hnames, hcomplete⟩ := h.trials
  obtain ⟨rfl, hfailed⟩ := hcomplete herror
  have hcount : sent.length = plan.mappings.length * plan.patterns.length := by
    rw [← List.length_map, hperm.length_eq, plan.length_trials]
  refine ⟨?_, hcount, ?_⟩
  · cases hshown : drained.outcome.summary with
    | mk names failed =>
      rw [hshown] at hnames hfailed
      exact congrArg₂ Summary.mk hnames hfailed
  · obtain ⟨hmappings, hpatterns⟩ := Plan.lists_of_validate hvalid
    rw [← List.length_pos_iff, hcount]
    exact Nat.mul_pos (List.length_pos_iff.mpr hmappings) (List.length_pos_iff.mpr hpatterns)

/-- In no order of turns is a run of a healthy simulator kept from completing, as long as nothing is
in the way of its own files.  It finishes all trials, and leaves the summary and a report with a
record for each of them. -/
theorem completes_of_healthy (hready : plan.Ready template fs)
    (hhealthy : simulator.Healthy plan template) (hfree : plan.Unobstructed)
    (turns : List Turn) (elapsed : Float) :
    let summary : Summary := ⟨plan.trials.map Trial.name, []⟩
    let count := plan.mappings.length * plan.patterns.length
    ∃ fs', runUnder turns plan simulator elapsed fs =
        (.ok (.completed summary count plan.reportPath), fs') ∧
      fs'.readBytes plan.summaryPath = .ok (summary.document elapsed).toUTF8 ∧
      ∃ content header records, fs'.readBytes plan.reportPath = .ok content ∧
        Csv.readRecords content = .ok (header :: records) ∧ records.length = count := by
  intro summary count
  obtain ⟨drained, swept, sent, hsweep, herror, hworked, hfiling⟩ :=
    exists_swept hready hhealthy hfree turns
  obtain ⟨hsummary, hcount, hsome⟩ := hfiling.complete herror hready.valid
  obtain ⟨settled, fs', hsettled, hconclude⟩ := exists_concluded hready.limits hready.nulFree
    hworked hfiling hsome herror elapsed
  have hkept := (preserves_conclude hsettled drained.written).readBytes
    (FileSystem.readBytes_writeBytes (mapError_eq_ok hsettled)) (not_finishes_summary plan)
  obtain ⟨_, reported, hconcluded⟩ := conclude_eq_ok hconclude
  have htable := (hconcluded.tables hfiling).2
  rw [hconclude] at hkept
  rw [hsummary] at hconclude hkept
  rw [hcount] at hconclude htable
  refine ⟨fs', ?_, hkept, htable⟩
  rw [runUnder_of_missing turns simulator elapsed hready.missing]
  exact (Action.bind_of_ok hsweep).trans hconclude

theorem completes_of_healthy_samplePlan :
    ∃ template fs', (samplePlan [goodPattern]).Ready template (baseAlone "a: 1\n") ∧
      sampleSimulator.Healthy (samplePlan [goodPattern]) template ∧
      (samplePlan [goodPattern]).Unobstructed ∧
      run (samplePlan [goodPattern]) sampleSimulator 0 (baseAlone "a: 1\n") =
        (.ok (.completed ⟨["m/good"], []⟩ 1 ⟨"log/result_report.csv"⟩), fs') := by
  have hmap : (Template.load (baseAlone "a: 1\n") ⟨"base.yaml"⟩).isOk = true := by
    decide +kernel
  cases hload : Template.load (baseAlone "a: 1\n") ⟨"base.yaml"⟩ with
  | error e => rw [hload] at hmap; cases hmap
  | ok template =>
    have hready : (samplePlan [goodPattern]).Ready template (baseAlone "a: 1\n") :=
      ready_planNaming hload ⟨by decide +kernel, by decide +kernel⟩
    have hhealthy : sampleSimulator.Healthy (samplePlan [goodPattern]) template :=
      healthy_sampleSimulator rfl (by decide)
    have hfree : (samplePlan [goodPattern]).Unobstructed :=
      Plan.unobstructed_of_plain (by decide) (by decide)
    obtain ⟨fs', hrun, -⟩ := completes_of_healthy hready hhealthy hfree [] 0
    exact ⟨template, fs', hready, hhealthy, hfree, hrun⟩

/-- A mapping that has the name of the row log. -/
def namesake : Mapping :=
  ⟨"result.csv", by decide⟩

/-- The name is accepted, but a run with it does not complete. -/
theorem namesake_in_the_way :
    ∃ template, (planNaming namesake).Ready template (baseAlone "a: 1\n") ∧
      sampleSimulator.Healthy (planNaming namesake) template ∧
      isCompleted (run (planNaming namesake) sampleSimulator 0 (baseAlone "a: 1\n")).1 =
        false := by
  have hmap : (Template.load (baseAlone "a: 1\n") ⟨"base.yaml"⟩).isOk = true := by
    decide +kernel
  cases hload : Template.load (baseAlone "a: 1\n") ⟨"base.yaml"⟩ with
  | error e => rw [hload] at hmap; cases hmap
  | ok template =>
    refine ⟨template, ?_, ?_, ?_⟩
    · exact ready_planNaming hload ⟨by decide +kernel, by decide +kernel⟩
    · exact healthy_sampleSimulator rfl (by simp [planNaming, samplePlan, Plan.trials, goodPattern])
    · exact not_completed_of_own_name confined_sampleSimulator List.mem_cons_self (by decide)

end Run
end MappingSweep
