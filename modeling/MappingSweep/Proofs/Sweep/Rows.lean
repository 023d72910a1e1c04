import MappingSweep.Proofs.Row.Funnel
import MappingSweep.Proofs.Sweep.Kept

/-!
# Rows of finished trials

While workers and writer take turns, the rows that were sent are those of the trials that finished,
one row for each.  A worker's note lists its finished trials with their rows.
-/

namespace MappingSweep

/-- The open row log of a plan. -/
def Plan.rowLog (plan : Plan) : RowLog :=
  ⟨plan.rowSinkPath, plan.rowSinkPath.place, (Row.header plan.commands).length⟩

theorem Plan.place_rowSinkPath (plan : Plan) :
    plan.rowSinkPath.place = plan.outputDir.place ++ ["result.csv"] :=
  Path.place_join (by decide)

namespace Sweep

/-- A finished trial and its row. -/
abbrev Filed : Type :=
  Trial × Row

/-- The rows of the notes, in some order, are those that the funnel carries. -/
def RowsKept (plan : Plan) (notes : List (List Filed)) (w : World Funnel) : Prop :=
  ∃ sent : List Filed, sent.Perm notes.flatten ∧ (∀ e ∈ sent, e.2.ReportsOn e.1 plan) ∧
    Funnel.Carries plan.rowLog plan.commands (sent.map (·.2)) w.sink w.files

variable {plan : Plan} {template : Template} {simulator : Simulator} {α : Type}
  {notes : List (List Filed)} {w : World Funnel} {i : Nat} {note : List Filed}

theorem fits_of_reportsOn {sent : List Filed} (h : ∀ e ∈ sent, e.2.ReportsOn e.1 plan) :
    ∀ row ∈ sent.map (·.2), plan.rowLog.Fits row := by
  intro row hrow
  obtain ⟨e, he, rfl⟩ := List.mem_map.mp hrow
  exact (h e he).length_record

theorem not_inside_rowLog (plan : Plan) (t : Trial) :
    ¬ t.Inside plan.outputDir plan.rowLog.place := by
  rw [Plan.rowLog, Plan.place_rowSinkPath]
  exact t.not_prefix_output plan.outputDir "result.csv"

theorem RowsKept.of_grows {inside : Place → Prop} {fs : FileSystem} (h : RowsKept plan notes w)
    (hgrows : FileSystem.Grows inside w.files fs) (hout : ¬ inside plan.rowLog.place) :
    RowsKept plan notes { w with files := fs } := by
  obtain ⟨sent, hperm, hreports, hcarries⟩ := h
  refine ⟨sent, hperm, hreports, hcarries.of_entryAt_eq ?_⟩
  obtain ⟨x, hx⟩ := hcarries.file
  exact (hgrows.entryAt_eq hout hx).trans hx.symm

/-- A step on the files leaves the rows alone if it leaves the file alone. -/
theorem keeps_onFiles {a : Action SweepError FileSystem α} (inside : Place → Prop)
    (good : α → Prop) (hout : ¬ inside plan.rowLog.place)
    (hgrows : ∀ fs, FileSystem.Grows inside fs (a fs).2)
    (hgood : ∀ fs x, (a fs).1 = .ok x → good x) :
    Task.Keeps (RowsKept plan) i (fun last x => last = note ∧ good x) (fun last _ => last = note)
      note (World.onFiles a) := by
  apply Action.keeps_task_of_same
  · intro notes w _ h
    exact h.of_grows (hgrows w.files) hout
  · intro notes w _ _
    have hok := hgood w.files
    simp only [Action.within]
    cases hresult : (a w.files).1 with
    | ok x => exact ⟨trivial, hok x hresult⟩
    | error e => trivial

theorem flatten_set_append {note : List α} {notes : List (List α)} {i : Nat} (x : α)
    (h : notes[i]? = some note) :
    (notes.flatten ++ [x]).Perm (notes.set i (note ++ [x])).flatten := by
  induction notes generalizing i with
  | nil => simp at h
  | cons first notes ih =>
    cases i with
    | zero =>
      rw [List.getElem?_cons_zero] at h
      cases h
      simp only [List.set_cons_zero, List.flatten_cons, List.append_assoc]
      exact List.perm_append_comm.append_left _
    | succ i =>
      rw [List.getElem?_cons_succ] at h
      simp only [List.set_cons_succ, List.flatten_cons, List.append_assoc]
      exact (ih h).append_left _

/-- A row is never refused, since all rows before it fit. -/
theorem keeps_append {t : Trial} {row : Row} (hrow : row.ReportsOn t plan) :
    Task.Keeps (RowsKept plan) i (fun last _ => last = note ++ [(t, row)])
      (fun last _ => last = note) note (World.onSink (.change (funnelSink.append row))) := by
  have hsend : ∀ w : World Funnel, ∀ notes, RowsKept plan notes w →
      funnelSink.append row w.sink = .ok { w.sink with queue := w.sink.queue ++ [row] } := by
    rintro w notes ⟨sent, -, hreports, hcarries⟩
    exact hcarries.send_eq_ok (fits_of_reportsOn hreports) row
  apply Action.keeps_task fun _ => note ++ [(t, row)]
  · intro notes w hnote h
    have hok := hsend w notes h
    obtain ⟨sent, hperm, hreports, hcarries⟩ := h
    simp only [Action.within, Action.change, hok]
    refine ⟨sent ++ [(t, row)], ?_, ?_, ?_⟩
    · exact (hperm.append_right _).trans (flatten_set_append _ hnote)
    · intro e he
      rcases List.mem_append.mp he with he | he
      · exact hreports e he
      · rw [List.mem_singleton.mp he]
        exact hrow
    · rw [List.map_append, List.map_singleton]
      exact hcarries.send hok
  · intro notes w _ h
    simp only [Action.within, Action.change, hsend w notes h]

theorem RowsKept.keeps_task (hsim : simulator.Confined) (t : Trial) :
    Task.Keeps (RowsKept plan) i (fun last row => last = note ++ [(t, row)])
      (fun last _ => last = note) note (t.task plan template simulator funnelSink) := by
  have hout := not_inside_rowLog plan t
  have hfiles : ∀ {α : Type} (a : Action SweepError FileSystem α),
      (∀ fs, FileSystem.Grows (t.Inside plan.outputDir) fs (a fs).2) →
        Task.Keeps (RowsKept plan) i (fun last _ => last = note) (fun last _ => last = note) note
          (World.onFiles a) :=
    fun a ha => keeps_files fun notes w h => h.of_grows (ha w.files) hout
  have hread : Task.Keeps (RowsKept plan) i (fun last row => last = note ∧ row.ReportsOn t plan)
      (fun last _ => last = note) note
      (World.onFiles (t.readRow plan (.ofTrial plan.outputDir t))) :=
    keeps_onFiles _ (fun row : Row => row.ReportsOn t plan) hout (fun fs => .refl _ fs)
      fun _ _ => Trial.reportsOn_of_readRow
  apply (Sweep.keeps_task hfiles template
    (hfiles _ fun fs => t.grows_simulator fs hsim plan.outputDir) hread _ rfl).mono
      (fun _ _ => id) fun _ _ h => h.1
  rintro _ row ⟨rfl, hrow⟩
  exact keeps_append hrow

/-- What a worker's report says of its finished trials: those of the first patterns, all of them
unless it failed. -/
def ReportAgrees (m : Mapping) (patterns : List Pattern) (filed : List Filed)
    (report : WorkerReport) : Prop :=
  report.finished = filed.map (·.1.name) ∧
    ∃ finished rest, patterns = finished ++ rest ∧
      filed.map (·.1) = finished.map (Trial.mk m) ∧ (report.failure = none → rest = [])

theorem keeps_patternsThread (hsim : simulator.Confined) (m : Mapping) (patterns : List Pattern) :
    Thread.Keeps (RowsKept plan) i
      (fun last report => ∃ filed, last = note ++ filed ∧ ReportAgrees m patterns filed report) note
      (patternsThread plan template simulator funnelSink m patterns) := by
  induction patterns generalizing note with
  | nil => exact .ended ⟨[], by simp, rfl, [], [], rfl, rfl, fun _ => rfl⟩
  | cons p rest ih =>
    apply Thread.Keeps.andThen (RowsKept.keeps_task hsim ⟨m, p⟩)
    intro last result hresult
    cases result with
    | error e =>
      obtain rfl := hresult
      exact .ended ⟨[], by simp, rfl, [], p :: rest, rfl, rfl, by simp⟩
    | ok row =>
      obtain rfl := hresult
      apply Thread.Keeps.andThen ih
      rintro _ report ⟨filed, rfl, hnames, finished, more, hsplit, htrials, hall⟩
      refine .ended ⟨(⟨m, p⟩, row) :: filed, by simp, ?_, p :: finished, more, ?_, ?_, hall⟩
      · simp [hnames]
      · rw [hsplit, List.cons_append]
      · rw [List.map_cons, List.map_cons, htrials]

theorem keeps_worker (hsim : simulator.Confined) (m : Mapping) :
    Thread.Keeps (RowsKept plan) i (ReportAgrees m plan.patterns) []
      (worker plan template simulator funnelSink m) := by
  unfold worker
  refine Thread.Keeps.andThen (keeps_onFiles (fun _ => False) (fun _ => True) id
    (fun fs => Trial.grows_createDirectories fs _ _ _) fun _ _ _ => trivial) ?_
  intro note result hresult
  cases result with
  | error e =>
    obtain rfl := hresult
    exact .ended ⟨rfl, [], plan.patterns, rfl, rfl, by simp⟩
  | ok _ =>
    obtain ⟨rfl, -⟩ := hresult
    apply (keeps_patternsThread hsim m plan.patterns).mono
    rintro _ report ⟨filed, rfl, hreport⟩
    exact hreport

/-! ## Whole sweeps -/

/-- Reports that agree with their notes, mapping by mapping, agree as a whole. -/
theorem finished_of_agree {mappings : List Mapping} {patterns : List Pattern}
    {notes : List (List Filed)} {reports : List WorkerReport}
    (hnotes : notes.length = mappings.length) (hreports : reports.length = mappings.length)
    (hagree : ∀ (i : Nat) m filed report, mappings[i]? = some m → notes[i]? = some filed →
      reports[i]? = some report → ReportAgrees m patterns filed report) :
    (notes.flatten.map (·.1)).Sublist (mappings.flatMap fun m => patterns.map (Trial.mk m)) ∧
      reports.flatMap (·.finished) = notes.flatten.map (·.1.name) ∧
      ((∀ report ∈ reports, report.failure = none) →
        notes.flatten.map (·.1) = mappings.flatMap fun m => patterns.map (Trial.mk m)) := by
  induction mappings generalizing notes reports with
  | nil =>
    obtain rfl := List.eq_nil_of_length_eq_zero hnotes
    obtain rfl := List.eq_nil_of_length_eq_zero hreports
    exact ⟨.refl _, rfl, fun _ => rfl⟩
  | cons m mappings ih =>
    obtain ⟨filed, notes, rfl⟩ := List.exists_cons_of_length_eq_add_one hnotes
    obtain ⟨report, reports, rfl⟩ := List.exists_cons_of_length_eq_add_one hreports
    obtain ⟨hnames, finished, rest, hsplit, htrials, hall⟩ := hagree 0 m filed report rfl rfl rfl
    obtain ⟨hsublist, hrest, hcomplete⟩ := ih (Nat.succ.inj hnotes) (Nat.succ.inj hreports)
      fun i => hagree (i + 1)
    simp only [List.flatten_cons, List.map_append, List.flatMap_cons]
    refine ⟨?_, ?_, ?_⟩
    · refine List.Sublist.append ?_ hsublist
      rw [htrials, hsplit, List.map_append]
      exact List.sublist_append_left _ _
    · rw [hnames, hrest]
    · intro hfailures
      rw [hcomplete fun r hr => hfailures r (List.mem_cons_of_mem report hr), htrials, hsplit,
        hall (hfailures report List.mem_cons_self), List.append_nil]

theorem failures_of_error {reports : List WorkerReport} (h : (outcomeOf reports).error = none) :
    ∀ report ∈ reports, report.failure = none := by
  intro report hreport
  have hnone := List.findSome?_eq_none_iff.mp h report hreport
  exact Option.map_eq_none_iff.mp hnone

theorem failed_of_error {reports : List WorkerReport} (h : (outcomeOf reports).error = none) :
    (outcomeOf reports).summary.failed = [] := by
  apply List.filterMap_eq_nil_iff.mpr
  intro report hreport
  rw [failures_of_error h report hreport]
  rfl

theorem sound_workers (template : Template) (hsim : simulator.Confined) {fs : FileSystem}
    (hstart : Funnel.Carries plan.rowLog plan.commands [] { log := plan.rowLog } fs) :
    Pool.Sound (RowsKept plan)
      (fun i filed report => ∀ m, plan.mappings[i]? = some m →
        ReportAgrees m plan.patterns filed report)
      (plan.mappings.map fun _ => [])
      ⟨⟨fs, { log := plan.rowLog }⟩,
        plan.mappings.map (worker plan template simulator funnelSink)⟩ := by
  refine ⟨⟨[], ?_, by simp, hstart⟩, by simp, ?_⟩
  · have hflat : (plan.mappings.map fun _ => ([] : List Filed)).flatten = [] := by simp
    rw [hflat]
  · intro i note t hnote ht
    rw [List.getElem?_map] at hnote ht
    cases hm : plan.mappings[i]? with
    | none => rw [hm] at ht; cases ht
    | some m =>
      rw [hm] at hnote ht
      cases hnote
      cases ht
      apply (keeps_worker hsim m).mono
      intro filed report hagree m' hm'
      cases hm'
      exact hagree

theorem RowsKept.writerStep (h : RowsKept plan notes w) : RowsKept plan notes (writerStep w) := by
  obtain ⟨sent, hperm, hreports, hcarries⟩ := h
  exact ⟨sent, hperm, hreports, hcarries.take⟩

end Sweep

namespace Run

open Sweep (Filed RowsKept)

variable {plan : Plan} {template : Template} {simulator : Simulator} {fs : FileSystem}

/-- What a drained sweep has in its row log: a row for each trial that finished. -/
structure Filing (plan : Plan) (sent : List Filed) (drained : Drained) (fs : FileSystem) :
    Prop where
  written : drained.written = .ok sent.length
  file : plan.rowLog.Holds plan.commands (sent.map (·.2)) fs
  reports : ∀ e ∈ sent, e.2.ReportsOn e.1 plan
  trials : ∃ finished, (sent.map (·.1)).Perm finished ∧ finished.Sublist plan.trials ∧
    drained.outcome.summary.finished = finished.map Trial.name ∧
    (drained.outcome.error = none → finished = plan.trials ∧ drained.outcome.summary.failed = [])

/-- What every worker keeps holds when all have ended, right before the last rows are drained. -/
theorem exists_drained {ν : Type} {inv : List ν → World Funnel → Prop}
    {post : Nat → ν → WorkerReport → Prop} {notes : List ν} {log : RowLog}
    (hsound : Pool.Sound inv post notes ⟨⟨fs, { log }⟩,
      plan.mappings.map (Sweep.worker plan template simulator Sweep.funnelSink)⟩)
    (hwriter : ∀ notes w, inv notes w → inv notes (Sweep.writerStep w)) (turns : List Turn) :
    ∃ reports notes w, inv notes w ∧ notes.length = plan.mappings.length ∧
      reports.length = plan.mappings.length ∧
      (∀ (i : Nat) note report, notes[i]? = some note → reports[i]? = some report →
        post i note report) ∧
      drainUnder turns plan template simulator log fs =
        (⟨Sweep.outcomeOf reports, (w.sink.finish w.files).1⟩, (w.sink.finish w.files).2) := by
  obtain ⟨notes, hinv, hlength, hpost⟩ := hsound.finish hwriter turns
  have hcount := Pool.length_finish Sweep.writerStep ⟨⟨fs, { log }⟩,
    plan.mappings.map (Sweep.worker plan template simulator Sweep.funnelSink)⟩ turns
  generalize hpool : Pool.finish Sweep.writerStep turns ⟨⟨fs, { log }⟩,
    plan.mappings.map (Sweep.worker plan template simulator Sweep.funnelSink)⟩ = last at *
  obtain ⟨reports, w⟩ := last
  rw [List.length_map] at hcount
  refine ⟨reports, notes, w, hinv, hlength.trans hcount, hcount, hpost, ?_⟩
  simp only [drainUnder, Sweep.run, hpool]

theorem exists_filing (hsim : simulator.Confined) (template : Template) (turns : List Turn)
    (hstart : Funnel.Carries plan.rowLog plan.commands [] { log := plan.rowLog } fs) :
    ∃ sent, Filing plan sent (drainUnder turns plan template simulator plan.rowLog fs).1
      (drainUnder turns plan template simulator plan.rowLog fs).2 := by
  have hsound := Sweep.sound_workers template hsim hstart
  obtain ⟨reports, notes, w, ⟨sent, hperm, hreports, hcarries⟩, hlength, hcount, hagree, hdrain⟩ :=
    exists_drained hsound (fun _ _ h => h.writerStep) turns
  rw [hdrain]
  obtain ⟨hsublist, hnames, hcomplete⟩ := Sweep.finished_of_agree hlength hcount
    fun i m filed report hm hfiled hreport => hagree i filed report hfiled hreport m hm
  obtain ⟨rows, hholds, -, hend⟩ := hcarries.finish
  have hfits := Sweep.fits_of_reportsOn hreports
  rcases hend with ⟨rfl, hresult⟩ | ⟨row, rest, hsplit, hmisfit, -⟩
  · refine ⟨sent, by rw [hresult, List.length_map], hholds, hreports, ?_⟩
    refine ⟨notes.flatten.map (·.1), hperm.map _, hsublist, ?_, ?_⟩
    · rw [List.map_map]
      exact hnames
    · intro herror
      exact ⟨hcomplete (Sweep.failures_of_error herror), Sweep.failed_of_error herror⟩
  · rw [hsplit] at hfits
    exact absurd (hfits row (List.mem_append_right _ List.mem_cons_self)) hmisfit

theorem getElem_record {row : Row} {t : Trial} (h : row.ReportsOn t plan) (u : Trial) :
    row.record[2]? = some u.mapping.name ∧ row.record[0]? = some u.pattern.name ↔
      t.name = u.name := by
  have hmapping : row.record[2]? = some row.mapping := rfl
  have hpattern : row.record[0]? = some row.pattern := rfl
  rw [hmapping, hpattern, h.1, h.2.1, Trial.name_inj, Option.some_inj, Option.some_inj]

theorem Filing.count_record {sent : List Filed} {drained : Drained}
    (h : Filing plan sent drained fs) (hvalid : plan.validate = .ok ()) (t : Trial) :
    (sent.map (·.2.record)).countP
        (fun r => r[2]? = some t.mapping.name ∧ r[0]? = some t.pattern.name) =
      if t.name ∈ drained.outcome.summary.finished then 1 else 0 := by
  obtain ⟨finished, hperm, hsublist, hnames, -⟩ := h.trials
  have hnodup : (finished.map Trial.name).Nodup :=
    (hsublist.map Trial.name).nodup (Plan.nodup_trials hvalid)
  have hsame : ∀ e ∈ sent,
      decide (e.2.record[2]? = some t.mapping.name ∧ e.2.record[0]? = some t.pattern.name) = true ↔
        (e.1.name == t.name) = true := by
    intro e he
    rw [decide_eq_true_iff, beq_iff_eq]
    exact getElem_record (h.reports e he) t
  calc (sent.map (·.2.record)).countP
        (fun r => r[2]? = some t.mapping.name ∧ r[0]? = some t.pattern.name)
      = sent.countP (fun e => e.1.name == t.name) := by
        rw [List.countP_map]
        exact List.countP_congr hsame
    _ = (sent.map (·.1)).countP (fun u => u.name == t.name) := by
        rw [List.countP_map]
        rfl
    _ = finished.countP (fun u => u.name == t.name) := hperm.countP_eq _
    _ = (finished.map Trial.name).count t.name := by
        rw [List.count, List.countP_map]
        rfl
    _ = if t.name ∈ drained.outcome.summary.finished then 1 else 0 := by
        rw [hnodup.count, hnames]

/-- Whatever trials fail and in whatever order the workers go on, the writer refuses no row, and the
row log has one record for each trial that finished and none for any other. -/
theorem one_record_for_each_finished (hvalid : plan.validate = .ok ())
    (hsim : simulator.Confined) (template : Template) (turns : List Turn) {log : RowLog}
    {created : FileSystem}
    (hcreate : RowLog.create plan.rowSinkPath plan.commands fs = .ok (log, created)) :
    let swept := drainUnder turns plan template simulator log created
    let finished := swept.1.outcome.summary.finished
    swept.1.written = .ok finished.length ∧
      ∃ records, swept.2.HoldsTable plan.rowSinkPath.place
          (Row.header plan.commands :: records) ∧
        ∀ t : Trial, records.countP
            (fun r => r[2]? = some t.mapping.name ∧ r[0]? = some t.pattern.name) =
          if t.name ∈ finished then 1 else 0 := by
  intro swept finished
  have hstart := Funnel.carries_create hcreate
  obtain rfl : log = plan.rowLog := (RowLog.create_eq_ok hcreate).1
  obtain ⟨sent, hfiling⟩ := exists_filing hsim template turns hstart
  obtain ⟨done, hperm, -, hnames, -⟩ := hfiling.trials
  refine ⟨?_, sent.map (·.2.record), ?_, hfiling.count_record hvalid⟩
  · have hlength : finished.length = sent.length := by
      simp only [finished, swept, hnames]
      rw [List.length_map, ← hperm.length_eq, List.length_map]
    rw [hlength]
    exact hfiling.written
  · have htable := hfiling.file.holdsTable rfl (Sweep.fits_of_reportsOn hfiling.reports)
    rwa [List.map_map] at htable

/-- The output directory of the plan with a new row log. -/
def sampleFiles : FileSystem :=
  ⟨[(["log", "result.csv"], .file (Csv.encode (Row.header ["RD"])).toUTF8 false),
    (["log"], .directory)]⟩

theorem create_sampleFiles :
    RowLog.create (samplePlan [goodPattern, badPattern]).rowSinkPath
      (samplePlan [goodPattern, badPattern]).commands ⟨[(["log"], .directory)]⟩ =
        .ok ((samplePlan [goodPattern, badPattern]).rowLog, sampleFiles) := by
  unfold sampleFiles
  rfl

def sampleSweep : Drained × FileSystem :=
  drainUnder [.thread 0, .background] (samplePlan [goodPattern, badPattern]) (.ofConfig (.mapOf []))
    sampleSimulator (samplePlan [goodPattern, badPattern]).rowLog sampleFiles

set_option maxRecDepth 100000 in
theorem one_record_for_each_finished_sampleSweep :
    (samplePlan [goodPattern, badPattern]).validate = .ok () ∧ sampleSimulator.Confined ∧
      sampleSweep.1.outcome.summary.finished = ["m/good"] ∧ sampleSweep.1.written = .ok 1 ∧
      ∃ records, sampleSweep.2.HoldsTable ["log", "result.csv"] (Row.header ["RD"] :: records) ∧
        records.countP (fun r => r[2]? = some "m" ∧ r[0]? = some "good") = 1 ∧
        records.countP (fun r => r[2]? = some "m" ∧ r[0]? = some "bad") = 0 := by
  have hvalid : (samplePlan [goodPattern, badPattern]).validate = .ok () := rfl
  have hfinished : sampleSweep.1.outcome.summary.finished = ["m/good"] := by decide +kernel
  obtain ⟨hwritten, records, htable, hcount⟩ := one_record_for_each_finished hvalid
    confined_sampleSimulator (.ofConfig (.mapOf [])) [.thread 0, .background] create_sampleFiles
  have hgood := hcount ⟨⟨"m", by decide⟩, goodPattern⟩
  have hbad := hcount ⟨⟨"m", by decide⟩, badPattern⟩
  rw [if_pos (hfinished ▸ List.mem_singleton_self _)] at hgood
  rw [if_neg] at hbad
  · refine ⟨hvalid, confined_sampleSimulator, hfinished, ?_, records, htable, hgood, hbad⟩
    exact hwritten.trans (congrArg (fun names : List String => Except.ok names.length) hfinished)
  · exact fun hmem => absurd (List.mem_singleton.mp (hfinished ▸ hmem)) (by decide)

end Run
end MappingSweep
