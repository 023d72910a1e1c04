import MappingSweep.Proofs.Report.Faithful
import MappingSweep.Proofs.Run.Completed
import MappingSweep.Proofs.Sweep.Progress
import MappingSweep.Proofs.Sweep.Source

/-!
# What a report says of the trials

The report of a completed run has a record for each trial, under its trimmed names, and the counts
of a record are in the trial's directory.  Names that differ in blanks only look the same there, and
commands that are called like a measured column have their counts shown as such measures.
-/

namespace MappingSweep

/-- The cells of a record that name a trial. -/
def Report.namesIn (record : List String) : Option String × Option String :=
  (record[0]?, record[2]?)

/-- The names that a report shows of a trial. -/
def Trial.shownNames (t : Trial) : Option String × Option String :=
  (some (Text.trim t.pattern.name), some (Text.trim t.mapping.name))

/-- The counts in the record are those of the trial's command count log. -/
def Trial.CountedIn (t : Trial) (plan : Plan) (fs : FileSystem) (record : List String) : Prop :=
  ∃ counts, CommandCounts.read fs (TrialPaths.ofTrial plan.outputDir t).commandCountLog =
      .ok counts ∧
    ∀ (k : Nat) command, plan.commands[k]? = some command → Text.trim command = command ∧
      ∃ n, Keyed.get? command counts = some n ∧ record[9 + k]? = some (Row.wordText n)

theorem Trial.CountedIn.of_readBytes {t : Trial} {plan : Plan} {fs fs' : FileSystem}
    {record : List String} (h : t.CountedIn plan fs record)
    (hread : fs'.readBytes (TrialPaths.ofTrial plan.outputDir t).commandCountLog =
      fs.readBytes (TrialPaths.ofTrial plan.outputDir t).commandCountLog) :
    t.CountedIn plan fs' record := by
  obtain ⟨counts, hcounts, hcommands⟩ := h
  exact ⟨counts, (CommandCounts.read_of_readBytes hread).trans hcounts, hcommands⟩

namespace Report

open Sweep (Filed)

variable {plan : Plan} {sent : List Filed} {shown : List (List String)}

/-- The report of a row log has its trimmed header and its records in the form of the columns. -/
theorem renders_of_records {sink : Path} {commands header : List String} {rows : List Row}
    (hfits : ∀ row ∈ rows, row.record.length = (Row.header commands).length)
    (h : records sink (Csv.encodeAll (Row.header commands :: rows.map Row.record)).toUTF8 =
      .ok (header, shown)) :
    header = (Row.header commands).map Text.trim ∧
      Renders (Row.header commands) (rows.map Row.record) shown := by
  obtain ⟨first, table, htable, -, -, rfl, hall⟩ := records_eq_ok_iff.mp h
  rw [Row.readRecords_encodeAll hfits] at htable
  obtain ⟨rfl, rfl⟩ := List.cons.inj (Except.ok.inj htable)
  have hwidth := length_of_readRecords (Row.readRecords_encodeAll hfits)
  exact ⟨rfl, renders_of_formatCells hwidth hall⟩

/-- The kinds of the first columns are those of texts, whatever the commands are. -/
theorem kindOf_identity {name : String} (h : name ∈ Row.identityColumns) :
    kindOf name = .text := by
  simp only [Row.identityColumns, List.mem_cons, List.not_mem_nil, or_false] at h
  rcases h with rfl | rfl | rfl <;> decide +kernel

section

variable (h : Renders (Row.header plan.commands) (sent.map (·.2.record)) shown)
include h

theorem Renders.length_eq : sent.length = shown.length := by
  rw [h.rows, List.length_map]

theorem Renders.exists_cell {i j : Nat} (hi : i < sent.length) (hi' : i < shown.length)
    {name cell : String} (hname : (Row.header plan.commands)[j]? = some name)
    (hcell : sent[i].2.record[j]? = some cell) :
    ∃ text, shown[i][j]? = some text ∧ (kindOf name).Renders cell text := by
  have hcells := h.cells i j name cell hname (by
    rw [List.getElem?_map, List.getElem?_eq_getElem hi, Option.map_some, Option.bind_some, hcell])
  rwa [List.getElem?_eq_getElem hi', Option.bind_some] at hcells

theorem Renders.names (hreports : ∀ e ∈ sent, e.2.ReportsOn e.1 plan) {i : Nat}
    (hi : i < sent.length) (hi' : i < shown.length) :
    namesIn shown[i] = sent[i].1.shownNames := by
  obtain ⟨hmapping, hpattern, -⟩ := hreports sent[i] (List.getElem_mem hi)
  have hname : ∀ (j : Nat) name cell, name ∈ Row.identityColumns →
      (Row.header plan.commands)[j]? = some name → sent[i].2.record[j]? = some cell →
        shown[i][j]? = some (Text.trim cell) := by
    intro j name cell hidentity hcolumn hcell
    obtain ⟨text, htext, hrenders⟩ := h.exists_cell hi hi' hcolumn hcell
    have hformat := hrenders.format
    rw [kindOf_identity hidentity, ColumnKind.format_text] at hformat
    rw [htext, ← Except.ok.inj hformat]
  have hfirst : shown[i][0]? = some (Text.trim sent[i].1.pattern.name) :=
    hpattern ▸ hname 0 "pattern" _ (by decide) rfl rfl
  have hthird : shown[i][2]? = some (Text.trim sent[i].1.mapping.name) :=
    hmapping ▸ hname 2 "mapping" _ (by decide) rfl rfl
  exact Prod.ext hfirst hthird

end

end Report

namespace Run

open Sweep (Filed)

variable {plan : Plan} {simulator : Simulator} {turns : List Turn} {elapsed : Float}
  {fs fs' : FileSystem} {drained : Drained}

theorem trial_eq_of_record (hvalid : plan.validate = .ok ()) {e e' : Filed}
    (he : e.1 ∈ plan.trials) (he' : e'.1 ∈ plan.trials) (hreports : e.2.ReportsOn e.1 plan)
    (hreports' : e'.2.ReportsOn e'.1 plan) (hrecord : e'.2.record = e.2.record) : e'.1 = e.1 := by
  have hname : e'.1.name = e.1.name := by
    have hcells := (getElem_record hreports e.1).mpr rfl
    rw [← hrecord] at hcells
    exact (getElem_record hreports' e.1).mp hcells
  exact List.inj_on_of_nodup_map (Plan.nodup_trials hvalid) he' he hname

/-- Where the report can be read, there is a way to the output directory. -/
theorem open_outputDir_of_report {content : ByteArray}
    (h : fs.readBytes plan.reportPath = .ok content) : fs.Open plan.outputDir.stations := by
  obtain ⟨hlocate, -⟩ := FileSystem.readBytes_eq_ok_iff.mp h
  have hopen := (FileSystem.locate_iff.mp hlocate).2.2.1
  rwa [Plan.reportPath, Path.stations_join (by decide), List.dropLast_concat] at hopen

/-- What was there for a row after the first half can be read after the second one. -/
theorem Concluded.countedIn {summary : Summary} {rows : Nat} {report : Path}
    {settled reported : FileSystem} {t : Trial} {row : Row} {content : ByteArray}
    (h : Concluded plan drained summary rows report fs settled reported fs')
    (hwrite : settled.writeBytes plan.reportPath content = .ok reported)
    (hread : row.ReadFrom t plan fs) : t.CountedIn plan fs' row.record := by
  obtain ⟨text, hsettle⟩ := h.settle
  have hout : ∀ name q, t.Inside plan.outputDir q → q ≠ plan.outputDir.place ++ [name] := by
    rintro name q hq rfl
    exact t.not_prefix_output plan.outputDir name hq
  have hlast : row.ReadFrom t plan reported := by
    have hsettled := hread.of_preserves (FileSystem.preserves_writeBytes (mapError_eq_ok hsettle))
      (by rw [plan.place_summaryPath]; exact hout _)
    exact hsettled.of_preserves (FileSystem.preserves_writeBytes hwrite)
      (by rw [plan.place_reportPath]; exact hout _)
  -- the report was written, so that the way to the output directory is open at the end
  have hroad : reported.Open (t.road plan.outputDir) :=
    Sweep.open_directory (open_outputDir_of_report (FileSystem.readBytes_writeBytes hwrite))
      hlast.mapping
  obtain ⟨content, counts, hbytes, hcounts, hcommands⟩ := hlast.exists_counts hroad
  have hfinish := Figure.preserves_handled plan reported
  rw [← h.finish] at hfinish
  have hkept := hfinish.readBytes hbytes
    (Figure.not_handled (f := .commandCountLog) (by simp) (by simp))
  refine Trial.CountedIn.of_readBytes ⟨counts, hcounts, fun k command hcommand => ?_⟩
    (hkept.trans hbytes.symm)
  obtain ⟨htrim, n, hn, hk⟩ := hcommands k command hcommand
  exact ⟨htrim, n, hn, by rw [Row.getElem?_record_command, hk, Option.map_some]⟩

/-- The report of a completed run shows the records of all trials, and the directories of the trials
still have the counts in them. -/
theorem exists_reported (hvalid : plan.validate = .ok ()) (hsim : simulator.Confined)
    {summary : Summary} {rows : Nat} {report : Path}
    (h : runUnder turns plan simulator elapsed fs = (.ok (.completed summary rows report), fs')) :
    ∃ (sent : List Filed) (content : ByteArray) (shown : List (List String)),
      (sent.map (·.1)).Perm plan.trials ∧ fs'.readBytes report = .ok content ∧
      Csv.readRecords content = .ok ((Row.header plan.commands).map Text.trim :: shown) ∧
      Report.Renders (Row.header plan.commands) (sent.map (·.2.record)) shown ∧
      ∀ e ∈ sent, e.2.ReportsOn e.1 plan ∧ e.1.CountedIn plan fs' e.2.record := by
  obtain ⟨drained, swept, hsweep, hconclude⟩ := runUnder_eq_ok h
  obtain ⟨settled, reported, hconcluded⟩ := conclude_eq_ok hconclude
  obtain ⟨template, log, before, created, hcreate, hdrain⟩ := sweepUnder_eq_ok hsweep
  have hstart := Funnel.carries_create hcreate
  obtain rfl : log = plan.rowLog := (RowLog.create_eq_ok hcreate).1
  obtain ⟨sent, hfiling⟩ := exists_filing hsim template turns hstart
  have hfits := Sweep.fits_of_reportsOn hfiling.reports
  have hsource := rows_read_of_drained hvalid hsim template turns hstart hfits hfiling.file
  rw [hdrain] at hfiling hsource
  obtain ⟨finished, hperm, -, -, hcomplete⟩ := hfiling.trials
  obtain ⟨rfl, -⟩ := hcomplete hconcluded.error
  obtain ⟨content, header, shown, rfl, -, hrecords, hwrite, hreport⟩ := hconcluded.built hfiling
  obtain ⟨rfl, hrenders⟩ := Report.renders_of_records hfits hrecords
  refine ⟨sent, _, shown, hperm, hreport, ?_, by rwa [List.map_map] at hrenders, ?_⟩
  · exact hrenders.readRecords_encodeAll (by rw [Row.header_eq_cons]; simp) rfl
  · intro e he
    have hreports := hfiling.reports e he
    -- the row is known by its record only, but the names in it are those of one trial
    obtain ⟨e', htrial', hrecord, hread⟩ := hsource e.2 (List.mem_map_of_mem he)
    have htrial : e.1 ∈ plan.trials := hperm.subset (List.mem_map_of_mem he)
    have hsame := trial_eq_of_record hvalid htrial htrial' hreports hread.reportsOn hrecord
    have hcounted := hconcluded.countedIn hwrite hread
    rw [hsame, hrecord] at hcounted
    exact ⟨hreports, hcounted⟩

end Run

/-! ## Names in reports -/

/-- Names of the same kind are not only different but differ in more than the blanks around them. -/
structure Plan.NamesApart (plan : Plan) : Prop where
  mappings : (plan.mappings.map fun m => Text.trim m.name).Nodup
  patterns : (plan.patterns.map fun p => Text.trim p.name).Nodup

theorem Plan.nodup_shownNames_iff {plan : Plan} (hvalid : plan.validate = .ok ()) :
    (plan.trials.map Trial.shownNames).Nodup ↔ plan.NamesApart := by
  obtain ⟨hmappings, hpatterns⟩ := lists_of_validate hvalid
  obtain ⟨m, hm⟩ := List.exists_mem_of_ne_nil _ hmappings
  obtain ⟨p, hp⟩ := List.exists_mem_of_ne_nil _ hpatterns
  rw [List.Nodup, List.pairwise_map, trials, List.pairwise_flatMap]
  constructor
  · rintro ⟨hsame, hother⟩
    constructor
    · rw [List.Nodup, List.pairwise_map]
      refine hother.imp fun {m n} hne heq => ?_
      apply hne ⟨m, p⟩ (List.mem_map_of_mem hp) ⟨n, p⟩ (List.mem_map_of_mem hp)
      rw [Trial.shownNames, Trial.shownNames, heq]
    · have hpairs := hsame m hm
      rw [List.pairwise_map] at hpairs
      rw [List.Nodup, List.pairwise_map]
      refine hpairs.imp fun hne heq => hne ?_
      rw [Trial.shownNames, Trial.shownNames, heq]
  · rintro ⟨hm', hp'⟩
    rw [List.Nodup, List.pairwise_map] at hm' hp'
    constructor
    · intro n _
      rw [List.pairwise_map]
      exact hp'.imp fun hne heq => hne (Option.some.inj (Prod.mk.inj heq).1)
    · refine hm'.imp ?_
      intro m n hne t ht u hu heq
      obtain ⟨q, -, rfl⟩ := List.mem_map.mp ht
      obtain ⟨r, -, rfl⟩ := List.mem_map.mp hu
      exact hne (Option.some.inj (Prod.mk.inj heq).2)

namespace Run

variable {plan : Plan} {simulator : Simulator} {turns : List Turn} {elapsed : Float}
  {fs fs' : FileSystem}

/-- The report of a completed run has one record for each trial, with its trimmed names.  The
records can be told apart by them exactly when the plan's names can, and then each of them is that
of one trial only. -/
theorem records_apart_iff_namesApart (hvalid : plan.validate = .ok ()) (hsim : simulator.Confined)
    {summary : Summary} {rows : Nat} {report : Path}
    (h : runUnder turns plan simulator elapsed fs = (.ok (.completed summary rows report), fs')) :
    ∃ content header records order, fs'.readBytes report = .ok content ∧
      Csv.readRecords content = .ok (header :: records) ∧ order.Perm plan.trials ∧
      List.Forall₂ (fun t record => Report.namesIn record = t.shownNames) order records ∧
      ((records.map Report.namesIn).Nodup ↔ plan.NamesApart) ∧
      (plan.NamesApart → ∀ record ∈ records,
        ∃! t, t ∈ plan.trials ∧ Report.namesIn record = t.shownNames) := by
  obtain ⟨sent, content, records, hperm, hread, htable, hrenders, hsent⟩ :=
    exists_reported hvalid hsim h
  have hnames : List.Forall₂ (fun t record => Report.namesIn record = t.shownNames)
      (sent.map (·.1)) records := by
    rw [List.forall₂_map_left_iff, List.forall₂_iff_get]
    exact ⟨hrenders.length_eq, fun i hi hi' => hrenders.names (fun e he => (hsent e he).1) hi hi'⟩
  have hcells : records.map Report.namesIn = (sent.map (·.1)).map Trial.shownNames := by
    rw [← List.forall₂_eq_eq_eq, List.forall₂_map_left_iff, List.forall₂_map_right_iff]
    exact hnames.flip
  refine ⟨content, _, records, _, hread, htable, hperm, hnames, ?_, ?_⟩
  · rw [hcells, (hperm.map Trial.shownNames).nodup_iff]
    exact Plan.nodup_shownNames_iff hvalid
  · intro hapart record hrecord
    have hnodup := (Plan.nodup_shownNames_iff hvalid).mpr hapart
    have hmem : Report.namesIn record ∈ (sent.map (·.1)).map Trial.shownNames :=
      hcells ▸ List.mem_map_of_mem hrecord
    obtain ⟨t, ht, hshown⟩ := List.mem_map.mp hmem
    have htrial := hperm.subset ht
    refine ⟨t, ⟨htrial, hshown.symm⟩, ?_⟩
    rintro u ⟨hu, hother⟩
    exact List.inj_on_of_nodup_map hnodup hu htrial (hother.symm.trans hshown.symm)

/-- A run in a directory with a base configuration only. -/
def runOf (plan : Plan) (simulator : Simulator) : Except RunError RunOutcome × FileSystem :=
  runUnder [.thread 0, .background] plan simulator 0
    ⟨[(["base.yaml"], .file "a: 1\n".toUTF8 false)]⟩

/-- The records of the report of a completed run, under its header. -/
def recordsOf (r : Except RunError RunOutcome × FileSystem) : Option (List (List String)) := do
  let .ok (.completed _ _ report) := r.1 | none
  let content ← (r.2.readBytes report).toOption
  (Csv.readRecords content).toOption

theorem recordsOf_completed {summary : Summary} {rows : Nat} {report : Path} {content : ByteArray}
    {records : List (List String)} (hread : fs.readBytes report = .ok content)
    (htable : Csv.readRecords content = .ok records) :
    recordsOf (.ok (.completed summary rows report), fs) = some records := by
  simp only [recordsOf, hread, htable, Except.toOption, bind, Option.bind]

theorem exists_completed {r : Except RunError RunOutcome × FileSystem}
    (h : isCompleted r.1 = true) :
    ∃ summary rows report fs', r = (.ok (.completed summary rows report), fs') := by
  obtain ⟨summary, rows, report, hresult⟩ := exists_of_isCompleted h
  exact ⟨summary, rows, report, r.2, Prod.ext hresult rfl⟩

def mappingPlan (names : List Mapping) : Plan :=
  { samplePlan [goodPattern] with mappings := names }

def paddedNames : List Mapping :=
  [⟨"m", Trial.nameFault_m⟩, ⟨" n ", by decide⟩]

def twinNames : List Mapping :=
  [⟨"m", Trial.nameFault_m⟩, ⟨" m", by decide⟩]

set_option maxRecDepth 100000 in
theorem records_apart_iff_namesApart_padded :
    (mappingPlan paddedNames).validate = .ok () ∧ sampleSimulator.Confined ∧
      (mappingPlan paddedNames).NamesApart ∧ ∃ header records,
        recordsOf (runOf (mappingPlan paddedNames) sampleSimulator) = some (header :: records) ∧
          (records.map Report.namesIn).Nodup := by
  have hvalid : (mappingPlan paddedNames).validate = .ok () := rfl
  have hapart : (mappingPlan paddedNames).NamesApart := ⟨by decide +kernel, by decide +kernel⟩
  have hcompletes : isCompleted (runOf (mappingPlan paddedNames) sampleSimulator).1 = true := by
    decide +kernel
  obtain ⟨summary, rows, report, fs', hrun⟩ := exists_completed hcompletes
  obtain ⟨content, header, records, order, hread, htable, -, -, hiff, -⟩ :=
    records_apart_iff_namesApart hvalid confined_sampleSimulator hrun
  refine ⟨hvalid, confined_sampleSimulator, hapart, header, records, ?_, hiff.mpr hapart⟩
  rw [hrun]
  exact recordsOf_completed hread htable

/-- Names that differ in a blank at the edge are accepted, and their records show the same names. -/
theorem records_of_twins :
    (mappingPlan twinNames).validate = .ok () ∧
      ((recordsOf (runOf (mappingPlan twinNames) sampleSimulator)).map fun records =>
        records.tail.map Report.namesIn) =
          some [(some "good", some "m"), (some "good", some "m")] := by
  decide +kernel

/-! ## Counts in reports -/

end Run

/-- The record shows the trial and, for each command, a cell with the count from the trial's log,
which is its numeral unless the command is called like a measured column. -/
structure Report.ShowsCounts (plan : Plan) (fs : FileSystem) (t : Trial) (record : List String) :
    Prop where
  names : Report.namesIn record = t.shownNames
  counts : ∃ counts,
    CommandCounts.read fs (TrialPaths.ofTrial plan.outputDir t).commandCountLog = .ok counts ∧
    ∀ (k : Nat) command, plan.commands[k]? = some command →
      ∃ n cell, Keyed.get? command counts = some n ∧ record[9 + k]? = some cell ∧
        (cell = Row.wordText n ↔
          command ∉ ColumnKind.percentColumns ++ ColumnKind.decimalColumns)

namespace Run

variable {plan : Plan} {simulator : Simulator} {turns : List Turn} {elapsed : Float}
  {fs fs' : FileSystem}

/-- The report of a completed run has for each trial and each command the count that is in the
trial's directory, and it is shown as its numeral exactly in the columns that are not called like a
measure. -/
theorem counts_shown_of_completed (hvalid : plan.validate = .ok ()) (hsim : simulator.Confined)
    {summary : Summary} {rows : Nat} {report : Path}
    (h : runUnder turns plan simulator elapsed fs = (.ok (.completed summary rows report), fs')) :
    ∃ content header records order, fs'.readBytes report = .ok content ∧
      Csv.readRecords content = .ok (header :: records) ∧ order.Perm plan.trials ∧
      List.Forall₂ (fun t record => Report.ShowsCounts plan fs' t record) order records := by
  obtain ⟨sent, content, records, hperm, hread, htable, hrenders, hsent⟩ :=
    exists_reported hvalid hsim h
  refine ⟨content, _, records, _, hread, htable, hperm, ?_⟩
  rw [List.forall₂_map_left_iff, List.forall₂_iff_get]
  refine ⟨hrenders.length_eq, fun i hi hi' => ⟨?_, ?_⟩⟩
  · exact hrenders.names (fun e he => (hsent e he).1) hi hi'
  · obtain ⟨-, counts, hcounts, hcommands⟩ := hsent sent[i] (List.getElem_mem hi)
    refine ⟨counts, hcounts, fun k command hcommand => ?_⟩
    obtain ⟨htrim, n, hn, hcell⟩ := hcommands k command hcommand
    have hcolumn := (Row.getElem?_header_command plan.commands k).trans hcommand
    obtain ⟨text, htext, hshown⟩ := hrenders.exists_cell hi hi' hcolumn hcell
    refine ⟨n, text, hn, htext, ?_⟩
    rw [ColumnKind.eq_wordText_iff hshown.format, Report.kindOf, htrim]
    exact ColumnKind.ofName_eq_integer_or_text_iff command

/-- A simulator that leaves the given command count log beside the other artifacts. -/
def countingSimulator (log : String) : Simulator where
  run config out := fun fs =>
    let dir := config.place.dropLast
    let (result, fs) := sampleSimulator.run config out fs
    (result, fs.set (dir ++ [dir.getLastD "" ++ "_cmd_cnt.log"]) (.file log.toUTF8 false))

theorem confined_countingSimulator (log : String) : (countingSimulator log).Confined := by
  intro outputDir t fs q hq
  have hne : ∀ name, t.place outputDir ++ [name] ≠ q := by
    rintro name rfl
    exact hq (List.prefix_append _ _)
  simp only [countingSimulator, Trial.place_config, List.dropLast_concat]
  rw [FileSystem.entryAt_set_of_ne _ _ (hne _)]
  exact confined_sampleSimulator outputDir t fs q hq

def measuredPlan : Plan :=
  { samplePlan [goodPattern] with commands := ["RD", "bw_usage"] }

def measuredSimulator : Simulator :=
  countingSimulator "RD: 18446744073709551615\nbw_usage: 3\n"

/-- The counts that a completed run has left for the only trial of the plan. -/
def countsOf (r : Except RunError RunOutcome × FileSystem) : Option (Keyed UInt64) :=
  (CommandCounts.read r.2 (TrialPaths.ofTrial measuredPlan.outputDir
    Trial.goodTrial).commandCountLog).toOption

theorem completed_measured :
    isCompleted (runOf measuredPlan measuredSimulator).1 = true ∧
      (countsOf (runOf measuredPlan measuredSimulator)).map (Keyed.get? "bw_usage") =
        some (some 3) ∧
      ((recordsOf (runOf measuredPlan measuredSimulator)).map fun records =>
        records.map (·.drop 9)) =
          some [["RD", "bw_usage"], ["18446744073709551615", "300.00%"]] := by
  decide +kernel

theorem counts_shown_of_completed_measured :
    measuredPlan.validate = .ok () ∧ measuredSimulator.Confined ∧
      ∃ header record n,
        recordsOf (runOf measuredPlan measuredSimulator) = some [header, record] ∧
        record[9]? = some (Row.wordText n) := by
  have hvalid : measuredPlan.validate = .ok () := rfl
  have hsim : measuredSimulator.Confined := confined_countingSimulator _
  obtain ⟨summary, rows, report, fs', hrun⟩ := exists_completed completed_measured.1
  obtain ⟨content, header, records, order, hread, htable, hperm, hshows⟩ :=
    counts_shown_of_completed hvalid hsim hrun
  have hone : records.length = 1 := by rw [← hshows.length_eq, hperm.length_eq]; rfl
  obtain ⟨record, rfl⟩ := List.length_eq_one_iff.mp hone
  cases hshows with
  | cons hfirst _ =>
    obtain ⟨counts, -, hcommands⟩ := hfirst.counts
    obtain ⟨n, cell, -, hcell, hiff⟩ := hcommands 0 "RD" rfl
    obtain rfl := hiff.mpr (by decide)
    refine ⟨hvalid, hsim, header, record, n, ?_, hcell⟩
    rw [hrun]
    exact recordsOf_completed hread htable

/-- A command may be called like a measured column, and its count of three is shown as a rate. -/
theorem count_shown_as_measure :
    measuredPlan.validate = .ok () ∧ isCompleted (runOf measuredPlan measuredSimulator).1 = true ∧
      (countsOf (runOf measuredPlan measuredSimulator)).map (Keyed.get? "bw_usage") =
        some (some 3) ∧
      ((recordsOf (runOf measuredPlan measuredSimulator)).map fun records =>
        records.map (·.drop 9)) =
          some [["RD", "bw_usage"], ["18446744073709551615", "300.00%"]] :=
  ⟨rfl, completed_measured⟩

end Run
end MappingSweep
