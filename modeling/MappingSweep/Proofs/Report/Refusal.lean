import MappingSweep.Proofs.Csv.Faults
import MappingSweep.Proofs.Report.Faithful
import MappingSweep.Proofs.Traversal

/-!
# Reports that are refused

A row log is read and formatted to its end before anything is written.  The first thing that is
wrong with it is reported, and the report of an earlier run stays as it is.  The row log is only
read, so it stays as it is in any case.
-/

namespace MappingSweep

open Csv (RawRecord fieldOctets)

namespace ColumnKind

variable {kind : ColumnKind} {cell text : String}

theorem format_eq_error_iff :
    kind.format cell = .error text ↔ ¬ kind.Accepts cell ∧ text = Text.trim cell := by
  rw [accepts_iff_shows, Shows, format_eq]
  by_cases hblank : Text.trim cell = ""
  · simp [hblank]
  · rw [if_neg hblank]
    cases kind.formatNumber (Text.trim cell).toList with
    | some shown => simp
    | none => simp [eq_comm]

end ColumnKind

namespace Report

variable {header : List String} {number : Nat} {raw : RawRecord} {raws : List RawRecord}
  {fault : ReportFault} {text : String} {shown : List String}

/-- A record as wide as the header that is accepted cell by cell. -/
def Fits (header : List String) (raw : RawRecord) : Prop :=
  ∃ record, raw.fields = fieldOctets record ∧
    List.Forall₂ (fun name cell => (kindOf name).Accepts cell) header record

/-- Why a record with this number has no place in a report: it cannot be read, or else its first
cell that is not accepted is at fault. -/
inductive Defect (header : List String) (number : Nat) (raw : RawRecord) : ReportFault → Prop where
  | unread {f} (h : Csv.Faulty header.length number raw f) : Defect header number raw (.table f)
  | cell {record before name cell after} (hfields : raw.fields = fieldOctets record)
      (hwidth : record.length = header.length)
      (hcells : header.zip record = before ++ (name, cell) :: after)
      (hbefore : ∀ p ∈ before, (kindOf p.1).Accepts p.2) (hcell : ¬ (kindOf name).Accepts cell) :
      Defect header number raw (.cell number (Text.trim cell))

theorem formatCells_eq_mapM (kinds : List ColumnKind) (cells : List String) :
    formatCells kinds cells = (kinds.zip cells).mapM fun p => p.1.format p.2 := by
  induction kinds generalizing cells with
  | nil => cases cells <;> rfl
  | cons kind kinds ih =>
    cases cells with
    | nil => rfl
    | cons cell cells => rw [formatCells, ih, List.zip_cons_cons, List.mapM_cons]

theorem formatCells_eq_error_iff {record : List String} :
    formatCells (header.map kindOf) record = .error text ↔ ∃ before name cell after,
      header.zip record = before ++ (name, cell) :: after ∧
        (∀ p ∈ before, (kindOf p.1).Accepts p.2) ∧ ¬ (kindOf name).Accepts cell ∧
          text = Text.trim cell := by
  rw [formatCells_eq_mapM, List.zip_map_left, List.mapM_map, mapM_eq_error_iff]
  simp only [Function.comp_apply, Prod.map_fst, Prod.map_snd, id_eq,
    ColumnKind.format_eq_error_iff, Prod.exists, ← ColumnKind.Shows.eq_1,
    ← ColumnKind.accepts_iff_shows]

def showRecord (header : List String) (p : RawRecord × Nat) : Except ReportFault (List String) :=
  match Csv.readRow header.length p.2 p.1 with
  | .ok cells => (formatCells (header.map kindOf) cells).mapError (.cell p.2)
  | .error f => .error (.table f)

theorem formatRows_eq_mapM (header : List String) (number : Nat) (raws : List RawRecord) :
    formatRows (header.map kindOf) number (Csv.readRows header.length number raws) =
      (raws.zipIdx number).mapM (showRecord header) := by
  induction raws generalizing number with
  | nil => rfl
  | cons raw raws ih =>
    rw [Csv.readRows, List.zipIdx_cons, List.mapM_cons, ← ih, showRecord]
    cases Csv.readRow header.length number raw with
    | error f => rfl
    | ok cells => rfl

theorem showRecord_eq_ok_iff (raw : RawRecord) (number : Nat) (shown : List String) :
    showRecord header (raw, number) = .ok shown ↔ ∃ record, raw.fields = fieldOctets record ∧
      record.length = header.length ∧ formatCells (header.map kindOf) record = .ok shown := by
  unfold showRecord
  dsimp only
  constructor
  · intro h
    split at h
    · rename_i cells hcells
      obtain ⟨record, hfields, hwidth, rfl⟩ := Csv.readRow_eq_ok_iff.mp hcells
      have hformat := mapError_eq_ok h
      rw [formatCells_trim] at hformat
      exact ⟨record, hfields, hwidth, hformat⟩
    · cases h
  · rintro ⟨record, hfields, hwidth, hformat⟩
    rw [Csv.readRow_eq_ok_iff.mpr ⟨record, hfields, hwidth, rfl⟩]
    dsimp only
    rw [formatCells_trim, hformat, mapError_ok]

theorem fits_iff : Fits header raw ↔ ∃ shown record, raw.fields = fieldOctets record ∧
    record.length = header.length ∧ formatCells (header.map kindOf) record = .ok shown := by
  constructor
  · rintro ⟨record, hfields, hcells⟩
    obtain ⟨shown, hshown⟩ := exists_formatCells (accepts_iff_shows.mp hcells)
    exact ⟨shown, record, hfields, hcells.length_eq.symm, hshown⟩
  · rintro ⟨shown, record, hfields, hwidth, hshown⟩
    have hlength : (header.map kindOf).length = record.length := by
      rw [List.length_map, hwidth]
    exact ⟨record, hfields,
      accepts_iff_shows.mpr (forall₂_shows_of_formatCells hlength hshown)⟩

theorem showRecord_eq_error_iff :
    showRecord header (raw, number) = .error fault ↔ Defect header number raw fault := by
  unfold showRecord
  dsimp only
  constructor
  · intro h
    split at h
    · rename_i cells hcells
      obtain ⟨record, hfields, hwidth, rfl⟩ := Csv.readRow_eq_ok_iff.mp hcells
      obtain ⟨text, htext, rfl⟩ := mapError_eq_error h
      rw [formatCells_trim] at htext
      obtain ⟨before, name, cell, after, hsplit, hbefore, hcell, rfl⟩ :=
        formatCells_eq_error_iff.mp htext
      exact .cell hfields hwidth hsplit hbefore hcell
    · rename_i f hf
      cases h
      exact .unread (Csv.readRow_eq_error_iff.mp hf)
  · intro h
    cases h with
    | unread h => rw [Csv.readRow_eq_error_iff.mpr h]
    | @cell record before name cell after hfields hwidth hcells hbefore hcell =>
      rw [Csv.readRow_eq_ok_iff.mpr ⟨record, hfields, hwidth, rfl⟩]
      dsimp only
      rw [formatCells_trim, formatCells_eq_error_iff.mpr
        ⟨before, name, cell, after, hcells, hbefore, hcell, rfl⟩, mapError_error]

/-- The first record with a defect is at fault. -/
theorem formatRows_eq_error_iff :
    formatRows (header.map kindOf) 1 (Csv.readRows header.length 1 raws) = .error fault ↔
      ∃ before raw after, raws = before ++ raw :: after ∧ (∀ r ∈ before, Fits header r) ∧
        Defect header (before.length + 1) raw fault := by
  rw [formatRows_eq_mapM, mapM_zipIdx_eq_error_iff showRecord_eq_ok_iff]
  simp only [← fits_iff, showRecord_eq_error_iff]

/-- What is wrong with the octets of a row log. -/
inductive Spoiled (sink : Path) (content : ByteArray) : ReportFault → Prop where
  | noHeader (h : Csv.rawRecords content.toList = []) : Spoiled sink content (.noHeader sink)
  | header {first raws texts field after valid}
      (h : Csv.rawRecords content.toList = first :: raws)
      (hfields : first.fields = fieldOctets texts ++ field :: after)
      (hfield : Csv.decodeField field = .error valid) :
      Spoiled sink content (.table (.encoding 0 first.start texts.length valid))
  | record {first header before raw after fault}
      (h : Csv.rawRecords content.toList = first :: (before ++ raw :: after))
      (hheader : first.fields = fieldOctets header) (hbefore : ∀ r ∈ before, Fits header r)
      (hdefect : Defect header (before.length + 1) raw fault) : Spoiled sink content fault
  | noRows {first header} (h : Csv.rawRecords content.toList = [first])
      (hheader : first.fields = fieldOctets header) : Spoiled sink content (.noRows sink)

/-- Why no report can be made of a row log: it cannot be read, or something is wrong with it. -/
inductive Refused (fs : FileSystem) (sink : Path) : ReportFault → Prop where
  | directory (h : fs.readBytes sink = .error .isADirectory) : Refused fs sink (.os .isADirectory)
  | unreadable {e} (h : fs.readBytes sink = .error e) (he : e ≠ .isADirectory) :
      Refused fs sink (.unreadableSink sink e)
  | spoiled {content fault} (h : fs.readBytes sink = .ok content)
      (hspoiled : Spoiled sink content fault) : Refused fs sink fault

variable {sink target : Path} {content : ByteArray} {fs fs' : FileSystem} {e : SweepError}

theorem records_of_header {first : RawRecord} (h : Csv.rawRecords content.toList = first :: raws)
    (hheader : first.fields = fieldOctets header) :
    records sink content = do
      let rows ← formatRows (header.map kindOf) 1 (Csv.readRows header.length 1 raws)
      if rows.isEmpty then throw (.noRows sink)
      return (header.map Text.trim, rows) := by
  have hsome : (header.map Text.trim).isEmpty = false := by
    have hne := Csv.fields_ne_nil (h ▸ List.mem_cons_self : first ∈ Csv.rawRecords content.toList)
    rw [hheader] at hne
    rw [List.isEmpty_eq_false_iff]
    exact fun hnil => hne (by rw [List.map_eq_nil_iff.mp hnil]; rfl)
  have hkinds : (header.map Text.trim).map ColumnKind.ofName = header.map kindOf := List.map_map
  simp only [records, Csv.readTable_of_header h hheader, mapError_ok, bind, Except.bind, hsome,
    hkinds]
  rfl

theorem Spoiled.records_eq (h : Spoiled sink content fault) :
    records sink content = .error fault := by
  cases h with
  | noHeader h =>
    rw [records, Csv.readTable_of_no_records h]
    rfl
  | header h hfields hfield =>
    rw [records, Csv.readTable_eq_error_iff.mpr ⟨_, _, _, _, _, _, h, hfields, hfield, rfl⟩]
    rfl
  | record h hheader hbefore hdefect =>
    rw [records_of_header h hheader,
      formatRows_eq_error_iff.mpr ⟨_, _, _, rfl, hbefore, hdefect⟩]
    rfl
  | noRows h hheader =>
    rw [records_of_header h hheader]
    rfl

theorem spoiled_of_records (h : records sink content = .error fault) :
    Spoiled sink content fault := by
  cases hraws : Csv.rawRecords content.toList with
  | nil =>
    rw [records, Csv.readTable_of_no_records hraws] at h
    cases h
    exact .noHeader hraws
  | cons first raws =>
    cases htable : Csv.readTable content with
    | error f =>
      obtain ⟨_, _, texts, field, after, valid, hsplit, hfields, hfield, rfl⟩ :=
        Csv.readTable_eq_error_iff.mp htable
      rw [records, htable] at h
      cases h
      exact .header hsplit hfields hfield
    | ok table =>
      obtain ⟨header, hheader⟩ := Csv.exists_header_of_readTable hraws htable
      rw [records_of_header hraws hheader] at h
      cases hrows : formatRows (header.map kindOf) 1 (Csv.readRows header.length 1 raws) with
      | error fault' =>
        rw [hrows] at h
        obtain rfl : fault' = fault := Except.error.inj h
        obtain ⟨before, raw, after, rfl, hbefore, hdefect⟩ := formatRows_eq_error_iff.mp hrows
        exact .record hraws hheader hbefore hdefect
      | ok rows =>
        rw [hrows] at h
        simp only [bind, Except.bind] at h
        split at h
        · rename_i hempty
          cases h
          -- each record has a row, so there is no record behind the header
          rw [formatRows_eq_mapM] at hrows
          have hlength := length_of_mapM hrows
          rw [List.isEmpty_iff.mp hempty, List.length_zipIdx] at hlength
          rw [List.eq_nil_of_length_eq_zero hlength.symm] at hraws
          exact .noRows hraws hheader
        · cases h

theorem records_eq_error_iff : records sink content = .error fault ↔ Spoiled sink content fault :=
  ⟨spoiled_of_records, Spoiled.records_eq⟩

theorem refused_of_readBytes {reason : OsError} (h : fs.readBytes sink = .error reason) :
    ∃ fault, Refused fs sink fault := by
  by_cases hdirectory : reason = .isADirectory
  · subst hdirectory
    exact ⟨_, .directory h⟩
  · exact ⟨_, .unreadable h hdirectory⟩

/-- What is refused is what cannot be reported. -/
theorem exists_refused_iff (fs : FileSystem) (sink : Path) :
    (∃ fault, Refused fs sink fault) ↔ ¬ ∃ header records, Reportable fs sink header records := by
  constructor
  · rintro ⟨fault, hrefused⟩ ⟨header, records, hreportable⟩
    obtain ⟨shown, hshown⟩ := hreportable.exists_formatCells
    obtain ⟨content, hread, htable⟩ := hreportable.reads
    have hrecords : Report.records sink content = .ok (header.map Text.trim, shown) :=
      records_eq_ok_iff.mpr
        ⟨header, records, htable, hreportable.columns, hreportable.rows, rfl, hshown⟩
    cases hrefused with
    | directory h => cases hread.symm.trans h
    | unreadable h he => cases hread.symm.trans h
    | spoiled h hspoiled =>
      cases hread.symm.trans h
      cases hrecords.symm.trans (records_eq_error_iff.mpr hspoiled)
  · intro hnone
    cases hread : fs.readBytes sink with
    | error reason => exact refused_of_readBytes hread
    | ok content =>
      cases hrecords : records sink content with
      | error fault => exact ⟨fault, .spoiled hread (records_eq_error_iff.mp hrecords)⟩
      | ok table => exact absurd (reportable_of_records hread hrecords) hnone

/-! ## Reports -/

theorem Refused.build_eq (h : Refused fs sink fault) (target : Path) :
    build sink target fs = .error (.reportWrite target fault) := by
  have hattempt : attempt sink target fs = .error fault := by
    cases h with
    | directory h =>
      simp only [attempt, readSink, h]
      rfl
    | @unreadable e h he =>
      simp only [attempt, readSink, h]
      rfl
    | spoiled h hspoiled =>
      simp only [attempt, readSink, h, bind, Except.bind, records_eq_error_iff.mpr hspoiled]
  rw [build, hattempt, mapError_error]

/-- A report fails for its row log, or else for its target. -/
theorem build_eq_error (h : build sink target fs = .error e) :
    ∃ fault, e = .reportWrite target fault ∧ (Refused fs sink fault ∨
      ∃ written reason, fs.writeBytes target written = .error reason ∧ fault = .os reason) := by
  obtain ⟨fault, hattempt, rfl⟩ := mapError_eq_error h
  refine ⟨fault, rfl, ?_⟩
  unfold attempt at hattempt
  cases hread : fs.readBytes sink with
  | error reason =>
    left
    by_cases hdirectory : reason = .isADirectory
    · subst hdirectory
      simp only [readSink, hread] at hattempt
      cases hattempt
      exact .directory hread
    · simp only [readSink, hread] at hattempt
      cases hattempt
      exact .unreadable hread hdirectory
  | ok content =>
    have hsink := readSink_eq_ok_iff.mpr hread
    cases hrecords : records sink content with
    | error fault' =>
      simp only [hsink, hrecords, bind, Except.bind] at hattempt
      cases hattempt
      exact .inl (.spoiled hread (records_eq_error_iff.mp hrecords))
    | ok table =>
      simp only [hsink, hrecords, bind, Except.bind] at hattempt
      right
      cases hwrite : fs.writeBytes target (Csv.encodeAll (table.1 :: table.2)).toUTF8 with
      | ok last =>
        rw [hwrite] at hattempt
        cases hattempt
      | error reason =>
        rw [hwrite] at hattempt
        cases hattempt
        exact ⟨_, reason, hwrite, rfl⟩

theorem produce_build_of_ok {report : Report} (h : build sink target fs = .ok (report, fs')) :
    Action.produce (build sink target) fs = (.ok report, fs') := by
  rw [Action.produce, h]

theorem produce_build_of_error (h : build sink target fs = .error e) :
    Action.produce (build sink target) fs = (.error e, fs) := by
  rw [Action.produce, h]

/-- If anything is wrong with the row log, the report is refused for the first thing that is, and
nothing is written.  Nothing is written in any other failure either, and whatever becomes of the
report, only its own file changes. -/
theorem all_or_nothing (sink target : Path) (fs : FileSystem) :
    let done := Action.produce (build sink target) fs
    (∀ fault, Refused fs sink fault → done = (.error (.reportWrite target fault), fs)) ∧
    ((∃ fault, Refused fs sink fault) ↔
      ¬ ∃ header records, Reportable fs sink header records) ∧
    (∀ e, done.1 = .error e → done.2 = fs ∧ ∃ fault, e = .reportWrite target fault ∧
      (Refused fs sink fault ∨
        ∃ written reason, fs.writeBytes target written = .error reason ∧ fault = .os reason)) ∧
    (∀ q ≠ target.place, done.2.entryAt q = fs.entryAt q) ∧
    (sink.place ≠ target.place → done.2.readBytes sink = fs.readBytes sink) := by
  intro done
  refine ⟨fun fault hrefused => produce_build_of_error (hrefused.build_eq target),
    exists_refused_iff fs sink, ?_⟩
  cases hbuild : build sink target fs with
  | error e =>
    rw [show done = (.error e, fs) from produce_build_of_error hbuild]
    refine ⟨?_, fun _ _ => rfl, fun _ => rfl⟩
    intro e' he'
    cases he'
    exact ⟨rfl, build_eq_error hbuild⟩
  | ok made =>
    obtain ⟨report, fs'⟩ := made
    rw [show done = (.ok report, fs') from produce_build_of_ok hbuild]
    obtain ⟨content, names, shown, hread, -, hwrite, -⟩ := build_eq_ok_iff.mp hbuild
    have hkept := FileSystem.preserves_writeBytes hwrite
    refine ⟨fun _ he => (nomatch he), fun q hq => hkept.same q hq, fun hplace => ?_⟩
    rw [hread]
    exact hkept.readBytes hread hplace

/-- The last cell of the row log is no number, and there is a report already. -/
def spoiledFiles : FileSystem :=
  ⟨[(["rows.csv"], .file "pattern,RD\na,1\nb, x\n".toUTF8 false),
    (["report.csv"], .file "pattern,RD\na,1\n".toUTF8 false)]⟩

theorem all_or_nothing_spoiledFiles :
    Refused spoiledFiles ⟨"rows.csv"⟩ (.cell 2 "x") ∧
      Action.produce (build ⟨"rows.csv"⟩ ⟨"report.csv"⟩) spoiledFiles =
        (.error (.reportWrite ⟨"report.csv"⟩ (.cell 2 "x")), spoiledFiles) := by
  have hrefused : Refused spoiledFiles ⟨"rows.csv"⟩ (.cell 2 "x") :=
    .spoiled rfl (records_eq_error_iff.mp (by decide +kernel))
  exact ⟨hrefused, (all_or_nothing ⟨"rows.csv"⟩ ⟨"report.csv"⟩ spoiledFiles).1 _ hrefused⟩

end Report
end MappingSweep
