import MappingSweep.Action
import MappingSweep.Proofs.Csv.RoundTrip
import MappingSweep.Proofs.FileSystem.Reading
import MappingSweep.Report.Basic

/-!
# The shape of reports

A report has as many records as the row log that it is on, and all of them are as wide as its
header.
-/

namespace MappingSweep

namespace Csv

theorem length_decodeFields {number i : Nat} {start : Position} {fields : List (List UInt8)}
    {record : List String} (h : decodeFields number start i fields = .ok record) :
    record.length = fields.length := by
  induction fields generalizing i record with
  | nil =>
    cases h
    rfl
  | cons field fields ih =>
    unfold decodeFields at h
    split at h
    · cases hrest : decodeFields number start (i + 1) fields with
      | error f => rw [hrest] at h; cases h
      | ok rest =>
        rw [hrest] at h
        cases h
        exact congrArg (· + 1) (ih hrest)
    · cases h

theorem length_readRow {width number : Nat} {raw : RawRecord} {cells : List String}
    (h : readRow width number raw = .ok cells) : cells.length = width := by
  unfold readRow at h
  by_cases hwidth : raw.fields.length = width
  · simp only [hwidth, ne_eq, not_true_eq_false, if_false] at h
    cases hfields : decodeFields number raw.start 0 (raw.fields.map trimBytes) with
    | error f => rw [hfields] at h; cases h
    | ok fields =>
      rw [hfields] at h
      cases h
      rw [List.length_map, length_decodeFields hfields, List.length_map, hwidth]
  · simp only [ne_eq, hwidth, not_false_eq_true, if_true] at h
    cases h

theorem length_of_mem_readRows {width number : Nat} {raws : List RawRecord} {cells : List String}
    (h : .ok cells ∈ readRows width number raws) : cells.length = width := by
  induction raws generalizing number with
  | nil => cases h
  | cons raw raws ih =>
    rcases List.mem_cons.mp h with h | h
    · exact length_readRow h.symm
    · exact ih h

theorem length_readRows (width number : Nat) (raws : List RawRecord) :
    (readRows width number raws).length = raws.length := by
  induction raws generalizing number with
  | nil => rfl
  | cons raw raws ih => exact congrArg (· + 1) (ih (number + 1))

end Csv

namespace Report

theorem length_formatCells {kinds : List ColumnKind} {cells row : List String}
    (hlength : kinds.length = cells.length) (h : formatCells kinds cells = .ok row) :
    row.length = kinds.length := by
  induction kinds generalizing cells row with
  | nil =>
    obtain rfl := List.eq_nil_of_length_eq_zero hlength.symm
    cases h
    rfl
  | cons kind kinds ih =>
    obtain ⟨cell, cells, rfl⟩ := List.exists_cons_of_length_eq_add_one hlength.symm
    unfold formatCells at h
    cases hcell : kind.format cell with
    | error e => rw [hcell] at h; cases h
    | ok shown =>
      rw [hcell] at h
      cases hrest : formatCells kinds cells with
      | error e => rw [hrest] at h; cases h
      | ok rest =>
        rw [hrest] at h
        cases h
        exact congrArg (· + 1) (ih (Nat.succ.inj hlength) hrest)

theorem shape_formatRows {kinds : List ColumnKind} {number : Nat}
    {table : List (Except Csv.Fault (List String))} {rows : List (List String)}
    (hwidth : ∀ cells, .ok cells ∈ table → kinds.length = cells.length)
    (h : formatRows kinds number table = .ok rows) :
    rows.length = table.length ∧ ∀ row ∈ rows, row.length = kinds.length := by
  induction table generalizing number rows with
  | nil =>
    cases h
    simp
  | cons result table ih =>
    cases result with
    | error f => cases h
    | ok cells =>
      unfold formatRows at h
      cases hcells : (formatCells kinds cells).mapError (ReportFault.cell number) with
      | error e => rw [hcells] at h; cases h
      | ok row =>
        rw [hcells] at h
        cases hrest : formatRows kinds (number + 1) table with
        | error e => rw [hrest] at h; cases h
        | ok rest =>
          rw [hrest] at h
          cases h
          obtain ⟨hlength, hall⟩ :=
            ih (fun other hother => hwidth other (List.mem_cons_of_mem _ hother)) hrest
          refine ⟨congrArg (· + 1) hlength, ?_⟩
          intro other hother
          rcases List.mem_cons.mp hother with rfl | hother
          · exact length_formatCells (hwidth cells List.mem_cons_self) (mapError_eq_ok hcells)
          · exact hall other hother

/-- A report on a written table has the trimmed header and a record for each of the table's. -/
theorem shape_records {sink : Path} {first : String} {columns : List String}
    (hmark : Csv.marked (first :: columns) = false) {records : List (List String)}
    {header : List String} {rows : List (List String)}
    (h : Report.records sink (Csv.encodeAll ((first :: columns) :: records)).toUTF8 =
      .ok (header, rows)) :
    header = (first :: columns).map Text.trim ∧ rows.length = records.length ∧
      ∀ row ∈ rows, row.length = header.length := by
  have hraws := Csv.rawRecords_encodeAll hmark records
  obtain ⟨raw, rest, heq, hraw, hrest⟩ := List.map_eq_cons_iff.mp hraws
  have hfields : raw.fields = Csv.fieldOctets (first :: columns) :=
    hraw.trans (Csv.readBack_eq_fieldOctets (List.cons_ne_nil _ _))
  have htable : Csv.readTable (Csv.encodeAll ((first :: columns) :: records)).toUTF8 =
      .ok ⟨(first :: columns).map Text.trim, Csv.readRows raw.fields.length 1 rest⟩ := by
    simp only [Csv.readTable, heq, hfields, Csv.decodeFields_fieldOctets]
    rfl
  have hcount : rest.length = records.length := by
    have := congrArg List.length hrest
    rwa [List.length_map, List.length_map] at this
  have hwidth : raw.fields.length = (first :: columns).length := by
    rw [hfields, Csv.fieldOctets, List.length_map]
  unfold Report.records at h
  rw [htable] at h
  simp only [mapError_ok, bind, Except.bind, List.isEmpty_map, List.isEmpty_cons,
    Bool.false_eq_true, if_false] at h
  cases hrows : formatRows (((first :: columns).map Text.trim).map ColumnKind.ofName) 1
      (Csv.readRows raw.fields.length 1 rest) with
  | error e => rw [hrows] at h; cases h
  | ok shown =>
    rw [hrows] at h
    dsimp only at h
    split at h
    · cases h
    · cases h
      obtain ⟨hlength, hall⟩ := shape_formatRows (by
        intro cells hcells
        rw [Csv.length_of_mem_readRows hcells, hwidth, List.length_map, List.length_map]) hrows
      refine ⟨rfl, ?_, ?_⟩
      · rw [hlength, Csv.length_readRows, hcount]
      · intro row hrow
        rw [hall row hrow, List.length_map]

theorem readSink_eq_ok_iff {fs : FileSystem} {sink : Path} {content : ByteArray} :
    readSink fs sink = .ok content ↔ fs.readBytes sink = .ok content := by
  unfold readSink
  split
  · rename_i hread
    rw [hread, Except.ok.injEq, Except.ok.injEq]
  · rename_i hread
    simp [hread]
  · rename_i hread
    simp [hread]

theorem build_eq_ok_iff {sink target : Path} {fs fs' : FileSystem} {report : Report} :
    build sink target fs = .ok (report, fs') ↔
      ∃ content header rows, fs.readBytes sink = .ok content ∧
        records sink content = .ok (header, rows) ∧
        fs.writeBytes target (Csv.encodeAll (header :: rows)).toUTF8 = .ok fs' ∧
        report = ⟨target, rows.length, header.length⟩ := by
  constructor
  · intro h
    have hattempt := mapError_eq_ok h
    unfold attempt at hattempt
    cases hsink : readSink fs sink with
    | error e => rw [hsink] at hattempt; cases hattempt
    | ok content =>
      rw [hsink] at hattempt
      cases hrecords : records sink content with
      | error e => simp only [bind, Except.bind, hrecords] at hattempt; cases hattempt
      | ok table =>
        obtain ⟨header, rows⟩ := table
        simp only [bind, Except.bind, hrecords] at hattempt
        split at hattempt
        · cases hattempt
        · rename_i hwrite
          cases hattempt
          exact ⟨content, header, rows, readSink_eq_ok_iff.mp hsink, hrecords,
            mapError_eq_ok hwrite, rfl⟩
  · rintro ⟨content, header, rows, hread, hrecords, hwrite, rfl⟩
    simp only [build, attempt, readSink_eq_ok_iff.mpr hread, hrecords, hwrite, mapError_ok, bind,
      Except.bind]
    rfl

end Report
end MappingSweep
