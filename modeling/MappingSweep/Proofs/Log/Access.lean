import MappingSweep.Proofs.Csv.Decoding
import MappingSweep.Proofs.Keyed
import MappingSweep.Proofs.Log.Latency

/-!
# What columns are read from an access log

The first record of a log is its header, and each other record has to give a number for each name
in it.  Then each column has the numbers at its place of all records, in their order; otherwise the
first record that does not is at fault.
-/

namespace MappingSweep
namespace AccessLog

open Number (Binary64)
open Csv (HasRecords RawRecord fieldOctets)
open LatencyStats (FromValues)

/-- Without the blanks around it, the cell is a numeral of the number. -/
def Gives (cell : String) (x : Binary64) : Prop :=
  Number.readBinary64 (Text.trim cell).toList = some x

/-- The row has this many cells, and they give these numbers. -/
def IsRow (width : Nat) (row : List String) (values : List Binary64) : Prop :=
  row.length = width ∧ List.Forall₂ Gives row values

/-- Why the record with this number is no row: it has another width, or else its first cell that
gives no number is at fault. -/
inductive Offends (width number : Nat) (row : List String) : LogFault → Prop where
  | width {start} (hwidth : row.length ≠ width) :
      Offends width number row (.table (.width number start row.length width))
  | notANumber {before cell after} (hwidth : row.length = width)
      (hrow : row = before ++ cell :: after) (hbefore : ∀ c ∈ before, ∃ x, Gives c x)
      (hcell : ∀ x, ¬ Gives cell x) :
      Offends width number row (.notANumber number (Text.trim cell))

variable {width number : Nat} {row cells : List String} {values : List Binary64} {raw : RawRecord}
  {raws : List RawRecord} {rows : List (List String)} {f : LogFault} {cell : String} {x : Binary64}

def readCell (number : Nat) (cell : String) : Except LogFault Binary64 :=
  match Number.readBinary64 cell.toList with
  | some x => .ok x
  | none => .error (.notANumber number cell)

theorem readCells_eq_mapM (number : Nat) (cells : List String) :
    readCells number cells = cells.mapM (readCell number) := by
  induction cells with
  | nil => rfl
  | cons cell cells ih =>
    rw [readCells, List.mapM_cons, ← ih, readCell]
    cases Number.readBinary64 cell.toList with
    | none => rfl
    | some x => cases readCells number cells <;> rfl

theorem readCell_trim_eq_ok_iff : readCell number (Text.trim cell) = .ok x ↔ Gives cell x := by
  rw [readCell, Gives]
  cases Number.readBinary64 (Text.trim cell).toList <;> simp

theorem readCell_trim_eq_error_iff : readCell number (Text.trim cell) = .error f ↔
    (∀ x, ¬ Gives cell x) ∧ f = .notANumber number (Text.trim cell) := by
  simp only [readCell, Gives]
  cases Number.readBinary64 (Text.trim cell).toList <;> simp [eq_comm]

theorem readCells_trim_eq_ok_iff :
    readCells number (row.map Text.trim) = .ok values ↔ List.Forall₂ Gives row values := by
  rw [readCells_eq_mapM, mapM_eq_ok_iff, List.forall₂_map_left_iff]
  simp only [readCell_trim_eq_ok_iff]

theorem readCells_trim_eq_error_iff :
    readCells number (row.map Text.trim) = .error f ↔ ∃ before cell after,
      row = before ++ cell :: after ∧ (∀ c ∈ before, ∃ x, Gives c x) ∧ (∀ x, ¬ Gives cell x) ∧
        f = .notANumber number (Text.trim cell) := by
  rw [readCells_eq_mapM, List.mapM_map, mapM_eq_error_iff]
  simp only [Function.comp_apply, readCell_trim_eq_ok_iff, readCell_trim_eq_error_iff]

def readRecord (width : Nat) (p : RawRecord × Nat) : Except LogFault (List Binary64) :=
  match Csv.readRow width p.2 p.1 with
  | .ok cells => readCells p.2 cells
  | .error f => .error (.table f)

theorem readRows_eq_mapM (width number : Nat) (raws : List RawRecord) :
    readRows number (Csv.readRows width number raws) =
      (raws.zipIdx number).mapM (readRecord width) := by
  induction raws generalizing number with
  | nil => rfl
  | cons raw raws ih =>
    rw [Csv.readRows, List.zipIdx_cons, List.mapM_cons, ← ih, readRecord]
    cases Csv.readRow width number raw with
    | error f => rfl
    | ok cells => rfl

theorem readRecord_eq_ok_iff (raw : RawRecord) (number : Nat) (values : List Binary64) :
    readRecord width (raw, number) = .ok values ↔
      ∃ row, raw.fields = fieldOctets row ∧ IsRow width row values := by
  constructor
  · intro h
    unfold readRecord at h
    split at h
    · rename_i cells hcells
      obtain ⟨row, hrow, hwidth, rfl⟩ := Csv.readRow_eq_ok_iff.mp hcells
      exact ⟨row, hrow, hwidth, readCells_trim_eq_ok_iff.mp h⟩
    · cases h
  · rintro ⟨row, hrow, hwidth, hvalues⟩
    have hread : Csv.readRow width number raw = .ok (row.map Text.trim) := by
      rw [Csv.readRow_of_fieldOctets hrow, if_pos hwidth]
    simp only [readRecord, hread]
    exact readCells_trim_eq_ok_iff.mpr hvalues

theorem offends_of_readRecord (hrow : raw.fields = fieldOctets row)
    (h : readRecord width (raw, number) = .error f) : Offends width number row f := by
  simp only [readRecord, Csv.readRow_of_fieldOctets hrow] at h
  by_cases hwidth : row.length = width
  · rw [if_pos hwidth] at h
    obtain ⟨before, cell, after, hcells, hbefore, hcell, rfl⟩ := readCells_trim_eq_error_iff.mp h
    exact .notANumber hwidth hcells hbefore hcell
  · rw [if_neg hwidth] at h
    cases h
    exact .width hwidth

theorem readRows_eq_ok_iff (hraws : raws.map (·.fields) = rows.map fieldOctets)
    {table : List (List Binary64)} :
    readRows 1 (Csv.readRows width 1 raws) = .ok table ↔
      List.Forall₂ (IsRow width) rows table := by
  have hfits : ∀ row values, (∃ row', fieldOctets row = fieldOctets row' ∧
      IsRow width row' values) ↔ IsRow width row values := by
    intro row values
    constructor
    · rintro ⟨row', heq, h⟩
      rwa [Csv.fieldOctets_injective heq]
    · exact fun h => ⟨row, rfl, h⟩
  calc readRows 1 (Csv.readRows width 1 raws) = .ok table
      ↔ List.Forall₂ (fun raw values => ∃ row, raw.fields = fieldOctets row ∧
          IsRow width row values) raws table := by
        rw [readRows_eq_mapM]
        exact mapM_zipIdx_eq_ok_iff readRecord_eq_ok_iff
    _ ↔ List.Forall₂ (fun fields values => ∃ row, fields = fieldOctets row ∧
          IsRow width row values) (rows.map fieldOctets) table := by
        rw [← hraws, List.forall₂_map_left_iff]
    _ ↔ List.Forall₂ (IsRow width) rows table := by
        rw [List.forall₂_map_left_iff]
        simp only [hfits]

theorem offends_of_readRows (hraws : raws.map (·.fields) = rows.map fieldOctets)
    (h : readRows 1 (Csv.readRows width 1 raws) = .error f) :
    ∃ before row after, rows = before ++ row :: after ∧
      (∀ r ∈ before, ∃ values, IsRow width r values) ∧
      Offends width (before.length + 1) row f := by
  rw [readRows_eq_mapM, mapM_zipIdx_eq_error_iff readRecord_eq_ok_iff] at h
  obtain ⟨front, raw, back, rfl, hfront, hraw⟩ := h
  rw [List.map_append, List.map_cons] at hraws
  obtain ⟨before, rest, rfl, hbefore, hrest⟩ := List.map_eq_append_iff.mp hraws.symm
  obtain ⟨row, after, rfl, hrow, -⟩ := List.map_eq_cons_iff.mp hrest
  have hlength : before.length = front.length := by
    rw [← List.length_map fieldOctets, hbefore, List.length_map]
  refine ⟨before, row, after, rfl, fun r hr => ?_, ?_⟩
  · have hmem : fieldOctets r ∈ front.map RawRecord.fields := hbefore ▸ List.mem_map_of_mem hr
    obtain ⟨raw', hraw', heq⟩ := List.mem_map.mp hmem
    obtain ⟨values, row', hrow', hvalues⟩ := hfront raw' hraw'
    rw [Csv.fieldOctets_injective (heq.symm.trans hrow')]
    exact ⟨values, hvalues⟩
  · rw [hlength]
    exact offends_of_readRecord hrow.symm hraw

/-- The log has a header, in which not all names are blank, and these rows under it. -/
def Headed (records : List (List String)) (header : List String) (rows : List (List String)) :
    Prop :=
  records = header :: rows ∧ ∃ name ∈ header, Text.trim name ≠ ""

/-- The columns have the names of the header, and in each one are the numbers of all rows at its
place. -/
structure Transposes (header : List String) (rows : List (List String)) (columns : Columns) :
    Prop where
  names : columns.map Prod.fst = header.map Text.trim
  length : ∀ c ∈ columns, c.2.length = rows.length
  value : ∀ (i j : Nat) (row : List String) (cell : String) (c : String × List Binary64),
    rows[i]? = some row → row[j]? = some cell → columns[j]? = some c →
      ∃ x, Gives cell x ∧ c.2[i]? = some x

theorem column_map_some {table : List (List Binary64)} {j : Nat}
    (hwidth : ∀ values ∈ table, values.length = width) (hj : j < width) :
    (column table j).map some = table.map (·[j]?) := by
  induction table with
  | nil => rfl
  | cons values table ih =>
    obtain ⟨hvalues, htable⟩ := List.forall_mem_cons.mp hwidth
    have hcell : values[j]? = some values[j] := List.getElem?_eq_getElem (hvalues ▸ hj)
    simp only [column, List.filterMap_cons, hcell, List.map_cons]
    exact congrArg _ (ih htable)

theorem IsRow.exists_value {i : Nat} (h : IsRow width row values) (hi : row[i]? = some cell) :
    ∃ x, Gives cell x ∧ values[i]? = some x := by
  obtain ⟨hlt, rfl⟩ := List.getElem?_eq_some_iff.mp hi
  have hlt' : i < values.length := h.2.length_eq ▸ hlt
  exact ⟨values[i], h.2.get hlt hlt', List.getElem?_eq_getElem hlt'⟩

theorem transposes_of_rows {header : List String} {table : List (List Binary64)}
    (h : List.Forall₂ (IsRow header.length) rows table) :
    Transposes header rows
      ((header.map Text.trim).mapIdx fun j name => (name, column table j)) := by
  have hwidth : ∀ values ∈ table, values.length = header.length := by
    intro values hvalues
    obtain ⟨i, hi, rfl⟩ := List.mem_iff_getElem.mp hvalues
    have hrow := h.get (h.length_eq ▸ hi) hi
    exact hrow.2.length_eq.symm.trans hrow.1
  refine ⟨?_, ?_, ?_⟩
  · apply List.ext_getElem?
    simp [Function.comp_def]
  · intro c hc
    obtain ⟨j, hj, rfl⟩ := List.mem_mapIdx.mp hc
    rw [List.length_map] at hj
    have hlength := congrArg List.length (column_map_some hwidth hj)
    rw [List.length_map, List.length_map] at hlength
    rw [hlength, h.length_eq]
  · intro i j row cell c hrow hcell hc
    rw [List.getElem?_mapIdx] at hc
    obtain ⟨name, hname, rfl⟩ := Option.map_eq_some_iff.mp hc
    obtain ⟨hj, -⟩ := List.getElem?_eq_some_iff.mp hname
    rw [List.length_map] at hj
    obtain ⟨hi, rfl⟩ := List.getElem?_eq_some_iff.mp hrow
    have hi' : i < table.length := h.length_eq ▸ hi
    obtain ⟨x, hx, hvalue⟩ := (h.get hi hi').exists_value hcell
    refine ⟨x, hx, ?_⟩
    have hcolumn := congrArg (·[i]?) (column_map_some hwidth hj)
    simp only [List.getElem?_map, List.getElem?_eq_getElem hi', Option.map_some] at hcolumn
    rw [show table[i][j]? = some x from hvalue] at hcolumn
    simpa using hcolumn

/-! ## Logs -/

section Logs

variable {text : String} {records : List (List String)} {header : List String}
  {found : Columns}

theorem columns_of_not_headed (h : HasRecords text records)
    (hheaded : ∀ header rows, ¬ Headed records header rows) : columns text = .error .noHeader := by
  cases records with
  | nil =>
    rw [columns, h.readTable_of_nil]
    rfl
  | cons header rows =>
    obtain ⟨raws, -, htable⟩ := h.exists_readTable
    have hblank : (header.map Text.trim).all (·.isEmpty) = true := by
      rw [List.all_map, List.all_eq_true]
      intro name hname
      have hempty : Text.trim name = "" :=
        by_contra fun hne => hheaded header rows ⟨rfl, name, hname, hne⟩
      simp [hempty]
    simp only [columns, htable, Except.mapError, bind, Except.bind, ofTable, hblank, if_true]
    rfl

theorem Headed.exists_columns_eq (hheaded : Headed records header rows)
    (h : HasRecords text records) :
    ∃ raws : List RawRecord, raws.map (·.fields) = rows.map fieldOctets ∧
      columns text = (readRows 1 (Csv.readRows header.length 1 raws)).map fun table =>
        (header.map Text.trim).mapIdx fun j name => (name, column table j) := by
  obtain ⟨rfl, name, hname, hne⟩ := hheaded
  obtain ⟨raws, hraws, htable⟩ := h.exists_readTable
  have hsome : (header.map Text.trim).all (·.isEmpty) = false := by
    rw [List.all_eq_false]
    exact ⟨Text.trim name, List.mem_map_of_mem hname, by simpa using hne⟩
  refine ⟨raws, hraws, ?_⟩
  simp only [columns, htable, Except.mapError, bind, Except.bind, ofTable, hsome]
  cases readRows 1 (Csv.readRows header.length 1 raws) <;> rfl

theorem Headed.columns_eq_ok_iff (hheaded : Headed records header rows)
    (h : HasRecords text records) :
    columns text = .ok found ↔ ∃ table, List.Forall₂ (IsRow header.length) rows table ∧
      found = (header.map Text.trim).mapIdx fun j name => (name, column table j) := by
  obtain ⟨raws, hraws, heq⟩ := hheaded.exists_columns_eq h
  simp only [heq, ← readRows_eq_ok_iff hraws]
  cases readRows 1 (Csv.readRows header.length 1 raws) <;> simp [Except.map, eq_comm]

theorem Headed.offends (hheaded : Headed records header rows) (h : HasRecords text records)
    (herror : columns text = .error f) :
    ∃ before row after, rows = before ++ row :: after ∧
      (∀ r ∈ before, ∃ values, IsRow header.length r values) ∧
      Offends header.length (before.length + 1) row f := by
  obtain ⟨raws, hraws, heq⟩ := hheaded.exists_columns_eq h
  apply offends_of_readRows hraws
  rw [heq] at herror
  cases hrows : readRows 1 (Csv.readRows header.length 1 raws) with
  | error f' =>
    rw [hrows] at herror
    cases herror
    rfl
  | ok table =>
    rw [hrows] at herror
    cases herror

theorem exists_headed (h : HasRecords text records) (hfound : columns text = .ok found) :
    ∃ header rows table, Headed records header rows ∧
      List.Forall₂ (IsRow header.length) rows table ∧
      found = (header.map Text.trim).mapIdx fun j name => (name, column table j) := by
  by_cases hheaded : ∃ header rows, Headed records header rows
  · obtain ⟨header, rows, hheaded⟩ := hheaded
    obtain ⟨table, htable⟩ := (hheaded.columns_eq_ok_iff h).mp hfound
    exact ⟨header, rows, table, hheaded, htable⟩
  · have herror := columns_of_not_headed h fun header rows hh => hheaded ⟨header, rows, hh⟩
    cases herror.symm.trans hfound

theorem exists_transposes (h : HasRecords text records) (hfound : columns text = .ok found) :
    ∃ header rows, Headed records header rows ∧ Transposes header rows found := by
  obtain ⟨header, rows, table, hheaded, htable, rfl⟩ := exists_headed h hfound
  exact ⟨header, rows, hheaded, transposes_of_rows htable⟩

theorem exists_columns_iff (h : HasRecords text records) :
    (∃ found, columns text = .ok found) ↔ ∃ header rows, Headed records header rows ∧
      ∀ row ∈ rows, ∃ values, IsRow header.length row values := by
  constructor
  · rintro ⟨found, hfound⟩
    obtain ⟨header, rows, table, hheaded, htable, -⟩ := exists_headed h hfound
    refine ⟨header, rows, hheaded, fun row hrow => ?_⟩
    obtain ⟨i, hi, rfl⟩ := List.mem_iff_getElem.mp hrow
    exact ⟨_, htable.get hi (htable.length_eq ▸ hi)⟩
  · rintro ⟨header, rows, hheaded, hrows⟩
    choose! numbers hnumbers using hrows
    refine ⟨_, (hheaded.columns_eq_ok_iff h).mpr ⟨rows.map numbers, ?_, rfl⟩⟩
    exact List.forall₂_map_right_iff.mpr (List.forall₂_same.mpr hnumbers)

/-- Statistics need a value in every column, and so a row. -/
theorem exists_stats_iff (h : HasRecords text records) :
    (∃ all, stats text = .ok all) ↔ (∃ found, columns text = .ok found) ∧ 1 < records.length := by
  have hrows : ∀ {found}, columns text = .ok found →
      ((∀ c ∈ found, c.2 ≠ []) ↔ 1 < records.length) := by
    intro found hfound
    obtain ⟨header, rows, ⟨rfl, name, hname, -⟩, hcolumns⟩ := exists_transposes h hfound
    rw [List.length_cons, Nat.lt_add_left_iff_pos]
    constructor
    · intro hne
      obtain ⟨c, hc⟩ := List.exists_mem_of_ne_nil found fun hnil => by
        have hnames := hcolumns.names
        rw [hnil, List.map_nil, eq_comm, List.map_eq_nil_iff] at hnames
        exact List.not_mem_nil (hnames ▸ hname)
      rw [← hcolumns.length c hc]
      exact List.length_pos_iff.mpr (hne c hc)
    · intro hpos c hc
      rw [← List.length_pos_iff, hcolumns.length c hc]
      exact hpos
  constructor
  · rintro ⟨all, hall⟩
    obtain ⟨found, entries, hfound, -, hentries⟩ := stats_eq_ok_iff.mp hall
    have hne := exists_statsOf_iff.mp ⟨entries, statsOf_eq_ok_iff.mpr hentries⟩
    exact ⟨⟨found, hfound⟩, (hrows hfound).mp hne⟩
  · rintro ⟨⟨found, hfound⟩, hlength⟩
    obtain ⟨entries, hentries⟩ := exists_statsOf_iff.mpr ((hrows hfound).mpr hlength)
    exact ⟨_, stats_eq_ok_iff.mpr
      ⟨found, entries, hfound, rfl, statsOf_eq_ok_iff.mp hentries⟩⟩

theorem get?_stats_iff {all : Keyed LatencyStats} (hall : stats text = .ok all)
    (hfound : columns text = .ok found) (name : String) (s : LatencyStats) :
    Keyed.get? name all = some s ↔
      ∃ values, Keyed.LastUnder name values found ∧ FromValues values s := by
  obtain ⟨found', entries, hfound', rfl, hentries⟩ := stats_eq_ok_iff.mp hall
  cases hfound.symm.trans hfound'
  rw [Keyed.get?_ofList_eq_some_iff]
  constructor
  · exact fun hlast => hlast.of_forall₂ FromValues hentries
  · rintro ⟨values, hlast, hs⟩
    obtain ⟨s', hlast', hs'⟩ := hlast.of_forall₂ (fun s values => FromValues values s)
      (hentries.flip.imp fun _ _ he => ⟨he.1.symm, he.2⟩)
    cases hs.symm.trans hs'
    exact hlast'

/-- Whatever the text is, its columns are read exactly if its header is not blank and every other
record is a row of numbers as wide as the header.  Then nothing is lost or shifted; otherwise the
first record that is no such row is at fault.  Statistics need a row besides. -/
theorem columns_of_records (text : String) :
    ∃ records, HasRecords text records ∧
      ((∃ found, columns text = .ok found) ↔ ∃ header rows, Headed records header rows ∧
        ∀ row ∈ rows, ∃ values, IsRow header.length row values) ∧
      (∀ found, columns text = .ok found →
        ∃ header rows, Headed records header rows ∧ Transposes header rows found) ∧
      (∀ header rows f, Headed records header rows → columns text = .error f →
        ∃ before row after, rows = before ++ row :: after ∧
          (∀ r ∈ before, ∃ values, IsRow header.length r values) ∧
          Offends header.length (before.length + 1) row f) ∧
      ((∀ header rows, ¬ Headed records header rows) → columns text = .error .noHeader) ∧
      ((∃ all, stats text = .ok all) ↔
        (∃ found, columns text = .ok found) ∧ 1 < records.length) ∧
      (∀ all found, stats text = .ok all → columns text = .ok found →
        ∀ name s, Keyed.get? name all = some s ↔
          ∃ values, Keyed.LastUnder name values found ∧ FromValues values s) ∧
      ∀ fs p, fs.readText p = .ok text →
        readColumns fs p = (columns text).mapError (.malformedLog p) ∧
        readStats fs p = (stats text).mapError (.malformedLog p) := by
  obtain ⟨records, h⟩ := Csv.exists_hasRecords text
  refine ⟨records, h, exists_columns_iff h, fun found => exists_transposes h,
    fun header rows f hheaded => hheaded.offends h, columns_of_not_headed h, exists_stats_iff h,
    fun all found hall hfound => get?_stats_iff hall hfound, fun fs p htext => ?_⟩
  rw [readColumns, readStats, FileSystem.loadText, htext]
  exact ⟨rfl, rfl⟩

end Logs

/-- There are a byte order mark, blanks, quotes, an empty line and a carriage return. -/
def quotedLog : String :=
  "\uFEFFprocess,\"que\"\"ue\" \r\n\n 10,\"2.5\"\n\"20\"0,-1e1"

/-- The second row is too narrow, and the third one has no number. -/
def narrowLog : String :=
  "process,queue\n1,2\n\n3\nx,4\n"

def logFile (text : String) : FileSystem :=
  ⟨[(["access.csv"], .file text.toUTF8 false)]⟩

theorem columns_of_records_quotedLog :
    (∃ records found header rows, HasRecords quotedLog records ∧ columns quotedLog = .ok found ∧
      Headed records header rows ∧ Transposes header rows found ∧
      Keyed.keys found = ["process", "que\"ue"] ∧ rows.length = 2 ∧
      ∃ all, stats quotedLog = .ok all) ∧
    (∃ records header rows before row after, HasRecords narrowLog records ∧
      Headed records header rows ∧ rows = before ++ row :: after ∧
      Offends header.length (before.length + 1) row (.table (.width 2 ⟨18, 3⟩ 1 2))) ∧
    readColumns (logFile narrowLog) ⟨"access.csv"⟩ =
      .error (.malformedLog ⟨"access.csv"⟩ (.table (.width 2 ⟨18, 3⟩ 1 2))) := by
  have hfound : columns quotedLog =
      .ok [("process", [⟨4621819117588971520⟩, ⟨4641240890982006784⟩]),
        ("que\"ue", [⟨4612811918334230528⟩, ⟨13845191154443747328⟩])] := by
    decide +kernel
  have hnarrow : columns narrowLog = .error (.table (.width 2 ⟨18, 3⟩ 1 2)) := by
    decide +kernel
  refine ⟨?_, ?_, ?_⟩
  · obtain ⟨records, h, -, htransposes, -, -, hstats, -⟩ := columns_of_records quotedLog
    obtain ⟨header, rows, hheaded, hcolumns⟩ := htransposes _ hfound
    have hrows : rows.length = 2 := (hcolumns.length _ List.mem_cons_self).symm
    have hlength : 1 < records.length := by
      rw [hheaded.1, List.length_cons, hrows]
      decide
    exact ⟨records, _, header, rows, h, hfound, hheaded, hcolumns, rfl, hrows,
      hstats.mpr ⟨⟨_, hfound⟩, hlength⟩⟩
  · obtain ⟨records, h, -, -, hoffends, hblank, -⟩ := columns_of_records narrowLog
    by_cases hheaded : ∃ header rows, Headed records header rows
    · obtain ⟨header, rows, hheaded⟩ := hheaded
      obtain ⟨before, row, after, hrows, -, hrow⟩ := hoffends header rows _ hheaded hnarrow
      exact ⟨records, header, rows, before, row, after, h, hheaded, hrows, hrow⟩
    · have herror := hblank fun header rows hh => hheaded ⟨header, rows, hh⟩
      cases hnarrow.symm.trans herror
  · obtain ⟨_, -, -, -, -, -, -, -, hfile⟩ := columns_of_records narrowLog
    rw [(hfile _ _ (by decide +kernel)).1, hnarrow]
    rfl

end AccessLog
end MappingSweep
