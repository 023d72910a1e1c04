import MappingSweep.Proofs.Report.Progress
import MappingSweep.Proofs.Report.Shape
import MappingSweep.Proofs.Row.Log

/-!
# Reports are faithful

A report can be made of a table exactly when every cell of it is blank, text, or a number where its
column needs one.  It has the records of the table in their order, cell by cell in the form of the
columns, and blank cells and counts stay what they are.  It is read like that again, unless its
header would be taken for one behind a byte order mark.
-/

namespace MappingSweep

namespace Number

theorem isDecimal_of_readNat {cs : List Char} {n : Nat} (h : readNat 10 cs = some n) :
    IsDecimal cs := by
  obtain ⟨hne, hdigits, -⟩ := readNat_eq_some_iff.mp h
  exact .whole hne hdigits

/-- Whatever is read as a word is read as a number. -/
theorem isSome_readBinary64_of_readWord {cs : List Char} {n : UInt64} (h : readWord cs = some n) :
    (readBinary64 cs).isSome = true := by
  obtain ⟨k, hk⟩ : ∃ k, readNat 10 (stripPlus cs) = some k := by
    unfold readWord at h
    cases hk : readNat 10 (stripPlus cs) with
    | none => rw [hk] at h; cases h
    | some k => exact ⟨k, rfl⟩
  have hdecimal := isDecimal_of_readNat hk
  unfold stripPlus at hdecimal
  split at hdecimal
  · exact isSome_readMagnitude hdecimal
  · exact isSome_readBinary64 hdecimal

theorem mem_signed {c : Char} {cs : List Char} (x : Binary64) (h : c ∈ cs) :
    c ∈ (x.signed cs).toList := by
  rw [Binary64.signed, String.toList_ofList]
  split
  · exact List.mem_cons_of_mem '-' h
  · exact h

/-- A text with places is no numeral of a word: it has a point, or it is that of no number. -/
theorem exists_not_digit_toFixed {places : Nat} (hplaces : places ≠ 0) (x : Binary64) :
    ∃ c ∈ (x.toFixed places).toList, isDigit c = false := by
  unfold Binary64.toFixed
  split
  · exact ⟨'N', by decide, rfl⟩
  · exact ⟨'f', mem_signed x (by decide), rfl⟩
  · refine ⟨'.', mem_signed x ?_, rfl⟩
    rw [withPoint, if_neg hplaces]
    exact List.mem_append_right _ List.mem_cons_self

end Number

namespace ColumnKind

variable {kind : ColumnKind} {cell text : String}

/-- A blank cell, a cell of a text column, or a number. -/
def Accepts (kind : ColumnKind) (cell : String) : Prop :=
  Text.trim cell = "" ∨ kind = .text ∨
    (Number.readBinary64 (Text.trim cell).toList).isSome = true

/-- What a cell becomes in a column.  Blank cells stay blank, and counts what they are. -/
structure Renders (kind : ColumnKind) (cell text : String) : Prop where
  format : kind.format cell = .ok text
  blank : Text.trim cell = "" → text = ""
  word : kind = .integer → ∀ n, Number.readWord (Text.trim cell).toList = some n →
    text = Row.wordText n

theorem format_eq (kind : ColumnKind) (cell : String) :
    kind.format cell =
      if Text.trim cell = "" then .ok ""
      else match kind.formatNumber (Text.trim cell).toList with
        | some text => .ok text
        | none => .error (Text.trim cell) := by
  have hempty : Text.trim cell = "" ↔ Text.trimChars cell.toList = [] := by
    rw [Text.trim, ← String.toList_inj, String.toList_ofList]
    rfl
  unfold format
  split
  · rename_i hnil
    rw [if_pos (hempty.mpr hnil)]
  · rename_i c cs hcons
    have htext : Text.trim cell = String.ofList (c :: cs) := congrArg String.ofList hcons
    have hlist : (Text.trim cell).toList = c :: cs := by rw [htext, String.toList_ofList]
    have hsome : ¬ Text.trim cell = "" := by
      intro hblank
      rw [hempty.mp hblank] at hcons
      cases hcons
    rw [if_neg hsome, hlist]
    cases kind.formatNumber (c :: cs) with
    | some text => rfl
    | none => exact congrArg Except.error htext.symm

theorem format_trim (kind : ColumnKind) (cell : String) :
    kind.format (Text.trim cell) = kind.format cell := by
  rw [format_eq, format_eq, Text.trim_trim]

theorem accepts_iff_shows : kind.Accepts cell ↔ kind.Shows cell := by
  unfold Accepts Shows
  rw [format_eq]
  by_cases hblank : Text.trim cell = ""
  · simp [hblank]
  · simp only [hblank, if_false, false_or]
    constructor
    · intro h
      have hsome : (kind.formatNumber (Text.trim cell).toList).isSome = true := by
        rcases h with rfl | hnumber
        · rfl
        · exact kind.isSome_formatNumber hnumber
      obtain ⟨text, htext⟩ := Option.isSome_iff_exists.mp hsome
      exact ⟨text, by rw [htext]⟩
    · rintro ⟨text, htext⟩
      cases kind with
      | text => exact .inl rfl
      | integer =>
        right
        cases hword : Number.readWord (Text.trim cell).toList with
        | some n => exact Number.isSome_readBinary64_of_readWord hword
        | none =>
          cases hnumber : Number.readBinary64 (Text.trim cell).toList with
          | some x => rfl
          | none => simp [formatNumber, hword, hnumber] at htext
      | decimal | percent =>
        right
        cases hnumber : Number.readBinary64 (Text.trim cell).toList with
        | some x => rfl
        | none => simp [formatNumber, hnumber] at htext

theorem renders_of_format (h : kind.format cell = .ok text) : kind.Renders cell text where
  format := h
  blank := by
    intro hblank
    rw [format_eq, if_pos hblank] at h
    exact (Except.ok.inj h).symm
  word := by
    rintro rfl n hn
    have hsome : ¬ Text.trim cell = "" := by
      intro hblank
      rw [hblank] at hn
      cases hn
    rw [format_eq, if_neg hsome, formatNumber, hn] at h
    exact (Except.ok.inj h).symm

theorem format_text (cell : String) : format .text cell = .ok (Text.trim cell) := by
  rw [format_eq]
  split
  · rename_i hblank
    rw [hblank]
  · rw [formatNumber, String.ofList_toList]

/-- Counts keep their numerals in the columns of counts and of texts, and in no other ones. -/
theorem eq_wordText_iff {n : UInt64} (h : kind.format (Row.wordText n) = .ok text) :
    text = Row.wordText n ↔ kind = .integer ∨ kind = .text := by
  have hnumeral : Number.IsNumeral (Row.wordText n) := Number.isNumeral_decimal n.toNat
  have htrim := Text.trim_of_solid hnumeral.solid
  have hdigits : ∀ c ∈ (Row.wordText n).toList, Number.isDigit c = true := by
    rw [Row.wordText, Number.decimal, String.toList_ofList]
    exact fun c => Number.isDigit_of_mem_digits
  have hplaces : ∀ (x : Number.Binary64) (ending : String),
      x.toFixed 2 ++ ending ≠ Row.wordText n := by
    intro x ending heq
    obtain ⟨c, hc, hother⟩ := Number.exists_not_digit_toFixed (by decide : 2 ≠ 0) x
    have hdigit := hdigits c (by
      rw [← heq, String.toList_append]
      exact List.mem_append_left _ hc)
    rw [hother] at hdigit
    cases hdigit
  rw [format_eq, htrim, if_neg hnumeral.ne_empty] at h
  have hrendered : ∀ render : Number.Binary64 → String, (∀ x, render x ≠ Row.wordText n) →
      kind.formatNumber (Row.wordText n).toList =
        (Number.readBinary64 (Row.wordText n).toList).map render → text ≠ Row.wordText n := by
    rintro render hrender hform rfl
    rw [hform] at h
    cases hnumber : Number.readBinary64 (Row.wordText n).toList with
    | none => rw [hnumber] at h; cases h
    | some x =>
      rw [hnumber] at h
      exact hrender x (Except.ok.inj h)
  cases kind with
  | text =>
    rw [formatNumber, String.ofList_toList] at h
    simp [(Except.ok.inj h).symm]
  | integer =>
    rw [formatNumber, Row.readWord_wordText] at h
    simp [(Except.ok.inj h).symm, Row.wordText]
  | decimal =>
    have hne := hrendered (·.toFixed 2) (fun x => by simpa using hplaces x "") rfl
    simpa using hne
  | percent =>
    have hne := hrendered _ (fun x => hplaces _ "%") rfl
    simpa using hne

theorem ofName_eq_integer_or_text_iff (name : String) :
    ofName name = .integer ∨ ofName name = .text ↔ name ∉ percentColumns ++ decimalColumns := by
  have hapart : name ∈ textColumns → name ∉ percentColumns ++ decimalColumns := by
    intro hname
    simp only [textColumns, List.mem_cons, List.not_mem_nil, or_false] at hname
    rcases hname with rfl | rfl | rfl <;> decide
  unfold ofName
  split
  · rename_i hname
    simpa using hapart hname
  · rw [List.mem_append]
    split
    · rename_i hname
      simp [hname]
    · split
      · rename_i hname
        simp [hname]
      · rename_i hpercent hdecimal
        simp [hpercent, hdecimal]

end ColumnKind

/-! ## Records -/

namespace Report

/-- The kind of a column by its name as it stands. -/
def kindOf (name : String) : ColumnKind :=
  .ofName (Text.trim name)

/-- The shown records are the given ones, cell by cell in the form of the columns. -/
structure Renders (header : List String) (records shown : List (List String)) : Prop where
  rows : shown.length = records.length
  columns : ∀ row ∈ shown, row.length = header.length
  cells : ∀ (i j : Nat) name cell, header[j]? = some name →
    (records[i]?.bind (·[j]?)) = some cell →
      ∃ text, (shown[i]?.bind (·[j]?)) = some text ∧ (kindOf name).Renders cell text

/-- The file is a table that can be reported, with at least one record under the header. -/
structure Reportable (fs : FileSystem) (sink : Path) (header : List String)
    (records : List (List String)) : Prop where
  reads : ∃ content, fs.readBytes sink = .ok content ∧
    Csv.readRecords content = .ok (header :: records)
  columns : header ≠ []
  rows : records ≠ []
  cells : ∀ record ∈ records, List.Forall₂ (fun name cell => (kindOf name).Accepts cell)
    header record

variable {kinds : List ColumnKind} {cells row : List String}

theorem formatCells_trim (kinds : List ColumnKind) (cells : List String) :
    formatCells kinds (cells.map Text.trim) = formatCells kinds cells := by
  induction kinds generalizing cells with
  | nil => cases cells <;> rfl
  | cons kind kinds ih =>
    cases cells with
    | nil => rfl
    | cons cell cells =>
      simp only [List.map_cons, formatCells, ColumnKind.format_trim, ih]

theorem formatCells_cons_eq_ok {kind : ColumnKind} {cell : String}
    (h : formatCells (kind :: kinds) (cell :: cells) = .ok row) :
    ∃ text rest, kind.format cell = .ok text ∧ formatCells kinds cells = .ok rest ∧
      row = text :: rest := by
  unfold formatCells at h
  cases hcell : kind.format cell with
  | error e => rw [hcell] at h; cases h
  | ok text =>
    rw [hcell] at h
    cases hrest : formatCells kinds cells with
    | error e => rw [hrest] at h; cases h
    | ok rest =>
      rw [hrest] at h
      cases h
      exact ⟨text, rest, rfl, rfl, rfl⟩

/-- Only records whose cells are all shown have a form. -/
theorem forall₂_shows_of_formatCells (hlength : kinds.length = cells.length)
    (h : formatCells kinds cells = .ok row) : List.Forall₂ ColumnKind.Shows kinds cells := by
  induction kinds generalizing cells row with
  | nil =>
    rw [List.eq_nil_of_length_eq_zero hlength.symm]
    exact .nil
  | cons kind kinds ih =>
    obtain ⟨cell, cells, rfl⟩ := List.exists_cons_of_length_eq_add_one hlength.symm
    obtain ⟨text, rest, hcell, hrest, rfl⟩ := formatCells_cons_eq_ok h
    exact .cons ⟨text, hcell⟩ (ih (Nat.succ.inj hlength) hrest)

theorem getElem?_formatCells (h : formatCells kinds cells = .ok row) {j : Nat} {kind : ColumnKind}
    {cell : String} (hkind : kinds[j]? = some kind) (hcell : cells[j]? = some cell) :
    ∃ text, row[j]? = some text ∧ kind.format cell = .ok text := by
  induction kinds generalizing cells row j with
  | nil => cases hkind
  | cons first kinds ih =>
    cases cells with
    | nil => cases hcell
    | cons other cells =>
      obtain ⟨text, rest, htext, hrest, rfl⟩ := formatCells_cons_eq_ok h
      cases j with
      | zero =>
        cases hkind
        cases hcell
        exact ⟨text, rfl, htext⟩
      | succ j => exact ih hrest hkind hcell

/-- The rows of a report are those of the table, which could all be read. -/
theorem formatRows_eq_ok_iff {number : Nat} {rows : List (Except Csv.Fault (List String))}
    {shown : List (List String)} :
    formatRows kinds number rows = .ok shown ↔
      ∃ table, rows = table.map .ok ∧
        List.Forall₂ (fun cells row => formatCells kinds cells = .ok row) table shown := by
  constructor
  · intro h
    induction rows generalizing number shown with
    | nil =>
      cases h
      exact ⟨[], rfl, .nil⟩
    | cons result rows ih =>
      cases result with
      | error f => cases h
      | ok cells =>
        unfold formatRows at h
        cases hcells : (formatCells kinds cells).mapError (ReportFault.cell number) with
        | error e => rw [hcells] at h; cases h
        | ok row =>
          rw [hcells] at h
          cases hrest : formatRows kinds (number + 1) rows with
          | error e => rw [hrest] at h; cases h
          | ok rest =>
            rw [hrest] at h
            cases h
            obtain ⟨table, rfl, hall⟩ := ih hrest
            exact ⟨cells :: table, rfl, .cons (mapError_eq_ok hcells) hall⟩
  · rintro ⟨table, rfl, h⟩
    induction h generalizing number with
    | nil => rfl
    | cons hcells _ ih =>
      rw [List.map_cons, formatRows, hcells, ih]
      rfl

/-- What a table and its report have to do with each other. -/
theorem records_eq_ok_iff {sink : Path} {content : ByteArray} {names : List String}
    {shown : List (List String)} :
    records sink content = .ok (names, shown) ↔
      ∃ header table, Csv.readRecords content = .ok (header :: table) ∧ header ≠ [] ∧
        table ≠ [] ∧ names = header.map Text.trim ∧
        List.Forall₂ (fun record row => formatCells (header.map kindOf) record = .ok row)
          table shown := by
  have hkinds : ∀ header : List String,
      (header.map Text.trim).map ColumnKind.ofName = header.map kindOf :=
    fun header => List.map_map
  have hforms : ∀ (header : List String) (table shown : List (List String)),
      List.Forall₂ (fun cells row => formatCells (header.map kindOf) cells = .ok row)
          (table.map (List.map Text.trim)) shown ↔
        List.Forall₂ (fun record row => formatCells (header.map kindOf) record = .ok row)
          table shown := by
    intro header table shown
    rw [List.forall₂_map_left_iff]
    simp only [formatCells_trim]
  unfold records
  constructor
  · intro h
    cases htable : Csv.readTable content with
    | error f => rw [htable] at h; cases h
    | ok found =>
      obtain ⟨names', rows⟩ := found
      simp only [htable, mapError_ok, bind, Except.bind] at h
      split at h
      · cases h
      · rename_i hnames
        cases hrows : formatRows (names'.map ColumnKind.ofName) 1 rows with
        | error e => rw [hrows] at h; cases h
        | ok shown' =>
          simp only [hrows] at h
          split at h
          · cases h
          · rename_i hshown
            cases h
            obtain ⟨table, rfl, hall⟩ := formatRows_eq_ok_iff.mp hrows
            have hne : names ≠ [] := fun hnil => hnames (by rw [hnil]; rfl)
            obtain ⟨header, rest, hread, rfl, rfl⟩ := (Csv.readTable_eq_ok_iff hne).mp htable
            rw [hkinds, hforms] at hall
            refine ⟨header, rest, hread, fun hnil => hne (by rw [hnil]; rfl), ?_, rfl, hall⟩
            rintro rfl
            cases hall
            exact hshown rfl
  · rintro ⟨header, table, hread, hheader, htable, rfl, hall⟩
    have hne : header.map Text.trim ≠ [] := fun hnil => hheader (List.map_eq_nil_iff.mp hnil)
    have hrows : formatRows ((header.map Text.trim).map .ofName) 1
        ((table.map (List.map Text.trim)).map .ok) = .ok shown := by
      rw [hkinds]
      exact formatRows_eq_ok_iff.mpr ⟨_, rfl, (hforms header table shown).mpr hall⟩
    have hnames : (header.map Text.trim).isEmpty = false := List.isEmpty_eq_false_iff.mpr hne
    have hshown : shown.isEmpty = false := by
      cases hall with
      | nil => exact absurd rfl htable
      | cons _ _ => rfl
    rw [(Csv.readTable_eq_ok_iff hne).mpr ⟨header, table, hread, rfl, rfl⟩]
    simp only [mapError_ok, bind, Except.bind, hnames, hrows, hshown]
    rfl

/-! ## Reports -/

section Build

variable {fs fs' : FileSystem} {sink target : Path} {report : Report} {header : List String}
  {records shown : List (List String)}

theorem accepts_iff_shows {record : List String} :
    List.Forall₂ (fun name cell => (kindOf name).Accepts cell) header record ↔
      List.Forall₂ ColumnKind.Shows (header.map kindOf) record := by
  simp only [List.forall₂_map_left_iff, ColumnKind.accepts_iff_shows]

theorem length_of_readRecords {content : ByteArray}
    (h : Csv.readRecords content = .ok (header :: records)) :
    ∀ record ∈ records, (header.map kindOf).length = record.length := by
  intro record hrecord
  rw [List.length_map, (Csv.readRecords_eq_ok_iff.mp h).2 record hrecord]

theorem renders_of_formatCells
    (hwidth : ∀ record ∈ records, (header.map kindOf).length = record.length)
    (h : List.Forall₂ (fun record row => formatCells (header.map kindOf) record = .ok row)
      records shown) : Renders header records shown := by
  refine ⟨h.length_eq.symm, ?_, ?_⟩
  · intro row hrow
    obtain ⟨i, hi, rfl⟩ := List.mem_iff_getElem.mp hrow
    have hlt : i < records.length := by rwa [h.length_eq]
    have hform : formatCells (header.map kindOf) records[i] = .ok shown[i] := h.get hlt hi
    rw [length_formatCells (hwidth _ (List.getElem_mem hlt)) hform, List.length_map]
  · intro i j name cell hname hcell
    obtain ⟨record, hrecord, hcell⟩ := Option.bind_eq_some_iff.mp hcell
    obtain ⟨hlt, rfl⟩ := List.getElem?_eq_some_iff.mp hrecord
    have hi : i < shown.length := by rwa [← h.length_eq]
    have hkind : (header.map kindOf)[j]? = some (kindOf name) := by
      rw [List.getElem?_map, hname, Option.map_some]
    obtain ⟨text, htext, hformat⟩ := getElem?_formatCells (h.get hlt hi) hkind hcell
    refine ⟨text, ?_, ColumnKind.renders_of_format hformat⟩
    rw [List.getElem?_eq_getElem hi, Option.bind_some]
    exact htext

theorem reportable_of_records {content : ByteArray} {names : List String}
    (hread : fs.readBytes sink = .ok content)
    (hrecords : Report.records sink content = .ok (names, shown)) :
    ∃ header records, Reportable fs sink header records := by
  obtain ⟨header, records, htable, hheader, hrows, -, hall⟩ := records_eq_ok_iff.mp hrecords
  refine ⟨header, records, ⟨content, hread, htable⟩, hheader, hrows, ?_⟩
  have hwidth := length_of_readRecords htable
  intro record hrecord
  obtain ⟨i, hi, rfl⟩ := List.mem_iff_getElem.mp hrecord
  have hlt : i < shown.length := by rwa [← hall.length_eq]
  exact accepts_iff_shows.mpr (forall₂_shows_of_formatCells (hwidth _ hrecord) (hall.get hi hlt))

theorem reportable_of_build (h : build sink target fs = .ok (report, fs')) :
    ∃ header records, Reportable fs sink header records := by
  obtain ⟨content, names, shown, hread, hrecords, -, -⟩ := build_eq_ok_iff.mp h
  exact reportable_of_records hread hrecords

theorem Reportable.exists_formatCells (h : Reportable fs sink header records) :
    ∃ shown, List.Forall₂ (fun record row => formatCells (header.map kindOf) record = .ok row)
      records shown := by
  have hcells := h.cells
  clear h
  induction records with
  | nil => exact ⟨[], .nil⟩
  | cons record records ih =>
    obtain ⟨hrecord, hrest⟩ := List.forall_mem_cons.mp hcells
    obtain ⟨row, hrow⟩ := Report.exists_formatCells (accepts_iff_shows.mp hrecord)
    obtain ⟨shown, hshown⟩ := ih hrest
    exact ⟨row :: shown, .cons hrow hshown⟩

/-- What is written of a table can be read, unless it would be taken for one behind a byte order
mark. -/
theorem Renders.readRecords_encodeAll (h : Renders header records shown) (hheader : header ≠ [])
    (hmark : Csv.marked (header.map Text.trim) = false) :
    Csv.readRecords (Csv.encodeAll (header.map Text.trim :: shown)).toUTF8 =
      .ok (header.map Text.trim :: shown) := by
  obtain ⟨first, columns, rfl⟩ := List.exists_cons_of_ne_nil hheader
  apply Csv.readRecords_encodeAll hmark
  intro row hrow
  rw [h.columns row hrow, List.length_cons, List.length_cons, List.length_map]

end Build

end Report

/-- Whatever is to stand in the file can be written to it. -/
def FileSystem.Writable (fs : FileSystem) (p : Path) : Prop :=
  ∀ content, ∃ fs', fs.writeBytes p content = .ok fs'

namespace Report

/-- A report on a file succeeds exactly when the file is a table that can be reported.  It counts
the records and the columns, and has the trimmed names and the rendered records, which are read
again as they are unless the names would be taken for those behind a byte order mark. -/
theorem build_faithful {fs : FileSystem} {sink target : Path} (hwrite : fs.Writable target) :
    ((∃ made, build sink target fs = .ok made) ↔
      ∃ header records, Reportable fs sink header records) ∧
    ∀ header records, Reportable fs sink header records →
      ∃ fs' shown, build sink target fs = .ok (⟨target, records.length, header.length⟩, fs') ∧
        Renders header records shown ∧
        fs'.readBytes target = .ok (Csv.encodeAll (header.map Text.trim :: shown)).toUTF8 ∧
        (Csv.marked (header.map Text.trim) = false →
          Csv.readRecords (Csv.encodeAll (header.map Text.trim :: shown)).toUTF8 =
            .ok (header.map Text.trim :: shown)) := by
  have hbuild : ∀ header records, Reportable fs sink header records →
      ∃ fs' shown, build sink target fs = .ok (⟨target, records.length, header.length⟩, fs') ∧
        Renders header records shown ∧
        fs'.readBytes target = .ok (Csv.encodeAll (header.map Text.trim :: shown)).toUTF8 := by
    intro header records h
    obtain ⟨shown, hall⟩ := h.exists_formatCells
    obtain ⟨content, hread, htable⟩ := h.reads
    obtain ⟨fs', hfs'⟩ := hwrite (Csv.encodeAll (header.map Text.trim :: shown)).toUTF8
    have hrecords : Report.records sink content = .ok (header.map Text.trim, shown) :=
      records_eq_ok_iff.mpr ⟨header, records, htable, h.columns, h.rows, rfl, hall⟩
    refine ⟨fs', shown, build_eq_ok_iff.mpr ⟨content, _, shown, hread, hrecords, hfs', ?_⟩,
      renders_of_formatCells (length_of_readRecords htable) hall,
      FileSystem.readBytes_writeBytes hfs'⟩
    rw [hall.length_eq, List.length_map]
  refine ⟨⟨?_, ?_⟩, ?_⟩
  · rintro ⟨⟨report, fs'⟩, h⟩
    exact reportable_of_build h
  · rintro ⟨header, records, h⟩
    obtain ⟨fs', shown, hbuilt, -⟩ := hbuild header records h
    exact ⟨_, hbuilt⟩
  · intro header records h
    obtain ⟨fs', shown, hbuilt, hrenders, hread⟩ := hbuild header records h
    exact ⟨fs', shown, hbuilt, hrenders, hread, hrenders.readRecords_encodeAll h.columns⟩

/-- A directory with one file that a report is to be made of. -/
def sampleSink (content : ByteArray) : FileSystem :=
  ⟨[(["rows.csv"], .file content false)]⟩

theorem writable_sampleSink (content : ByteArray) :
    (sampleSink content).Writable ⟨"report.csv"⟩ :=
  fun _ => ⟨_, rfl⟩

def sampleTable : List (List String) :=
  [[" pattern", "RD", "avg_latency"], [" a ", " 18446744073709551615", ""]]

theorem reportable_sampleSink :
    Reportable (sampleSink (Csv.encodeAll sampleTable).toUTF8) ⟨"rows.csv"⟩
      [" pattern", "RD", "avg_latency"] [[" a ", " 18446744073709551615", ""]] where
  reads := ⟨_, rfl, Csv.readRecords_encodeAll rfl (by decide)⟩
  columns := by simp
  rows := by simp
  cells := by
    intro record hrecord
    rw [List.mem_singleton.mp hrecord]
    refine .cons (.inr (.inl ?_)) (.cons (.inr (.inr ?_)) (.cons (.inl rfl) .nil)) <;>
      decide +kernel

theorem build_faithful_sampleSink :
    ∃ fs' shown, build ⟨"rows.csv"⟩ ⟨"report.csv"⟩
        (sampleSink (Csv.encodeAll sampleTable).toUTF8) = .ok (⟨⟨"report.csv"⟩, 1, 3⟩, fs') ∧
      Renders [" pattern", "RD", "avg_latency"] [[" a ", " 18446744073709551615", ""]] shown ∧
      ∃ content, fs'.readBytes ⟨"report.csv"⟩ = .ok content ∧
        Csv.readRecords content = .ok (["pattern", "RD", "avg_latency"] :: shown) := by
  obtain ⟨fs', shown, hbuild, hrenders, hread, htable⟩ :=
    (build_faithful (writable_sampleSink _)).2 _ _ reportable_sampleSink
  have hnames : [" pattern", "RD", "avg_latency"].map Text.trim =
      ["pattern", "RD", "avg_latency"] := by decide +kernel
  rw [hnames] at hread htable
  exact ⟨fs', shown, hbuild, hrenders, _, hread, htable rfl⟩

/-- The records of the file that is written over the given content, if a report is made of it. -/
def reread (content : ByteArray) : Option (List (List String)) := do
  let (_, fs) ← (build ⟨"rows.csv"⟩ ⟨"report.csv"⟩ (sampleSink content)).toOption
  let written ← (fs.readBytes ⟨"report.csv"⟩).toOption
  (Csv.readRecords written).toOption

/-- The octets of a letter are parted by a quote, so that its field is text and the file is not. -/
def partedText : ByteArray :=
  "pattern\n".toUTF8 ++ ⟨#[0x22, 0xE2, 0x22, 0x82, 0xAC, 0x0A]⟩

/-- What is read in front of a name as part of it is written in front of the file, where it is taken
for a byte order mark; and fields can be text when the file is not. -/
theorem name_lost_behind_mark :
    (Csv.readRecords "\uFEFF\uFEFFa\n1\n".toUTF8).toOption = some [["\uFEFFa"], ["1"]] ∧
      ["\uFEFFa"].map Text.trim = ["\uFEFFa"] ∧
      reread "\uFEFF\uFEFFa\n1\n".toUTF8 = some [["a"], ["1"]] ∧
      String.fromUTF8? partedText = none ∧ reread partedText = some [["pattern"], ["€"]] := by
  decide +kernel

end Report
end MappingSweep
