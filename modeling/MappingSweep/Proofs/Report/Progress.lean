import Mathlib.Data.List.Forall2
import MappingSweep.Proofs.Csv.Decoding
import MappingSweep.Proofs.Number.Decimal
import MappingSweep.Proofs.Row.Funnel
import MappingSweep.Report.Basic

/-!
# Row logs that can be reported

A report is refused on a table that cannot be read, and on a cell that is no number where its column
needs one.  Neither happens to a log of rows.  Its fields stay text when blanks are taken off them
as octets, its first three columns are text, and whatever the others are called, there are only
numbers in them and blank cells.
-/

namespace MappingSweep

namespace ColumnKind

/-- The column has a form for the cell. -/
def Shows (kind : ColumnKind) (cell : String) : Prop :=
  ∃ shown, kind.format cell = .ok shown

theorem shows_of_formatNumber {kind : ColumnKind} {cell : String}
    (h : (kind.formatNumber (Text.trimChars cell.toList)).isSome = true) : kind.Shows cell := by
  unfold Shows format
  split
  · exact ⟨"", rfl⟩
  · rename_i c cs heq
    rw [heq] at h
    obtain ⟨shown, hshown⟩ := Option.isSome_iff_exists.mp h
    rw [hshown]
    exact ⟨shown, rfl⟩

theorem shows_text (cell : String) : text.Shows cell :=
  shows_of_formatNumber rfl

theorem isSome_formatNumber (kind : ColumnKind) {cell : List Char}
    (h : (Number.readBinary64 cell).isSome = true) : (kind.formatNumber cell).isSome = true := by
  cases kind with
  | text => rfl
  | integer =>
    unfold formatNumber
    dsimp only
    split
    · rfl
    · rwa [Option.isSome_map]
  | decimal => rwa [formatNumber, Option.isSome_map]
  | percent => rwa [formatNumber, Option.isSome_map]

/-- Numbers and blank cells are shown in every column. -/
theorem shows_of_number (kind : ColumnKind) {cell : String}
    (h : cell = "" ∨ Number.IsNumeral cell) : kind.Shows (Text.trim cell) := by
  rcases h with rfl | h
  · exact ⟨"", rfl⟩
  · apply shows_of_formatNumber
    rw [Text.trim_of_solid h.solid, Text.trimChars_of_solid h.solid]
    exact kind.isSome_formatNumber h.reads

end ColumnKind

namespace Report

theorem exists_formatCells {kinds : List ColumnKind} {cells : List String}
    (h : List.Forall₂ ColumnKind.Shows kinds cells) :
    ∃ row, formatCells kinds cells = .ok row := by
  induction h with
  | nil => exact ⟨[], rfl⟩
  | cons hcell _ ih =>
    obtain ⟨shown, hshown⟩ := hcell
    obtain ⟨rest, hrest⟩ := ih
    refine ⟨shown :: rest, ?_⟩
    rw [formatCells, hshown, hrest]
    rfl

theorem exists_formatRows {kinds : List ColumnKind} {table : List (List String)}
    (h : ∀ cells ∈ table, List.Forall₂ ColumnKind.Shows kinds cells) (number : Nat) :
    ∃ rows, formatRows kinds number (table.map .ok) = .ok rows ∧ rows.length = table.length := by
  induction table generalizing number with
  | nil => exact ⟨[], rfl, rfl⟩
  | cons cells table ih =>
    obtain ⟨row, hrow⟩ := exists_formatCells (h cells List.mem_cons_self)
    obtain ⟨rows, hrows, hlength⟩ :=
      ih (fun other hother => h other (List.mem_cons_of_mem _ hother)) (number + 1)
    refine ⟨row :: rows, ?_, congrArg (· + 1) hlength⟩
    rw [List.map_cons, formatRows, hrow, hrows]
    rfl

end Report

namespace Row

/-- What a row has behind its names. -/
def figures (r : Row) : List String :=
  [wordText r.totalLatency, (r.bandwidthUsage.map Number.floatText).getD "",
    Number.floatText r.averageLatency, Number.floatText r.medianLatency, wordText r.reads,
    wordText r.writes] ++ r.commands.map wordText

theorem record_eq (r : Row) : r.record = r.pattern :: r.trace :: r.mapping :: r.figures :=
  rfl

theorem number_of_mem_figures {r : Row} {cell : String} (h : cell ∈ r.figures) :
    cell = "" ∨ Number.IsNumeral cell := by
  rcases List.mem_append.mp h with hcell | hcell
  · simp only [List.mem_cons, List.not_mem_nil, or_false] at hcell
    rcases hcell with rfl | rfl | rfl | rfl | rfl | rfl
    · exact .inr (Number.isNumeral_decimal _)
    · cases r.bandwidthUsage with
      | none => exact .inl rfl
      | some usage => exact .inr (Number.isNumeral_floatText usage)
    · exact .inr (Number.isNumeral_floatText _)
    · exact .inr (Number.isNumeral_floatText _)
    · exact .inr (Number.isNumeral_decimal _)
    · exact .inr (Number.isNumeral_decimal _)
  · obtain ⟨n, -, rfl⟩ := List.mem_map.mp hcell
    exact .inr (Number.isNumeral_decimal _)

/-- Every cell of a row is shown, whatever the columns of the commands are called. -/
theorem shows_record {commands : List String} {r : Row}
    (h : r.record.length = (header commands).length) :
    List.Forall₂ ColumnKind.Shows (((header commands).map Text.trim).map .ofName)
      (r.record.map Text.trim) := by
  have hrest : ∀ (columns cells : List String), columns.length = cells.length →
      (∀ cell ∈ cells, cell = "" ∨ Number.IsNumeral cell) →
      List.Forall₂ ColumnKind.Shows ((columns.map Text.trim).map .ofName)
        (cells.map Text.trim) := by
    intro columns cells hlength hcells
    rw [List.map_map, List.forall₂_map_left_iff, List.forall₂_map_right_iff]
    refine List.forall₂_iff_zip.mpr ⟨hlength, ?_⟩
    intro column cell hmem
    exact ColumnKind.shows_of_number _ (hcells cell (List.of_mem_zip hmem).2)
  have hnames : ((header commands).map Text.trim).map ColumnKind.ofName =
      .text :: .text :: .text :: (((resultColumns ++ commands).map Text.trim).map .ofName) :=
    rfl
  rw [hnames, record_eq]
  refine .cons (ColumnKind.shows_text _) (.cons (ColumnKind.shows_text _)
    (.cons (ColumnKind.shows_text _) (hrest _ _ ?_ fun cell => number_of_mem_figures)))
  have hlength : (header commands).length = (resultColumns ++ commands).length + 3 := rfl
  rw [record_eq, hlength] at h
  exact (Nat.add_right_cancel (m := 3) h).symm

theorem readTable_encodeAll {commands : List String} {rows : List Row}
    (h : ∀ row ∈ rows, row.record.length = (header commands).length) :
    Csv.readTable (Csv.encodeAll (header commands :: rows.map record)).toUTF8 =
      .ok ⟨(header commands).map Text.trim,
        (rows.map fun row => row.record.map Text.trim).map .ok⟩ := by
  have hwidth : ∀ fields ∈ rows.map record, fields.length = (header commands).length := by
    intro fields hfields
    obtain ⟨row, hrow, rfl⟩ := List.mem_map.mp hfields
    exact h row hrow
  have htrimmed : (rows.map record).map (List.map Text.trim) =
      rows.map fun row => row.record.map Text.trim := List.map_map
  rw [← htrimmed]
  exact Csv.readTable_encodeAll rfl hwidth

end Row

/-- A log of rows can be reported as soon as there is a row in it. -/
theorem Report.exists_records (sink : Path) {commands : List String} {rows : List Row}
    (hrows : rows ≠ []) (hfits : ∀ row ∈ rows, row.record.length = (Row.header commands).length) :
    ∃ header shown, Report.records sink
      (Csv.encodeAll (Row.header commands :: rows.map Row.record)).toUTF8
        = .ok (header, shown) := by
  have hshows : ∀ cells ∈ rows.map (fun row => row.record.map Text.trim),
      List.Forall₂ ColumnKind.Shows (((Row.header commands).map Text.trim).map .ofName) cells := by
    intro cells hcells
    obtain ⟨row, hrow, rfl⟩ := List.mem_map.mp hcells
    exact Row.shows_record (hfits row hrow)
  obtain ⟨shown, hshown, hcount⟩ := exists_formatRows hshows 1
  have hsome : shown.isEmpty = false := by
    rw [List.isEmpty_eq_false_iff, ← List.length_pos_iff, hcount, List.length_map,
      List.length_pos_iff]
    exact hrows
  refine ⟨(Row.header commands).map Text.trim, shown, ?_⟩
  unfold Report.records
  rw [Row.readTable_encodeAll hfits]
  have hheader : ((Row.header commands).map Text.trim).isEmpty = false := rfl
  simp only [Except.mapError, bind, Except.bind, hheader, hshown, hsome]
  rfl

end MappingSweep
