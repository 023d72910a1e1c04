import MappingSweep.Proofs.FileSystem.Reach
import MappingSweep.Proofs.FileSystem.Reading
import MappingSweep.Proofs.Number.Decimal
import MappingSweep.Proofs.Row.Funnel

/-!
# Row logs that are read back

A row log grows by whole records and is read as its header and the rows that were added, whatever
characters are in their names.  The numerals in a record spell the words of its row, and only an
unknown bandwidth is an empty field.
-/

namespace MappingSweep

namespace Number

theorem IsNumeral.ne_empty {s : String} (h : IsNumeral s) : s ≠ "" := by
  rintro rfl
  exact absurd h.reads (by decide)

end Number

namespace Row

theorem readWord_wordText (n : UInt64) : Number.readWord (wordText n).toList = some n := by
  rw [wordText, Number.decimal, String.toList_ofList, Number.readWord_digits]

/-- The word that a field of a record spells. -/
def wordAt (record : List String) (i : Nat) : Option UInt64 :=
  record[i]?.bind fun field => Number.readWord field.toList

/-- The names and the counts of a row can be taken from the record. -/
structure StandsIn (r : Row) (record : List String) : Prop where
  names : record.take 3 = [r.pattern, r.trace, r.mapping]
  totalLatency : wordAt record 3 = some r.totalLatency
  bandwidth : record[4]? = some "" ↔ r.bandwidthUsage = none
  reads : wordAt record 7 = some r.reads
  writes : wordAt record 8 = some r.writes
  commands : ∀ k, wordAt record (9 + k) = r.commands[k]?

theorem wordAt_of_wordText {record : List String} {i : Nat} {n : UInt64}
    (h : record[i]? = some (wordText n)) : wordAt record i = some n := by
  rw [wordAt, h, Option.bind_some, readWord_wordText]

theorem getElem?_record_command (r : Row) (k : Nat) :
    r.record[9 + k]? = (r.commands[k]?).map wordText := by
  rw [record, List.getElem?_append_right (Nat.le_add_right 9 k), List.getElem?_map]
  simp

theorem getElem?_header_command (commands : List String) (k : Nat) :
    (header commands)[9 + k]? = commands[k]? := by
  have hmeasures : (identityColumns ++ resultColumns).length = 9 := rfl
  rw [header, List.getElem?_append_right (hmeasures ▸ Nat.le_add_right 9 k), hmeasures,
    Nat.add_sub_cancel_left]

theorem standsIn_record (r : Row) : r.StandsIn r.record where
  names := rfl
  totalLatency := wordAt_of_wordText rfl
  bandwidth := by
    have hfield : r.record[4]? = some ((r.bandwidthUsage.map Number.floatText).getD "") := rfl
    rw [hfield, Option.some_inj]
    cases r.bandwidthUsage with
    | none => simp
    | some usage => simpa using (Number.isNumeral_floatText usage).ne_empty
  reads := wordAt_of_wordText rfl
  writes := wordAt_of_wordText rfl
  commands := by
    intro k
    cases hk : r.commands[k]? with
    | none => rw [wordAt, getElem?_record_command, hk]; rfl
    | some n =>
      apply wordAt_of_wordText
      rw [getElem?_record_command, hk, Option.map_some]

end Row

namespace RowLog

variable {log : RowLog} {commands : List String} {path : Path} {rows more : List Row} {row : Row}
  {fs created : FileSystem}

theorem fits_of_create (hcreate : create path commands fs = .ok (log, created))
    (hrow : row.commands.length = commands.length) : log.Fits row := by
  obtain ⟨rfl, -, -⟩ := create_eq_ok hcreate
  rw [Fits, Row.length_record, Row.length_header, hrow]

theorem holds_create (hcreate : create path commands fs = .ok (log, created)) :
    log.Holds commands [] created :=
  (Funnel.carries_create hcreate).file

theorem preserves_extend (log : RowLog) (fs : FileSystem) (content : ByteArray) :
    FileSystem.Preserves (· = log.place) fs (fs.extend log.place content) := by
  unfold FileSystem.extend
  split
  · rename_i old x hentry
    apply FileSystem.preserves_set
    rw [hentry]
    exact fun h => by cases h
  · exact .refl _ fs

/-- Rows that fit are all added, in their order. -/
theorem exists_appended (hrows : log.Holds commands rows fs) (hfits : ∀ row ∈ more, log.Fits row) :
    ∃ last, more.foldlM (fun fs row => log.append row fs) fs = .ok last ∧
      log.Holds commands (rows ++ more) last ∧ FileSystem.Preserves (· = log.place) fs last := by
  induction more generalizing rows fs with
  | nil => exact ⟨fs, rfl, by rwa [List.append_nil], .refl _ fs⟩
  | cons row more ih =>
    obtain ⟨last, hlast, hholds, hpreserves⟩ := ih (hrows.extend row)
      fun other hother => hfits other (List.mem_cons_of_mem row hother)
    refine ⟨last, ?_, ?_, (log.preserves_extend fs _).trans hpreserves⟩
    · rw [List.foldlM_cons, append_of_fits (hfits row List.mem_cons_self)]
      exact hlast
    · rwa [List.append_assoc, List.singleton_append] at hholds

/-- A new row log can be read under its path. -/
theorem exists_readBytes_create (hcreate : create path commands fs = .ok (log, created)) :
    ∃ content, created.readBytes path = .ok content := by
  unfold create at hcreate
  dsimp only at hcreate
  cases hplace : fs.locate path with
  | error e => rw [hplace] at hcreate; cases hcreate
  | ok place =>
    rw [hplace] at hcreate
    cases hfile : fs.createFile path (Csv.encode (Row.header commands)).toUTF8 with
    | error e => rw [hfile] at hcreate; cases hcreate
    | ok made =>
      rw [hfile] at hcreate
      cases hcreate
      unfold FileSystem.createFile at hfile
      simp only [hplace, bind, Except.bind] at hfile
      split at hfile
      · cases hfile
      · exact ⟨_, FileSystem.readBytes_writeBytes hfile⟩

theorem create_of_missing (commands : List String) (hlocate : fs.locate path = .ok path.place)
    (hslash : path.endsWithSlash = false) (hentry : fs.entryAt path.place = none) :
    create path commands fs = .ok (⟨path, path.place, (Row.header commands).length⟩,
      fs.set path.place (.file (Csv.encode (Row.header commands)).toUTF8 false)) := by
  simp only [create, hlocate, bind, Except.bind,
    FileSystem.createFile_of_missing _ hlocate hslash hentry]
  rfl

/-- A row log is created where nothing is and a file can be. -/
theorem exists_create_iff (path : Path) (commands : List String) (fs : FileSystem) :
    (∃ made, create path commands fs = .ok made) ↔
      fs.locate path = .ok path.place ∧ path.endsWithSlash = false ∧
        fs.entryAt path.place = none := by
  constructor
  · rintro ⟨⟨log, created⟩, hcreate⟩
    obtain ⟨content, hread⟩ := exists_readBytes_create hcreate
    obtain ⟨-, hslash, -⟩ := FileSystem.readBytes_eq_ok_iff.mp hread
    obtain ⟨-, hentry, -⟩ := create_eq_ok hcreate
    refine ⟨?_, hslash, hentry⟩
    cases hplace : fs.locate path with
    | ok place => rw [FileSystem.locate_eq_ok hplace]
    | error e =>
      simp only [create, hplace] at hcreate
      cases hcreate
  · rintro ⟨hlocate, hslash, hentry⟩
    exact ⟨_, create_of_missing commands hlocate hslash hentry⟩

/-- Rows with a count for each command are added one after the other, and reading the log gives the
header and the records of the rows, with all their names and counts. -/
theorem rows_read_back (hcreate : create path commands fs = .ok (log, created))
    (hrows : ∀ row ∈ rows, row.commands.length = commands.length) :
    ∃ last content, rows.foldlM (fun fs row => log.append row fs) created = .ok last ∧
      last.readBytes path = .ok content ∧
      Csv.readRecords content = .ok (Row.header commands :: rows.map Row.record) ∧
      ∀ row ∈ rows, row.StandsIn row.record := by
  have hfits : ∀ row ∈ rows, log.Fits row := fun row hrow => fits_of_create hcreate (hrows row hrow)
  obtain ⟨last, hlast, ⟨x, hx⟩, hpreserves⟩ := exists_appended (holds_create hcreate) hfits
  obtain ⟨old, hold⟩ := exists_readBytes_create hcreate
  obtain ⟨hplace, hslash, -⟩ := FileSystem.readBytes_eq_ok_iff.mp hold
  obtain ⟨rfl, -, -⟩ := create_eq_ok hcreate
  rw [List.nil_append] at hx
  exact ⟨last, _, hlast,
    FileSystem.readBytes_eq_ok_iff.mpr ⟨hpreserves.locate hplace, hslash, x, hx⟩,
    Row.readRecords_encodeAll hfits, fun row _ => row.standsIn_record⟩

/-- A row whose names need quotes, or would be lost if blanks were taken off. -/
def awkwardRow : Row :=
  ⟨"a,\"b\"", "", " m\r\n", 1000, none, 15.0, 15.5, 100, 50, [3, 4]⟩

def awkwardCommands : List String :=
  ["R\nD", "\"WR\", "]

def awkwardLog : RowLog :=
  ⟨⟨"rows.csv"⟩, ["rows.csv"], 11⟩

def awkwardFiles : FileSystem :=
  ⟨[(["rows.csv"], .file (Csv.encode (Row.header awkwardCommands)).toUTF8 false)]⟩

theorem create_awkwardFiles :
    create ⟨"rows.csv"⟩ awkwardCommands ⟨[]⟩ = .ok (awkwardLog, awkwardFiles) :=
  rfl

theorem rows_read_back_awkward :
    ∃ last content, [awkwardRow, awkwardRow].foldlM (fun fs row => awkwardLog.append row fs)
        awkwardFiles = .ok last ∧
      last.readBytes ⟨"rows.csv"⟩ = .ok content ∧
      Csv.readRecords content =
        .ok (Row.header awkwardCommands :: [awkwardRow, awkwardRow].map Row.record) ∧
      ∀ row ∈ [awkwardRow, awkwardRow], row.StandsIn row.record :=
  rows_read_back create_awkwardFiles (by decide)

end RowLog
end MappingSweep
