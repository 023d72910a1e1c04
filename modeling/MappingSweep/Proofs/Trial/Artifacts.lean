import MappingSweep.Proofs.Log.Access
import MappingSweep.Proofs.Log.CommandCounts
import MappingSweep.Proofs.Report.Shape
import MappingSweep.Trial.Result

/-!
# Artifacts that can be read

What a simulator has to leave for a row: a table of numbers with the latencies of some requests, a
count for every command of the plan, and the counters of requests and cycles.  Such artifacts are
read without an error, and a row is made of them.
-/

namespace MappingSweep

open Number (readBinary64)

/-- The records under a header are as wide as the header. -/
theorem Csv.length_of_readTable {input : ByteArray} {table : Table}
    (h : readTable input = .ok table) {cells : List String} (hcells : .ok cells ∈ table.rows) :
    cells.length = table.header.length := by
  unfold readTable at h
  split at h
  · cases h
    cases hcells
  · rename_i raw rest heq
    cases hheader : decodeFields 0 raw.start 0 raw.fields with
    | error f =>
      rw [hheader] at h
      cases h
    | ok header =>
      rw [hheader] at h
      cases h
      rw [length_of_mem_readRows hcells, List.length_map, length_decodeFields hheader]

namespace AccessLog

/-- A table of numbers with the latencies of at least one request. -/
def WellFormed (text : String) : Prop :=
  ∃ header rows, Csv.readTable text.toUTF8 = .ok ⟨header, rows.map .ok⟩ ∧
    processColumn ∈ header ∧ rows ≠ [] ∧
    ∀ cells ∈ rows, ∀ cell ∈ cells, (readBinary64 cell.toList).isSome = true

theorem exists_readCells (row : Nat) {cells : List String}
    (h : ∀ cell ∈ cells, (readBinary64 cell.toList).isSome = true) :
    ∃ values, readCells row cells = .ok values ∧ values.length = cells.length := by
  rw [readCells_eq_mapM]
  obtain ⟨values, hvalues⟩ : ∃ values, cells.mapM (readCell row) = .ok values := by
    refine exists_mapM fun cell hcell => ?_
    obtain ⟨x, hx⟩ := Option.isSome_iff_exists.mp (h cell hcell)
    exact ⟨x, by rw [readCell, hx]⟩
  exact ⟨values, hvalues, length_of_mapM hvalues⟩

theorem exists_readRows {width : Nat} {table : List (List String)}
    (hwidth : ∀ cells ∈ table, cells.length = width)
    (h : ∀ cells ∈ table, ∀ cell ∈ cells, (readBinary64 cell.toList).isSome = true)
    (number : Nat) :
    ∃ rows, readRows number (table.map .ok) = .ok rows ∧ rows.length = table.length ∧
      ∀ row ∈ rows, row.length = width := by
  induction table generalizing number with
  | nil => exact ⟨[], rfl, rfl, by simp⟩
  | cons cells table ih =>
    obtain ⟨values, hvalues, hlength⟩ := exists_readCells number (h cells List.mem_cons_self)
    obtain ⟨rows, hrows, hcount, hall⟩ :=
      ih (fun other hother => hwidth other (List.mem_cons_of_mem _ hother))
        (fun other hother => h other (List.mem_cons_of_mem _ hother)) (number + 1)
    refine ⟨values :: rows, ?_, congrArg (· + 1) hcount, ?_⟩
    · simp only [List.map_cons, readRows, hvalues, hrows]
      rfl
    · exact List.forall_mem_cons.mpr ⟨hlength.trans (hwidth cells List.mem_cons_self), hall⟩

theorem column_ne_nil {width i : Nat} {rows : List (List Number.Binary64)} (hrows : rows ≠ [])
    (hwidth : ∀ row ∈ rows, row.length = width) (hi : i < width) : column rows i ≠ [] := by
  obtain ⟨row, rest, rfl⟩ := List.exists_cons_of_ne_nil hrows
  have hcell : i < row.length := by
    rwa [hwidth row List.mem_cons_self]
  rw [column, List.filterMap_cons, List.getElem?_eq_getElem hcell]
  exact List.cons_ne_nil _ _

theorem WellFormed.exists_columns {text : String} (h : WellFormed text) :
    ∃ found, columns text = .ok found ∧ processColumn ∈ found.map (·.1) ∧
      ∀ c ∈ found, c.2 ≠ [] := by
  obtain ⟨header, table, htable, hprocess, hsome, hcells⟩ := h
  have hwidth : ∀ cells ∈ table, cells.length = header.length :=
    fun cells hmem => Csv.length_of_readTable htable (List.mem_map_of_mem hmem)
  obtain ⟨rows, hrows, hcount, hall⟩ := exists_readRows hwidth hcells 1
  have hne : rows ≠ [] := by
    rw [← List.length_pos_iff, hcount, List.length_pos_iff]
    exact hsome
  have hheader : header.all (·.isEmpty) = false := by
    rw [List.all_eq_false]
    exact ⟨processColumn, hprocess, by decide⟩
  refine ⟨header.mapIdx fun i name => (name, column rows i), ?_, ?_, ?_⟩
  · simp only [columns, htable, Except.mapError, bind, Except.bind, ofTable, hheader, hrows]
    rfl
  · obtain ⟨i, hi, hname⟩ := List.mem_iff_getElem.mp hprocess
    refine List.mem_map.mpr ⟨_, List.mem_mapIdx.mpr ⟨i, hi, rfl⟩, hname⟩
  · intro c hc
    obtain ⟨i, hi, rfl⟩ := List.mem_mapIdx.mp hc
    exact column_ne_nil hne hall hi

theorem WellFormed.exists_stats {text : String} (h : WellFormed text) :
    ∃ found s, stats text = .ok found ∧ Keyed.get? processColumn found = some s := by
  obtain ⟨found, hcolumns, hprocess, hvalues⟩ := h.exists_columns
  obtain ⟨entries, hentries⟩ := exists_statsOf_iff.mpr hvalues
  have hall := statsOf_eq_ok_iff.mp hentries
  have hmem : processColumn ∈ Keyed.keys (Keyed.ofList entries) := by
    rw [Keyed.mem_keys_ofList, ← Keyed.keys_eq_of_forall₂ LatencyStats.FromValues hall]
    exact hprocess
  obtain ⟨s, hs⟩ := Keyed.exists_get?_of_mem_keys hmem
  exact ⟨_, s, stats_eq_ok_iff.mpr ⟨found, entries, hcolumns, rfl, hall⟩, hs⟩

end AccessLog

namespace CommandCounts

/-- The line gives the count of a command. -/
def Counts (line : List Char) (command : String) (n : UInt64) : Prop :=
  ∃ name value, Text.splitOn ':' (Text.trimChars line) = [name, value] ∧
    String.ofList (Text.trimChars name) = command ∧ Number.readWord (Text.trimChars value) = some n

/-- Every line is a count, and there is one for each of the commands. -/
def WellFormed (commands : List String) (text : String) : Prop :=
  (∀ line ∈ Text.splitLines text.toList, ∃ command n, Counts line command n) ∧
    ∀ command ∈ commands, ∃ line ∈ Text.splitLines text.toList, ∃ n, Counts line command n

theorem Counts.readLine_eq {line : List Char} {command : String} {n : UInt64}
    (h : Counts line command n) (number : Nat) : readLine number line = .ok (command, n) := by
  obtain ⟨name, value, hsplit, rfl, hvalue⟩ := h
  simp only [readLine, hsplit, hvalue]

theorem Counts.isEntry {line : List Char} {command : String} {n : UInt64}
    (h : Counts line command n) : IsEntry line command n :=
  (readLine_eq_ok_iff line 0 (command, n)).mp (h.readLine_eq 0)

theorem WellFormed.exists_counts {commands : List String} {text : String}
    (h : WellFormed commands text) :
    ∃ counts, parse text = .ok counts ∧
      ∀ command ∈ commands, ∃ n, Keyed.get? command counts = some n := by
  obtain ⟨counts, hcounts⟩ := exists_parse_iff.mpr fun line hline => by
    obtain ⟨command, n, hline⟩ := h.1 line hline
    exact ⟨command, n, hline.isEntry⟩
  refine ⟨counts, hcounts, fun command hcommand => ?_⟩
  obtain ⟨line, hline, n, hcount⟩ := h.2 command hcommand
  have hkeys := (counted_of_parse hcounts).keys command
  exact Keyed.exists_get?_of_mem_keys (hkeys.mpr ⟨line, hline, n, hcount.isEntry⟩)

end CommandCounts

/-- The output tells reads, writes and cycles, and the requests together are a word. -/
def Counters.WellFormed (text : String) : Prop :=
  ∃ reads writes cycles, find (parse text) readRequests = .ok reads ∧
    find (parse text) writeRequests = .ok writes ∧ find (parse text) memoryCycles = .ok cycles ∧
    reads.toNat + writes.toNat < Number.wordBound

theorem TrialResult.exists_row {text : String} {commands : Keyed UInt64} (t : Trial)
    (process : LatencyStats) {plan : Plan}
    (hcommands : ∀ command ∈ plan.commands, ∃ n, Keyed.get? command commands = some n)
    (hcounters : Counters.WellFormed text) :
    ∃ row, TrialResult.row ⟨Counters.parse text, process, commands⟩ t plan = .ok row := by
  obtain ⟨reads, writes, cycles, hreads, hwrites, hcycles, -⟩ := hcounters
  obtain ⟨counts, hcounts⟩ : ∃ counts,
      plan.commands.mapM (countOf ⟨Counters.parse text, process, commands⟩) = .ok counts := by
    apply exists_mapM
    intro command hcommand
    obtain ⟨n, hn⟩ := hcommands command hcommand
    exact ⟨n, by simp only [countOf, hn]⟩
  simp only [TrialResult.row, bandwidth, hcounts, hreads, hwrites, hcycles, bind, Except.bind]
  exact ⟨_, rfl⟩

end MappingSweep
