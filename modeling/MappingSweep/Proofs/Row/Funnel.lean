import MappingSweep.Proofs.Csv.RoundTrip
import MappingSweep.Proofs.FileSystem.Frame
import MappingSweep.Row.Funnel

/-!
# What the funnel carries

Of the rows that were sent the writer has written the first ones, as long as they fit.  The others
wait in the queue in the order in which they were sent, or the writer has stopped at the first row
that does not fit.  The file always holds the header and the rows that were written.
-/

namespace MappingSweep

namespace FileSystem

/-- A file at the place holds the records and nothing else, and reading it gives them back. -/
def HoldsTable (fs : FileSystem) (place : Place) (records : List (List String)) : Prop :=
  ∃ content x, fs.entryAt place = some (.file content x) ∧
    content = (Csv.encodeAll records).toUTF8 ∧ Csv.readRecords content = .ok records

end FileSystem

namespace Row

theorem header_eq_cons (commands : List String) :
    header commands =
      "pattern" :: ("trace" :: "mapping" :: resultColumns ++ commands) :=
  rfl

/-- Rows under a header are read as they were written. -/
theorem readRecords_encodeAll {commands : List String} {rows : List Row}
    (h : ∀ row ∈ rows, row.record.length = (header commands).length) :
    Csv.readRecords (Csv.encodeAll (header commands :: rows.map record)).toUTF8 =
      .ok (header commands :: rows.map record) := by
  have hwidth : ∀ fields ∈ rows.map record, fields.length = (header commands).length := by
    intro fields hfields
    obtain ⟨row, hrow, rfl⟩ := List.mem_map.mp hfields
    exact h row hrow
  exact Csv.readRecords_encodeAll rfl hwidth

end Row

namespace RowLog

variable {log : RowLog} {fs fs' : FileSystem} {row : Row}

/-- The row is as wide as the header. -/
def Fits (log : RowLog) (row : Row) : Prop :=
  row.record.length = log.width

instance (log : RowLog) (row : Row) : Decidable (log.Fits row) :=
  inferInstanceAs (Decidable (_ = _))

/-- What is said of a row that does not fit. -/
def refusal (log : RowLog) (row : Row) : SweepError :=
  .io log.path (.rowWidth row.record.length log.width)

/-- The file holds the header, the given rows and nothing else. -/
def Holds (log : RowLog) (commands : List String) (rows : List Row) (fs : FileSystem) : Prop :=
  ∃ x, fs.entryAt log.place =
    some (.file (Csv.encodeAll (Row.header commands :: rows.map Row.record)).toUTF8 x)

theorem Holds.holdsTable {commands : List String} {rows : List Row}
    (h : log.Holds commands rows fs) (hwidth : log.width = (Row.header commands).length)
    (hfits : ∀ row ∈ rows, log.Fits row) :
    fs.HoldsTable log.place (Row.header commands :: rows.map Row.record) := by
  obtain ⟨x, hx⟩ := h
  exact ⟨_, x, hx, rfl, Row.readRecords_encodeAll fun row hrow => (hfits row hrow).trans hwidth⟩

/-- A row that is added stands behind the others. -/
theorem Holds.extend (h : log.Holds commands rows fs) (row : Row) :
    log.Holds commands (rows ++ [row]) (fs.extend log.place (Csv.encode row.record).toUTF8) := by
  obtain ⟨x, hx⟩ := h
  refine ⟨x, ?_⟩
  rw [FileSystem.entryAt_extend_self hx, List.map_append, ← List.cons_append, Csv.encodeAll_append,
    List.map_singleton, Csv.encodeAll_singleton]
  simp

theorem append_of_fits (h : log.Fits row) (fs : FileSystem) :
    log.append row fs = .ok (fs.extend log.place (Csv.encode row.record).toUTF8) := by
  unfold append
  dsimp only
  rw [if_neg]
  exact not_not_intro h

theorem append_of_not_fits (h : ¬ log.Fits row) (fs : FileSystem) :
    log.append row fs = .error (log.refusal row) := by
  unfold append
  dsimp only
  rw [if_pos]
  · rfl
  · exact h

theorem create_eq_ok {path : Path} {commands : List String}
    (h : create path commands fs = .ok (log, fs')) :
    log = ⟨path, path.place, (Row.header commands).length⟩ ∧
      fs.entryAt path.place = none ∧
      ∃ x, fs' = fs.set path.place (.file (Csv.encode (Row.header commands)).toUTF8 x) := by
  unfold create at h
  dsimp only at h
  cases hplace : fs.locate path with
  | error e => rw [hplace] at h; cases h
  | ok place =>
    obtain rfl := FileSystem.locate_eq_ok hplace
    rw [hplace] at h
    cases hfile : fs.createFile path (Csv.encode (Row.header commands)).toUTF8 with
    | error e => rw [hfile] at h; cases h
    | ok made =>
      rw [hfile] at h
      cases h
      obtain ⟨hnone, hset⟩ := FileSystem.createFile_eq_ok hfile
      exact ⟨rfl, hnone, hset⟩

end RowLog

namespace Funnel

/-- The state of the funnel and the files after the given rows were sent. -/
structure Carries (log : RowLog) (commands : List String) (sent : List Row) (f : Funnel)
    (fs : FileSystem) : Prop where
  log_eq : f.log = log
  written_le : f.written ≤ sent.length
  file : log.Holds commands (sent.take f.written) fs
  fits : ∀ row ∈ sent.take f.written, log.Fits row
  going : f.stopped = none → f.queue = sent.drop f.written
  misfit : ∀ e, f.stopped = some e →
    ∃ row, sent[f.written]? = some row ∧ ¬ log.Fits row ∧ e = log.refusal row

variable {log : RowLog} {commands : List String} {sent : List Row} {f f' : Funnel}
  {fs fs' : FileSystem} {row : Row}

theorem carries_create {path : Path} (h : RowLog.create path commands fs = .ok (log, fs')) :
    Carries log commands [] { log } fs' := by
  obtain ⟨rfl, hnone, x, rfl⟩ := RowLog.create_eq_ok h
  refine ⟨rfl, Nat.le_refl 0, ⟨x, ?_⟩, by simp, fun _ => rfl, by simp⟩
  rw [FileSystem.entryAt_set_self _ _ (FileSystem.isRoot_eq_false_of_none hnone)]
  simp [Csv.encodeAll_singleton]

theorem Carries.of_entryAt_eq (h : Carries log commands sent f fs)
    (hfile : fs'.entryAt log.place = fs.entryAt log.place) :
    Carries log commands sent f fs' := by
  refine ⟨h.log_eq, h.written_le, ?_, h.fits, h.going, h.misfit⟩
  rw [RowLog.Holds, hfile]
  exact h.file

/-- Rows sent later do not change what was written and where the writer stopped. -/
theorem Carries.append (h : Carries log commands sent f fs) (row : Row)
    (hgoing : f'.stopped = none → f'.queue = sent.drop f.written ++ [row])
    (hlog : f'.log = f.log) (hwritten : f'.written = f.written)
    (hstopped : f'.stopped = f.stopped) :
    Carries log commands (sent ++ [row]) f' fs := by
  have htake : (sent ++ [row]).take f'.written = sent.take f.written := by
    rw [hwritten, List.take_append_of_le_length h.written_le]
  have hdrop : (sent ++ [row]).drop f'.written = sent.drop f.written ++ [row] := by
    rw [hwritten, List.drop_append_of_le_length h.written_le]
  refine ⟨hlog.trans h.log_eq, ?_, ?_, ?_, ?_, ?_⟩
  · rw [hwritten, List.length_append]
    exact Nat.le_trans h.written_le (Nat.le_add_right _ _)
  · rw [htake]
    exact h.file
  · rw [htake]
    exact h.fits
  · rw [hdrop]
    exact hgoing
  · intro e he
    obtain ⟨first, hfirst, hmisfit⟩ := h.misfit e (hstopped ▸ he)
    refine ⟨first, ?_, hmisfit⟩
    rw [hwritten, List.getElem?_append_left (List.getElem?_eq_some_iff.mp hfirst).1]
    exact hfirst

theorem Carries.send (h : Carries log commands sent f fs) (hsend : f.send row = .ok f') :
    Carries log commands (sent ++ [row]) f' fs := by
  unfold Funnel.send at hsend
  split at hsend
  · cases hsend
  · rename_i hgoing
    cases hsend
    have hnone : f.stopped = none := by simpa using hgoing
    refine h.append row (fun _ => ?_) rfl rfl rfl
    rw [h.going hnone]

/-- A refused row was sent too late. -/
theorem Carries.send_refused {e : SweepError} (h : Carries log commands sent f fs)
    (hsend : f.send row = .error e) : Carries log commands (sent ++ [row]) f fs := by
  unfold Funnel.send at hsend
  split at hsend
  · rename_i hstopped
    refine h.append row (fun hnone => ?_) rfl rfl rfl
    simp [hnone] at hstopped
  · cases hsend

/-- Nothing is refused before a row that does not fit. -/
theorem Carries.send_eq_ok (h : Carries log commands sent f fs) (hfits : ∀ row ∈ sent, log.Fits row)
    (row : Row) : f.send row = .ok { f with queue := f.queue ++ [row] } := by
  unfold Funnel.send
  rw [if_neg]
  intro hstopped
  obtain ⟨e, he⟩ := Option.isSome_iff_exists.mp hstopped
  obtain ⟨first, hfirst, hmisfit, -⟩ := h.misfit e he
  exact hmisfit (hfits first (List.mem_of_getElem? hfirst))

/-! ## The writer -/

theorem log_take (f : Funnel) (fs : FileSystem) : (f.take fs).1.log = f.log := by
  unfold take
  split
  · split <;> rfl
  · rfl

/-- All that the writer does to the files. -/
theorem files_take (f : Funnel) (fs : FileSystem) :
    (f.take fs).2 = fs ∨ ∃ content, (f.take fs).2 = fs.extend f.log.place content := by
  unfold take
  split
  · split
    · rename_i happend
      unfold RowLog.append at happend
      dsimp only at happend
      split at happend
      · cases happend
      · cases happend
        exact .inr ⟨_, rfl⟩
    · exact .inl rfl
  · exact .inl rfl

/-- The writer touches nothing but the row log. -/
theorem entryAt_take (f : Funnel) (fs : FileSystem) {q : Place} (hq : q ≠ f.log.place) :
    (f.take fs).2.entryAt q = fs.entryAt q := by
  rcases f.files_take fs with hsame | ⟨content, hextend⟩
  · rw [hsame]
  · rw [hextend, FileSystem.entryAt_extend_of_ne hq.symm]

theorem grows_take (f : Funnel) (fs : FileSystem) :
    FileSystem.Grows (· = f.log.place) fs (f.take fs).2 :=
  FileSystem.grows_of_same fun _ hq => f.entryAt_take fs hq

/-- The next row that waits is the first one that was not written. -/
theorem Carries.getElem?_written {rest : List Row} (h : Carries log commands sent f fs)
    (hstopped : f.stopped = none) (hqueue : f.queue = row :: rest) :
    sent[f.written]? = some row ∧ rest = sent.drop (f.written + 1) := by
  have hdrop : sent.drop f.written = row :: rest := (h.going hstopped).symm.trans hqueue
  constructor
  · rw [← List.head?_drop, hdrop]
    rfl
  · rw [← List.tail_drop, hdrop]
    rfl

theorem take_of_not_going (fs : FileSystem) (h : f.stopped = none → f.queue = []) :
    f.take fs = (f, fs) := by
  unfold Funnel.take
  cases hstopped : f.stopped with
  | some e => rfl
  | none => rw [h hstopped]

theorem Carries.take (h : Carries log commands sent f fs) :
    Carries log commands sent (f.take fs).1 (f.take fs).2 := by
  cases hstopped : f.stopped with
  | some e => rw [take_of_not_going fs (by simp [hstopped])]; exact h
  | none =>
    cases hqueue : f.queue with
    | nil => rw [take_of_not_going fs fun _ => hqueue]; exact h
    | cons row rest =>
      obtain ⟨hrow, hrest⟩ := h.getElem?_written hstopped hqueue
      obtain ⟨hlt, hget⟩ := List.getElem?_eq_some_iff.mp hrow
      unfold Funnel.take
      by_cases hfits : log.Fits row
      · have htake : sent.take (f.written + 1) = sent.take f.written ++ [row] := by
          rw [List.take_add_one, hrow]
          rfl
        simp only [hstopped, hqueue, h.log_eq, RowLog.append_of_fits hfits]
        refine ⟨rfl, hlt, ?_, ?_, fun _ => hrest, by simp⟩
        · rw [htake]
          exact h.file.extend row
        · rw [htake]
          intro other hother
          rcases List.mem_append.mp hother with hother | hother
          · exact h.fits other hother
          · rw [List.mem_singleton.mp hother]
            exact hfits
      · simp only [hstopped, hqueue, h.log_eq, RowLog.append_of_not_fits hfits]
        refine ⟨rfl, h.written_le, h.file, h.fits, by simp, ?_⟩
        intro e he
        cases he
        exact ⟨row, hrow, hfits, rfl⟩

/-- Of the rows that the writer is to take it takes one at a time. -/
theorem length_queue_take (f : Funnel) (fs : FileSystem) (h : f.stopped = none → f.queue ≠ []) :
    (f.take fs).1.stopped = none → (f.take fs).1.queue.length + 1 = f.queue.length := by
  unfold Funnel.take
  cases hstopped : f.stopped with
  | some e => simp [hstopped]
  | none =>
    cases hqueue : f.queue with
    | nil => exact absurd hqueue (h hstopped)
    | cons row rest =>
      dsimp only
      split <;> simp

theorem Carries.drain (h : Carries log commands sent f fs) :
    Carries log commands sent (f.drain fs).1 (f.drain fs).2 ∧
      ((f.drain fs).1.stopped = none → (f.drain fs).1.queue = []) := by
  -- The rows that are folded over only count the turns of the writer.
  suffices hturns : ∀ turns : List Row, (f.stopped = none → f.queue.length ≤ turns.length) →
      let last := turns.foldl (fun s _ => s.1.take s.2) (f, fs)
      Carries log commands sent last.1 last.2 ∧ (last.1.stopped = none → last.1.queue = []) from
    hturns f.queue fun _ => Nat.le_refl _
  intro turns
  induction turns generalizing f fs with
  | nil =>
    intro hlength
    exact ⟨h, fun hgoing => List.eq_nil_of_length_eq_zero (Nat.le_zero.mp (hlength hgoing))⟩
  | cons turn turns ih =>
    intro hlength
    apply ih h.take
    intro hgoing
    by_cases hqueue : f.stopped = none → f.queue = []
    · rw [take_of_not_going fs hqueue] at hgoing ⊢
      rw [hqueue hgoing]
      exact Nat.zero_le _
    · have hnone : f.stopped = none :=
        Decidable.byContradiction fun hne => hqueue fun h => absurd h hne
      have hone := length_queue_take f fs (fun _ hnil => hqueue fun _ => hnil) hgoing
      have hmost := hlength hnone
      rw [List.length_cons] at hmost
      omega

/-- Closing the funnel writes all rows, or those before the first one that does not fit. -/
theorem Carries.finish (h : Carries log commands sent f fs) :
    ∃ rows, log.Holds commands rows (f.finish fs).2 ∧ (∀ row ∈ rows, log.Fits row) ∧
      (rows = sent ∧ (f.finish fs).1 = .ok sent.length ∨
        ∃ row rest, sent = rows ++ row :: rest ∧ ¬ log.Fits row ∧
          (f.finish fs).1 = .error (log.refusal row)) := by
  obtain ⟨hdrain, hempty⟩ := h.drain
  unfold Funnel.finish
  generalize hend : f.drain fs = last at hdrain hempty
  obtain ⟨f', fs'⟩ := last
  dsimp only at hdrain hempty ⊢
  refine ⟨sent.take f'.written, ?_, hdrain.fits, ?_⟩
  · cases f'.stopped <;> exact hdrain.file
  · cases hstopped : f'.stopped with
    | none =>
      have hdrop : sent.drop f'.written = [] := (hdrain.going hstopped).symm.trans (hempty hstopped)
      have hall : f'.written = sent.length :=
        Nat.le_antisymm hdrain.written_le (List.drop_eq_nil_iff.mp hdrop)
      left
      rw [hall, List.take_length]
      exact ⟨rfl, rfl⟩
    | some e =>
      obtain ⟨row, hrow, hmisfit, rfl⟩ := hdrain.misfit e hstopped
      obtain ⟨hlt, hget⟩ := List.getElem?_eq_some_iff.mp hrow
      right
      refine ⟨row, sent.drop (f'.written + 1), ?_, hmisfit, rfl⟩
      rw [← hget, ← List.drop_eq_getElem_cons hlt, List.take_append_drop]

end Funnel
end MappingSweep
