import MappingSweep.Proofs.Csv.Decoding
import MappingSweep.Proofs.FileSystem.Walk
import MappingSweep.Proofs.Trial.Artifacts
import MappingSweep.Proofs.Trial.Files
import MappingSweep.Proofs.Trial.Isolation

/-!
# Where the row of a trial comes from

A row takes its counts from the command count log of its trial.  They can be read there again as
long as what the trial left in its directory is still there, and the way to it.
-/

namespace MappingSweep

namespace CommandCounts

variable {text : String} {fs fs' : FileSystem} {p : Path} {counts : Keyed UInt64} {n : UInt64}
  {command : String}

/-- The names in a log are without blanks around them. -/
theorem trim_of_get? (h : parse text = .ok counts) (hn : Keyed.get? command counts = some n) :
    Text.trim command = command := by
  obtain ⟨_, _, _, -, hentry, -⟩ := ((counted_of_parse h).last command n).mp hn
  exact hentry.trim_name

theorem read_eq_ok (h : read fs p = .ok counts) :
    ∃ content text, fs.readBytes p = .ok content ∧ parse text = .ok counts := by
  unfold read FileSystem.loadText FileSystem.readText at h
  cases hbytes : fs.readBytes p with
  | error e => rw [hbytes] at h; cases h
  | ok content =>
    rw [hbytes] at h
    dsimp only at h
    cases htext : String.fromUTF8? content with
    | none => rw [htext] at h; cases h
    | some text =>
      rw [htext] at h
      exact ⟨content, text, rfl, mapError_eq_ok h⟩

theorem read_of_readBytes (h : fs'.readBytes p = fs.readBytes p) : read fs' p = read fs p := by
  rw [read, read, FileSystem.loadText, FileSystem.loadText, FileSystem.readText,
    FileSystem.readText, h]

end CommandCounts

theorem TrialResult.counts_of_collect {paths : TrialPaths} {fs : FileSystem} {r : TrialResult}
    (h : collect paths fs = .ok r) :
    CommandCounts.read fs paths.commandCountLog = .ok r.commands := by
  unfold collect at h
  simp only [bind, Except.bind] at h
  split at h
  · cases h
  split at h
  · cases h
  rename_i counts hcounts
  split at h
  · cases h
  cases h
  exact hcounts

namespace Trial

variable {t : Trial} {plan : Plan} {row : Row} {fs : FileSystem}

/-- The counts of a row are those of the log, command by command. -/
theorem counts_of_readRow (h : (t.readRow plan (.ofTrial plan.outputDir t) fs).1 = .ok row) :
    ∃ counts, CommandCounts.read fs (TrialPaths.ofTrial plan.outputDir t).commandCountLog =
        .ok counts ∧
      ∀ (k : Nat) command, plan.commands[k]? = some command →
        ∃ n, Keyed.get? command counts = some n ∧ row.commands[k]? = some n := by
  simp only [readRow, Action.look, bind, Except.bind] at h
  split at h
  · cases h
  · rename_i r hcollect
    refine ⟨r.commands, TrialResult.counts_of_collect hcollect, ?_⟩
    intro k command hcommand
    obtain ⟨n, hn, hcount⟩ := getElem?_of_mapM (TrialResult.fills_of_row h).commands hcommand
    refine ⟨n, ?_, hn⟩
    unfold TrialResult.countOf at hcount
    split at hcount
    · rename_i n' hget
      cases hcount
      exact hget
    · cases hcount

end Trial

/-- The row was read in the trial's directory, and what was there at that time is there now. -/
structure Row.ReadFrom (row : Row) (t : Trial) (plan : Plan) (fs : FileSystem) : Prop where
  source : ∃ before, (t.readRow plan (.ofTrial plan.outputDir t) before).1 = .ok row ∧
    ∀ q entry, t.Inside plan.outputDir q → before.entryAt q = some entry →
      fs.entryAt q = some entry
  mapping : fs.entryAt (t.mapping.place plan.outputDir) = some .directory

namespace Row.ReadFrom

variable {row : Row} {t : Trial} {plan : Plan} {fs fs' : FileSystem} {inside : Place → Prop}

theorem reportsOn (h : row.ReadFrom t plan fs) : row.ReportsOn t plan := by
  obtain ⟨before, hrow, -⟩ := h.source
  exact Trial.reportsOn_of_readRow hrow

theorem of_grows (h : row.ReadFrom t plan fs) (hgrows : FileSystem.Grows inside fs fs')
    (hmapping : ¬ inside (t.mapping.place plan.outputDir))
    (hout : ∀ q, t.Inside plan.outputDir q → ¬ inside q) : row.ReadFrom t plan fs' := by
  obtain ⟨before, hrow, hstays⟩ := h.source
  refine ⟨⟨before, hrow, fun q entry hq hentry => ?_⟩, hgrows.entryAt_eq hmapping h.mapping⟩
  exact hgrows.entryAt_eq (hout q hq) (hstays q entry hq hentry)

theorem of_preserves (h : row.ReadFrom t plan fs) (hpreserves : FileSystem.Preserves inside fs fs')
    (hout : ∀ q, t.Inside plan.outputDir q → ¬ inside q) : row.ReadFrom t plan fs' := by
  obtain ⟨before, hrow, hstays⟩ := h.source
  refine ⟨⟨before, hrow, fun q entry hq hentry => ?_⟩, hpreserves.directory _ h.mapping⟩
  exact (hpreserves.same q (hout q hq)).trans (hstays q entry hq hentry)

end Row.ReadFrom

theorem Trial.stations_countLog (t : Trial) (outputDir : Path) :
    (TrialPaths.ofTrial outputDir t).commandCountLog.stations.dropLast =
      t.road outputDir ++ [t.place outputDir] := by
  have hjoin : (TrialPaths.ofTrial outputDir t).commandCountLog =
      (TrialPaths.ofTrial outputDir t).dir.join (TrialFile.name t.pattern .commandCountLog) :=
    TrialFile.path_eq_join outputDir t .commandCountLog
  rw [hjoin, Path.stations_join (TrialFile.isName_name t.pattern .commandCountLog),
    List.dropLast_concat, t.stations_dir]

theorem Row.readFrom_of_readRow {row : Row} {t : Trial} {plan : Plan} {fs : FileSystem}
    (h : (t.readRow plan (.ofTrial plan.outputDir t) fs).1 = .ok row) :
    row.ReadFrom t plan fs := by
  refine ⟨⟨fs, h, fun _ _ _ hentry => hentry⟩, ?_⟩
  obtain ⟨counts, hread, -⟩ := Trial.counts_of_readRow h
  obtain ⟨content, text, hbytes, -⟩ := CommandCounts.read_eq_ok hread
  obtain ⟨hlocate, -⟩ := FileSystem.readBytes_eq_ok_iff.mp hbytes
  apply (FileSystem.locate_iff.mp hlocate).2.2.1
  rw [t.stations_countLog, List.mem_append]
  left
  rw [Trial.road, ← t.mapping.place_directory]
  exact Path.place_mem_stations _

/-- The counts of the row can be read again. -/
theorem Row.ReadFrom.exists_counts {row : Row} {t : Trial} {plan : Plan} {fs : FileSystem}
    (h : row.ReadFrom t plan fs) (hroad : fs.Open (t.road plan.outputDir)) :
    ∃ content counts,
      fs.readBytes (TrialPaths.ofTrial plan.outputDir t).commandCountLog = .ok content ∧
      CommandCounts.read fs (TrialPaths.ofTrial plan.outputDir t).commandCountLog = .ok counts ∧
      ∀ (k : Nat) command, plan.commands[k]? = some command → Text.trim command = command ∧
        ∃ n, Keyed.get? command counts = some n ∧ row.commands[k]? = some n := by
  obtain ⟨before, hrow, hstays⟩ := h.source
  obtain ⟨counts, hread, hcounts⟩ := Trial.counts_of_readRow hrow
  obtain ⟨content, text, hbytes, hparse⟩ := CommandCounts.read_eq_ok hread
  obtain ⟨hlocate, hslash, x, hentry⟩ := FileSystem.readBytes_eq_ok_iff.mp hbytes
  obtain ⟨hfit, hshort, hopen, hdot⟩ := FileSystem.locate_iff.mp hlocate
  have hnow : fs.readBytes (TrialPaths.ofTrial plan.outputDir t).commandCountLog = .ok content := by
    have hinside := t.inside_file plan.outputDir .commandCountLog
    refine FileSystem.readBytes_eq_ok_iff.mpr ⟨FileSystem.locate_iff.mpr ⟨hfit, hshort, ?_, ?_⟩,
      hslash, x, hstays _ _ hinside hentry⟩
    · rw [t.stations_countLog] at hopen ⊢
      intro q hq
      rcases List.mem_append.mp hq with hq' | hq'
      · exact hroad q hq'
      · rw [List.mem_singleton.mp hq'] at hq ⊢
        exact hstays _ _ (List.prefix_refl _) (hopen _ hq)
    · exact fun hends => hstays _ _ hinside (hdot hends)
  refine ⟨content, counts, hnow,
    (CommandCounts.read_of_readBytes (hnow.trans hbytes.symm)).trans hread, ?_⟩
  intro k command hcommand
  obtain ⟨n, hn, hk⟩ := hcounts k command hcommand
  exact ⟨CommandCounts.trim_of_get? hparse hn, n, hn, hk⟩

end MappingSweep
