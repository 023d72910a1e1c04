import MappingSweep.Proofs.Config.Template
import MappingSweep.Proofs.FileSystem.Reach
import MappingSweep.Proofs.Report.Progress
import MappingSweep.Proofs.Trial.Artifacts
import MappingSweep.Proofs.Trial.Files
import MappingSweep.Proofs.Trial.Isolation

/-!
# Trials that succeed

With nothing in the place of its directory, the way there open and its paths within the limits, a
trial comes as far as its simulator.  From a simulator that serves the trial it comes to a row.
Each stage is told by what it needs and by what it leaves, and both are about the way to the trial's
directory and the directory alone.
-/

namespace MappingSweep

namespace FileSystem

variable {fs gs : FileSystem} {p : Path} {content : ByteArray} {text : String}

/-- There is a file with this text. -/
def HoldsText (fs : FileSystem) (q : Place) (text : String) : Prop :=
  ∃ x, fs.entryAt q = some (.file text.toUTF8 x)

theorem HoldsText.ne_directory {q : Place} (h : fs.HoldsText q text) :
    fs.entryAt q ≠ some .directory := by
  obtain ⟨x, hx⟩ := h
  rw [hx]
  exact fun heq => by cases heq

theorem loadText_of_holdsText (hlocate : fs.locate p = .ok p.place)
    (hslash : p.endsWithSlash = false) (h : fs.HoldsText p.place text) :
    fs.loadText p = .ok text := by
  have hread : fs.readBytes p = .ok text.toUTF8 := readBytes_eq_ok_iff.mpr ⟨hlocate, hslash, h⟩
  rw [loadText, readText, hread]
  simp only [Text.fromUTF8?_toUTF8]
  rfl

end FileSystem

namespace TrialFile

/-- The files without which there is no row. -/
def needed : List TrialFile :=
  [config, accessLog, commandCountLog, stdoutLog]

theorem nul_not_mem_name (p : Pattern) {f : TrialFile} (hf : f ∈ needed) :
    '\x00' ∉ (f.name p).toList := by
  have happend : ∀ ending : String,
      '\x00' ∉ ending.toList → '\x00' ∉ (p.name ++ ending).toList := by
    intro ending hending
    rw [String.toList_append, List.mem_append, not_or]
    exact ⟨nul_not_mem_of_nameFault p.safe, hending⟩
  simp only [needed, List.mem_cons, List.not_mem_nil, or_false] at hf
  rcases hf with rfl | rfl | rfl | rfl
  · exact happend _ (by decide)
  · exact happend _ (by decide)
  · exact happend _ (by decide)
  · exact (by decide : '\x00' ∉ "stdout.log".toList)

end TrialFile

namespace Trial

variable (t : Trial) (outputDir : Path)

/-- The paths of the trial are within the limits. -/
structure Fits : Prop where
  free : outputDir.NulFree
  short : ∀ f ∈ TrialFile.needed, (f.path (TrialPaths.ofTrial outputDir t)).Short

variable {t outputDir} {fs : FileSystem}

theorem Fits.short_dir (h : t.Fits outputDir) : (TrialPaths.ofTrial outputDir t).dir.Short := by
  have hconfig := h.short .config List.mem_cons_self
  rw [TrialFile.path_eq_join] at hconfig
  exact hconfig.of_join (TrialFile.isName_name t.pattern .config)

theorem Fits.free_directory (h : t.Fits outputDir) : (t.mapping.directory outputDir).NulFree :=
  h.free.join t.mapping.isName (nul_not_mem_of_nameFault t.mapping.safe)

theorem Fits.free_dir (h : t.Fits outputDir) : (TrialPaths.ofTrial outputDir t).dir.NulFree :=
  h.free_directory.join t.pattern.isName (nul_not_mem_of_nameFault t.pattern.safe)

theorem Fits.locate_dir (h : t.Fits outputDir) (hopen : fs.Open (t.road outputDir)) :
    fs.locate (TrialPaths.ofTrial outputDir t).dir =
      .ok (TrialPaths.ofTrial outputDir t).dir.place :=
  FileSystem.locate_join hopen t.pattern.isName (nul_not_mem_of_nameFault t.pattern.safe)
    h.free_directory h.short_dir

theorem Fits.locate_file (h : t.Fits outputDir) {f : TrialFile} (hf : f ∈ TrialFile.needed)
    (hopen : fs.Open (TrialPaths.ofTrial outputDir t).dir.stations) :
    fs.locate (f.path (TrialPaths.ofTrial outputDir t)) =
      .ok (f.path (TrialPaths.ofTrial outputDir t)).place := by
  have hshort := h.short f hf
  rw [f.path_eq_join] at hshort ⊢
  exact FileSystem.locate_join hopen (f.isName_name t.pattern)
    (TrialFile.nul_not_mem_name t.pattern hf) h.free_dir hshort

theorem endsWithSlash_file (f : TrialFile) :
    (f.path (TrialPaths.ofTrial outputDir t)).endsWithSlash = false := by
  rw [f.path_eq_join]
  exact Path.endsWithSlash_join (f.isName_name t.pattern)

end Trial

/-! ## Stages of a trial that succeeds -/

namespace Trial

variable (t : Trial) (outputDir : Path) (plan : Plan) (template : Template)

/-- The way is open, and nothing is in the place of the directory. -/
structure Vacant (fs : FileSystem) : Prop where
  road : fs.Open (t.road outputDir)
  empty : ∀ q, t.Inside outputDir q → fs.entryAt q = none

/-- The directory is there, with nothing in it. -/
structure Fresh (fs : FileSystem) : Prop where
  road : fs.Open (TrialPaths.ofTrial outputDir t).dir.stations
  empty : ∀ q, t.Inside outputDir q → q ≠ t.place outputDir → fs.entryAt q = none

/-- The directory is there, with the configuration in it and nothing else. -/
structure Prepared (fs : FileSystem) : Prop where
  road : fs.Open (TrialPaths.ofTrial plan.outputDir t).dir.stations
  config : fs.HoldsText (TrialPaths.ofTrial plan.outputDir t).config.place
    (template.base.merge
      (t.overrides (.ofTrial plan.outputDir t) plan.commands)).documentText
  empty : ∀ q, t.Inside plan.outputDir q → q ≠ t.place plan.outputDir →
    q ≠ (TrialPaths.ofTrial plan.outputDir t).config.place → fs.entryAt q = none

/-- The artifacts of the trial are there and well-formed. -/
structure Supplied (fs : FileSystem) : Prop where
  accessLog : ∃ text, fs.HoldsText (TrialPaths.ofTrial plan.outputDir t).accessLog.place text ∧
    AccessLog.WellFormed text
  counts : ∃ text, fs.HoldsText (TrialPaths.ofTrial plan.outputDir t).commandCountLog.place text ∧
    CommandCounts.WellFormed plan.commands text
  counters : ∃ text, fs.HoldsText (TrialPaths.ofTrial plan.outputDir t).stdoutLog.place text ∧
    Counters.WellFormed text

/-- No directory is in the directory. -/
def Tidy (fs : FileSystem) : Prop :=
  ∀ q, t.Inside outputDir q → q ≠ t.place outputDir → fs.entryAt q ≠ some .directory

/-- The simulator has run. -/
structure Simulated (fs : FileSystem) : Prop where
  road : fs.Open (TrialPaths.ofTrial plan.outputDir t).dir.stations
  supplied : t.Supplied plan fs
  tidy : t.Tidy plan.outputDir fs

end Trial

/-- The simulator stays in the directory of its trial.  For every trial of the plan it succeeds with
well-formed artifacts, and changes nothing else but command traces. -/
structure Simulator.Healthy (simulator : Simulator) (plan : Plan) (template : Template) :
    Prop where
  confined : simulator.Confined
  serves : ∀ t ∈ plan.trials, ∀ fs, t.Prepared plan template fs →
    let paths := TrialPaths.ofTrial plan.outputDir t
    ∃ fs', simulator.run paths.config paths.stdoutLog fs = (.ok (), fs') ∧ t.Supplied plan fs' ∧
      ∀ q, q ≠ paths.accessLog.place → q ≠ paths.commandCountLog.place →
        q ≠ paths.stdoutLog.place → fs'.entryAt q = fs.entryAt q ∨
          ∃ channel, q = (paths.commandTrace channel).place ∧ fs'.IsFile q

namespace Trial

variable {α : Type} (t : Trial) (outputDir : Path)

/-- Whether it holds depends on the way to the trial's directory and on the directory. -/
def Sees (before : FileSystem → Prop) : Prop :=
  ∀ fs gs, (∀ q, q ∈ t.road outputDir ∨ t.Inside outputDir q → fs.entryAt q = gs.entryAt q) →
    before gs → before fs

/-- The action succeeds on files of the first kind, leaves files of the second kind, and changes
nothing outside the trial's directory. -/
def Achieves (before : FileSystem → Prop) (after : α → FileSystem → Prop)
    (a : Action SweepError FileSystem α) : Prop :=
  ∀ fs, before fs → ∃ x fs', a fs = (.ok x, fs') ∧ after x fs' ∧
    ∀ q, ¬ t.Inside outputDir q → fs'.entryAt q = fs.entryAt q

variable {t outputDir} {plan : Plan} {template : Template}

theorem Achieves.mapError_change {before : FileSystem → Prop} {after : FileSystem → Prop}
    {ε : Type} {a : Action ε FileSystem Unit} {f : ε → SweepError}
    (h : ∀ fs, before fs → ∃ fs', a fs = (.ok (), fs') ∧ after fs' ∧
      ∀ q, ¬ t.Inside outputDir q → fs'.entryAt q = fs.entryAt q) :
    t.Achieves outputDir before (fun _ => after) (a.mapError f) := by
  intro fs hfs
  obtain ⟨fs', ha, hafter, hout⟩ := h fs hfs
  refine ⟨(), fs', ?_, hafter, hout⟩
  rw [Action.mapError, ha]
  rfl

theorem sees_vacant : t.Sees outputDir (t.Vacant outputDir) := by
  intro fs gs h hgs
  exact ⟨fun q hq => (h q (.inl hq)).trans (hgs.road q hq),
    fun q hq => (h q (.inr hq)).trans (hgs.empty q hq)⟩

theorem open_of_sees {fs gs : FileSystem}
    (h : ∀ q, q ∈ t.road outputDir ∨ t.Inside outputDir q → fs.entryAt q = gs.entryAt q)
    (hopen : gs.Open (TrialPaths.ofTrial outputDir t).dir.stations) :
    fs.Open (TrialPaths.ofTrial outputDir t).dir.stations :=
  fun q hq => (h q (t.stations_dir_cases outputDir q hq)).trans (hopen q hq)

theorem sees_fresh : t.Sees outputDir (t.Fresh outputDir) := by
  intro fs gs h hgs
  exact ⟨open_of_sees h hgs.road, fun q hq hne => (h q (.inr hq)).trans (hgs.empty q hq hne)⟩

theorem sees_holdsText (f : TrialFile) (text : String) : t.Sees outputDir fun fs =>
    fs.HoldsText (f.path (TrialPaths.ofTrial outputDir t)).place text := by
  rintro fs gs h ⟨x, hx⟩
  exact ⟨x, (h _ (.inr (t.inside_file outputDir f))).trans hx⟩

theorem sees_prepared : t.Sees plan.outputDir (t.Prepared plan template) := by
  intro fs gs h hgs
  exact ⟨open_of_sees h hgs.road, sees_holdsText .config _ fs gs h hgs.config,
    fun q hq hne hconfig => (h q (.inr hq)).trans (hgs.empty q hq hne hconfig)⟩

theorem sees_simulated : t.Sees plan.outputDir (t.Simulated plan) := by
  intro fs gs h hgs
  obtain ⟨⟨log, hlog, hlogged⟩, ⟨counts, hcounts, hcounted⟩, ⟨out, hout, htold⟩⟩ := hgs.supplied
  refine ⟨open_of_sees h hgs.road,
    ⟨⟨log, ?_, hlogged⟩, ⟨counts, ?_, hcounted⟩, ⟨out, ?_, htold⟩⟩, ?_⟩
  · exact sees_holdsText .accessLog _ fs gs h hlog
  · exact sees_holdsText .commandCountLog _ fs gs h hcounts
  · exact sees_holdsText .stdoutLog _ fs gs h hout
  · intro q hq hne
    rw [h q (.inr hq)]
    exact hgs.tidy q hq hne

theorem achieves_exists : t.Achieves outputDir (t.Vacant outputDir)
    (fun found fs => found = false ∧ t.Vacant outputDir fs)
    (.look fun fs => .ok (fs.pathExists (TrialPaths.ofTrial outputDir t).dir)) := by
  intro fs h
  refine ⟨false, fs, ?_, ⟨rfl, h⟩, fun _ _ => rfl⟩
  have hmissing : fs.entryAt (TrialPaths.ofTrial outputDir t).dir.place = none := by
    rw [place_dir]
    exact h.empty _ (List.prefix_refl _)
  rw [Action.look, FileSystem.pathExists_of_missing hmissing]

theorem achieves_createDirectories (hfits : t.Fits outputDir) (failed : OsError → SweepError) :
    t.Achieves outputDir (t.Vacant outputDir) (fun _ => t.Fresh outputDir)
      (Action.mapError (fun fs => fs.createDirectories (TrialPaths.ofTrial outputDir t).dir)
        failed) := by
  apply Achieves.mapError_change
  intro fs h
  have hmissing : fs.entryAt (TrialPaths.ofTrial outputDir t).dir.place = none := by
    rw [place_dir]
    exact h.empty _ (List.prefix_refl _)
  refine ⟨_, FileSystem.createDirectories_of_missing (hfits.locate_dir h.road) hmissing, ?_, ?_⟩
  · rw [place_dir] at hmissing ⊢
    have hroot := FileSystem.isRoot_eq_false_of_none hmissing
    constructor
    · intro q hq
      by_cases hplace : t.place outputDir = q
      · rw [← hplace, FileSystem.entryAt_set_self _ _ hroot]
      · rw [FileSystem.entryAt_set_of_ne _ _ hplace]
        rw [stations_dir, List.mem_append, List.mem_singleton] at hq
        exact h.road q (hq.resolve_right fun heq => hplace heq.symm)
    · intro q hq hne
      rw [FileSystem.entryAt_set_of_ne _ _ (Ne.symm hne)]
      exact h.empty q hq
  · intro q hq
    apply FileSystem.entryAt_set_of_ne
    rintro rfl
    rw [place_dir] at hq
    exact hq (List.prefix_refl _)

theorem achieves_writeConfig (hfits : t.Fits plan.outputDir) :
    t.Achieves plan.outputDir (t.Fresh plan.outputDir) (fun _ => t.Prepared plan template)
      (writeConfig template (t.overrides (.ofTrial plan.outputDir t) plan.commands)
        (.ofTrial plan.outputDir t)) := by
  intro fs h
  set paths := TrialPaths.ofTrial plan.outputDir t
  set text := (template.base.merge (t.overrides paths plan.commands)).documentText with htext
  have hin : t.Inside plan.outputDir paths.config.place := t.inside_config plan.outputDir
  have hne : paths.config.place ≠ t.place plan.outputDir :=
    t.place_file_ne_place plan.outputDir .config
  have hmissing : fs.entryAt paths.config.place = none := h.empty _ hin hne
  have hwrite := FileSystem.writeBytes_of_missing text.toUTF8
    (hfits.locate_file (f := .config) List.mem_cons_self h.road)
    (endsWithSlash_file .config) hmissing
  refine ⟨(), fs.set paths.config.place (.file text.toUTF8 false), ?_, ?_, ?_⟩
  · have hmaterialize : template.materialize (t.overrides paths plan.commands) paths.config fs =
        .ok (template.base.merge (t.overrides paths plan.commands),
          fs.set paths.config.place (.file text.toUTF8 false)) :=
      Template.materialize_eq_ok_iff.mpr ⟨rfl, congrArg (Except.mapError _) hwrite⟩
    simp only [writeConfig, Action.bind_apply, Action.produce, hmaterialize]
    rfl
  · constructor
    · intro q hq
      by_cases hplace : paths.config.place = q
      · subst hplace
        rw [h.road _ hq] at hmissing
        cases hmissing
      · rw [FileSystem.entryAt_set_of_ne _ _ hplace]
        exact h.road q hq
    · exact ⟨false, FileSystem.entryAt_set_self _ _ (FileSystem.isRoot_eq_false_of_none hmissing)⟩
    · intro q hq hplace hconfig
      rw [FileSystem.entryAt_set_of_ne _ _ (Ne.symm hconfig)]
      exact h.empty q hq hplace
  · intro q hq
    apply FileSystem.entryAt_set_of_ne
    rintro rfl
    exact hq hin

/-- The simulator finds no directory in the directory. -/
theorem Prepared.tidy {fs : FileSystem} (h : t.Prepared plan template fs) :
    t.Tidy plan.outputDir fs := by
  intro q hq hne
  by_cases hconfig : q = (TrialPaths.ofTrial plan.outputDir t).config.place
  · rw [hconfig]
    exact h.config.ne_directory
  · rw [h.empty q hq hne hconfig]
    exact fun heq => by cases heq

theorem achieves_simulator {simulator : Simulator} (hhealthy : simulator.Healthy plan template)
    (ht : t ∈ plan.trials) :
    t.Achieves plan.outputDir (t.Prepared plan template) (fun _ => t.Simulated plan)
      (simulator.run (TrialPaths.ofTrial plan.outputDir t).config
        (TrialPaths.ofTrial plan.outputDir t).stdoutLog) := by
  intro fs h
  obtain ⟨fs', hrun, hsupplied, hothers⟩ := hhealthy.serves t ht fs h
  have hout : ∀ q, ¬ t.Inside plan.outputDir q → fs'.entryAt q = fs.entryAt q := by
    intro q hq
    have hconfined := hhealthy.confined plan.outputDir t fs q hq
    rwa [hrun] at hconfined
  have hdir : fs'.entryAt (t.place plan.outputDir) = fs.entryAt (t.place plan.outputDir) := by
    have hne := fun f => (t.place_file_ne_place plan.outputDir f).symm
    rcases hothers _ (hne .accessLog) (hne .commandCountLog) (hne .stdoutLog) with
      hsame | ⟨channel, hplace, -⟩
    · exact hsame
    · exact absurd hplace (hne (.commandTrace channel))
  refine ⟨(), fs', hrun, ⟨?_, hsupplied, ?_⟩, hout⟩
  · intro q hq
    by_cases hin : t.Inside plan.outputDir q
    · have hplace : q = t.place plan.outputDir := by
        by_contra hne
        exact h.tidy q hin hne (h.road q hq)
      rw [hplace, hdir]
      exact h.road _ (hplace ▸ hq)
    · rw [hout q hin]
      exact h.road q hq
  · intro q hin hne
    obtain ⟨⟨_, hlog, -⟩, ⟨_, hcounts, -⟩, ⟨_, hstdout, -⟩⟩ := hsupplied
    by_cases haccess : q = (TrialPaths.ofTrial plan.outputDir t).accessLog.place
    · exact haccess ▸ hlog.ne_directory
    by_cases hcount : q = (TrialPaths.ofTrial plan.outputDir t).commandCountLog.place
    · exact hcount ▸ hcounts.ne_directory
    by_cases hprinted : q = (TrialPaths.ofTrial plan.outputDir t).stdoutLog.place
    · exact hprinted ▸ hstdout.ne_directory
    rcases hothers q haccess hcount hprinted with hsame | ⟨channel, -, content, x, hfile⟩
    · rw [hsame]
      exact h.tidy q hin hne
    · rw [hfile]
      exact fun heq => by cases heq

theorem achieves_readRow (hfits : t.Fits plan.outputDir) :
    t.Achieves plan.outputDir (t.Simulated plan)
      (fun row fs => row.ReportsOn t plan ∧ t.Simulated plan fs)
      (t.readRow plan (.ofTrial plan.outputDir t)) := by
  intro fs h
  obtain ⟨⟨log, hlog, hlogged⟩, ⟨counts, hcounts, hcounted⟩, ⟨out, hout, htold⟩⟩ := h.supplied
  have hload : ∀ {f : TrialFile} {text : String}, f ∈ TrialFile.needed →
      fs.HoldsText (f.path (.ofTrial plan.outputDir t)).place text →
      fs.loadText (f.path (.ofTrial plan.outputDir t)) = .ok text :=
    fun hf => FileSystem.loadText_of_holdsText (hfits.locate_file hf h.road) (endsWithSlash_file _)
  have haccess := hload (f := .accessLog) (by decide) hlog
  have hcount := hload (f := .commandCountLog) (by decide) hcounts
  have hstdout := hload (f := .stdoutLog) (by decide) hout
  obtain ⟨found, process, hstats, hprocess⟩ := hlogged.exists_stats
  obtain ⟨commands, hparse, hcommands⟩ := hcounted.exists_counts
  obtain ⟨row, hrow⟩ := TrialResult.exists_row t process hcommands htold
  have hread : t.readRow plan (.ofTrial plan.outputDir t) fs = (.ok row, fs) := by
    simp only [TrialFile.path] at haccess hcount hstdout
    simp only [readRow, Action.look, TrialResult.collect, TrialResult.readProcess,
      AccessLog.readStats, CommandCounts.read, Counters.read, haccess, hcount, hstdout, hstats,
      hparse, hprocess, Except.mapError, bind, Except.bind, pure, Except.pure, hrow]
  exact ⟨row, fs, hread, ⟨reportsOn_of_readRow (congrArg Prod.fst hread), h⟩, fun _ _ => rfl⟩

end Trial

namespace Run

variable {plan : Plan} {template : Template}

theorem run_sampleSimulator {t : Trial} {outputDir : Path} {paths : TrialPaths}
    (hpaths : paths = .ofTrial outputDir t) (hgood : t.pattern.name ≠ "bad") (fs : FileSystem) :
    sampleSimulator.run paths.config paths.stdoutLog fs =
      (.ok (), ((fs.set paths.accessLog.place (.file "process\n1\n".toUTF8 false)).set
        paths.commandCountLog.place (.file "RD: 1\n".toUTF8 false)).set
        paths.stdoutLog.place (.file sampleCounters.toUTF8 false)) := by
  subst hpaths
  have hname : (t.place outputDir).getLastD "" = t.pattern.name := by
    simp [Trial.place]
  have haccess := t.place_file outputDir .accessLog
  have hcount := t.place_file outputDir .commandCountLog
  have hstdout := t.place_file outputDir .stdoutLog
  simp only [TrialFile.path, TrialFile.name, TrialFile.ending?] at haccess hcount hstdout
  simp only [sampleSimulator, Trial.place_config, List.dropLast_concat, hname, if_neg hgood,
    haccess, hcount, hstdout]

theorem wellFormed_sampleLog : AccessLog.WellFormed "process\n1\n" := by
  have htext : "process\n1\n" = Csv.encodeAll [["process"], ["1"]] := by decide +kernel
  rw [htext]
  have hwidth : ∀ record ∈ [["1"]], record.length = ["process"].length := by decide
  refine ⟨_, [["1"].map Text.trim], Csv.readTable_encodeAll rfl hwidth, ?_⟩
  decide +kernel

theorem wellFormed_sampleCounts : CommandCounts.WellFormed ["RD"] "RD: 1\n" := by
  have hlines : Text.splitLines "RD: 1\n".toList = ["RD: 1".toList] := by decide +kernel
  have hline : CommandCounts.Counts "RD: 1".toList "RD" 1 :=
    ⟨"RD".toList, " 1".toList, by decide +kernel, by decide +kernel, by decide +kernel⟩
  simp only [CommandCounts.WellFormed, hlines, List.mem_singleton, forall_eq]
  exact ⟨⟨"RD", 1, hline⟩, _, rfl, 1, hline⟩

theorem wellFormed_sampleCounters : Counters.WellFormed sampleCounters :=
  ⟨1, 0, 1, by decide +kernel, by decide +kernel, by decide +kernel, by decide⟩

theorem healthy_sampleSimulator (hcommands : plan.commands = ["RD"])
    (hgood : ∀ t ∈ plan.trials, t.pattern.name ≠ "bad") :
    sampleSimulator.Healthy plan template := by
  refine ⟨confined_sampleSimulator, ?_⟩
  intro t ht fs hprepared paths
  have hroot : ∀ f : TrialFile, f ≠ .config →
      FileSystem.isRoot (f.path paths).place = false := by
    intro f hf
    exact FileSystem.isRoot_eq_false_of_none (hprepared.empty _ (t.inside_file _ f)
      (t.place_file_ne_place _ f) fun h => hf (t.place_injective plan.outputDir h))
  have hne : ∀ f g : TrialFile, f ≠ g → (f.path paths).place ≠ (g.path paths).place :=
    fun f g hfg h => hfg (t.place_injective plan.outputDir h)
  have houtlog : paths.stdoutLog.place ≠ paths.accessLog.place :=
    hne .stdoutLog .accessLog (by decide)
  have houtcount : paths.stdoutLog.place ≠ paths.commandCountLog.place :=
    hne .stdoutLog .commandCountLog (by decide)
  have hcountlog : paths.commandCountLog.place ≠ paths.accessLog.place :=
    hne .commandCountLog .accessLog (by decide)
  have hpaths : paths = .ofTrial plan.outputDir t := rfl
  refine ⟨_, run_sampleSimulator hpaths (hgood t ht) fs, ⟨?_, ?_, ?_⟩, ?_⟩
  · refine ⟨"process\n1\n", ⟨false, ?_⟩, wellFormed_sampleLog⟩
    rw [FileSystem.entryAt_set_of_ne _ _ houtlog, FileSystem.entryAt_set_of_ne _ _ hcountlog]
    exact FileSystem.entryAt_set_self _ _ (hroot .accessLog (by decide))
  · refine ⟨"RD: 1\n", ⟨false, ?_⟩, hcommands ▸ wellFormed_sampleCounts⟩
    rw [FileSystem.entryAt_set_of_ne _ _ houtcount]
    exact FileSystem.entryAt_set_self _ _ (hroot .commandCountLog (by decide))
  · refine ⟨sampleCounters, ⟨false, ?_⟩, wellFormed_sampleCounters⟩
    exact FileSystem.entryAt_set_self _ _ (hroot .stdoutLog (by decide))
  · intro q haccess hcount hstdout
    rw [FileSystem.entryAt_set_of_ne _ _ hstdout.symm, FileSystem.entryAt_set_of_ne _ _ hcount.symm,
      FileSystem.entryAt_set_of_ne _ _ haccess.symm]
    exact .inl rfl

end Run
end MappingSweep
