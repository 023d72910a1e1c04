import MappingSweep.Proofs.FileSystem.Frame
import MappingSweep.Proofs.Traversal
import MappingSweep.Proofs.Trial.Names
import MappingSweep.Trial.Run

/-!
# What a trial changes

A trial changes nothing outside its own directory, apart from missing directories on the way to it,
as long as its simulator stays there.  The row that it reads is a row of this trial, as wide as the
plan's header.
-/

namespace MappingSweep

/-- The places in the directory of a trial. -/
def Trial.Inside (t : Trial) (outputDir : Path) (q : Place) : Prop :=
  t.place outputDir <+: q

/-- The simulator changes nothing outside the directory of the trial that it runs. -/
def Simulator.Confined (simulator : Simulator) : Prop :=
  ∀ (outputDir : Path) (t : Trial) (fs : FileSystem) (q : Place), ¬ t.Inside outputDir q →
    (simulator.run (TrialPaths.ofTrial outputDir t).config
      (TrialPaths.ofTrial outputDir t).stdoutLog fs).2.entryAt q = fs.entryAt q

namespace Trial

variable {plan : Plan} {template : Template} {simulator : Simulator} (t : Trial)
  (fs : FileSystem)

theorem inside_config (outputDir : Path) :
    t.Inside outputDir (TrialPaths.ofTrial outputDir t).config.place := by
  rw [place_config]
  exact List.prefix_append _ _

theorem removeDirectory_cases (failed : OsError → SweepError) (dir : Path) :
    (Action.mapError (.change fun fs => fs.removeDirectory dir) failed fs).2 = fs ∨
      (Action.mapError (.change fun fs => fs.removeDirectory dir) failed fs).2 =
        fs.removeTree dir.place := by
  simp only [Action.mapError, Action.change]
  cases hremove : fs.removeDirectory dir with
  | error e => exact .inl rfl
  | ok fs' => exact .inr (FileSystem.removeDirectory_eq_ok hremove)

theorem grows_removeDirectory (failed : OsError → SweepError) (outputDir : Path) :
    FileSystem.Grows (t.Inside outputDir) fs
      (Action.mapError (.change fun fs =>
        fs.removeDirectory (TrialPaths.ofTrial outputDir t).dir) failed fs).2 := by
  rcases removeDirectory_cases fs failed (TrialPaths.ofTrial outputDir t).dir with hsame | hremoved
  · rw [hsame]
    exact .refl _ fs
  · rw [hremoved, place_dir]
    exact FileSystem.grows_of_same fun _ hq => FileSystem.entryAt_removeTree_of_outside hq

theorem grows_createDirectories (failed : OsError → SweepError) (dir : Path)
    (inside : Place → Prop) : FileSystem.Grows inside fs
      (Action.mapError (fun fs => fs.createDirectories dir) failed fs).2 :=
  (FileSystem.grows_createDirectories fs dir).mono fun _ => False.elim

theorem writeConfig_cases (template : Template) (overrides : Config) (paths : TrialPaths) :
    (writeConfig template overrides paths fs).2 = fs ∨
      ∃ entry, (writeConfig template overrides paths fs).2 = fs.set paths.config.place entry := by
  simp only [writeConfig, bind, Action.andThen, Action.produce, Template.materialize,
    FileSystem.writeText]
  cases hwrite : fs.writeBytes paths.config
      (template.base.merge overrides).documentText.toUTF8 with
  | error e => exact .inl rfl
  | ok fs' =>
    obtain ⟨x, rfl, -⟩ := FileSystem.writeBytes_eq_ok hwrite
    exact .inr ⟨_, rfl⟩

theorem grows_writeConfig (template : Template) (overrides : Config) (outputDir : Path) :
    FileSystem.Grows (t.Inside outputDir) fs
      (writeConfig template overrides (TrialPaths.ofTrial outputDir t) fs).2 := by
  rcases writeConfig_cases fs template overrides (TrialPaths.ofTrial outputDir t) with
    hsame | ⟨entry, hset⟩
  · rw [hsame]
    exact .refl _ fs
  · rw [hset]
    exact FileSystem.grows_set entry (t.inside_config outputDir)

theorem grows_simulator (h : simulator.Confined) (outputDir : Path) :
    FileSystem.Grows (t.Inside outputDir) fs
      (simulator.run (TrialPaths.ofTrial outputDir t).config
        (TrialPaths.ofTrial outputDir t).stdoutLog fs).2 := by
  apply FileSystem.grows_of_same
  intro q hq
  exact h outputDir t fs q hq

end Trial

/-- A row with the names of a trial and a count for each command of the plan. -/
def Row.ReportsOn (row : Row) (t : Trial) (plan : Plan) : Prop :=
  row.mapping = t.mapping.name ∧ row.pattern = t.pattern.name ∧
    row.commands.length = plan.commands.length

/-- Everything in a row has been found. -/
structure TrialResult.Fills (r : TrialResult) (t : Trial) (plan : Plan) (row : Row) : Prop where
  pattern : row.pattern = t.pattern.name
  trace : row.trace = t.pattern.path.text
  mapping : row.mapping = t.mapping.name
  totalLatency : r.counters.find Counters.memoryCycles = .ok row.totalLatency
  bandwidth : r.bandwidth plan.burstWidth = .ok row.bandwidthUsage
  latencies : row.averageLatency = r.process.mean ∧ row.medianLatency = r.process.median
  reads : r.counters.find Counters.readRequests = .ok row.reads
  writes : r.counters.find Counters.writeRequests = .ok row.writes
  commands : plan.commands.mapM r.countOf = .ok row.commands

theorem TrialResult.fills_of_row {r : TrialResult} {t : Trial} {plan : Plan} {row : Row}
    (h : r.row t plan = .ok row) : r.Fills t plan row := by
  unfold TrialResult.row at h
  cases hcommands : plan.commands.mapM r.countOf with
  | error e => rw [hcommands] at h; cases h
  | ok commands =>
    rw [hcommands] at h
    simp only [bind, Except.bind] at h
    split at h
    · cases h
    rename_i hcycles
    split at h
    · cases h
    rename_i hbandwidth
    split at h
    · cases h
    rename_i hreads
    split at h
    · cases h
    rename_i hwrites
    cases h
    exact ⟨rfl, rfl, rfl, hcycles, hbandwidth, ⟨rfl, rfl⟩, hreads, hwrites, hcommands⟩

theorem TrialResult.reportsOn_of_row {r : TrialResult} {t : Trial} {plan : Plan} {row : Row}
    (h : r.row t plan = .ok row) : row.ReportsOn t plan :=
  have hfills := fills_of_row h
  ⟨hfills.mapping, hfills.pattern, length_of_mapM hfills.commands⟩

namespace Trial

theorem reportsOn_of_readRow {t : Trial} {plan : Plan} {paths : TrialPaths} {fs : FileSystem}
    {row : Row} (h : (t.readRow plan paths fs).1 = .ok row) : row.ReportsOn t plan := by
  simp only [readRow, Action.look, bind, Except.bind] at h
  split at h
  · cases h
  · exact TrialResult.reportsOn_of_row h

end Trial

theorem Row.ReportsOn.length_record {row : Row} {t : Trial} {plan : Plan}
    (h : row.ReportsOn t plan) : row.record.length = (Row.header plan.commands).length := by
  rw [Row.length_record, Row.length_header, h.2.2]

namespace Run

/-- A plan of one mapping. -/
def samplePlan (patterns : List Pattern) : Plan where
  simulator := ⟨"sim"⟩
  baseConfig := ⟨"base.yaml"⟩
  outputDir := ⟨"log"⟩
  mappings := [⟨"m", by decide⟩]
  patterns
  commands := ["RD"]
  burstWidth := 4
  maxWorkers := 1
  autoClean := false
  plot := false
  verbose := false

def goodPattern : Pattern :=
  ⟨"good", ⟨"good.trace"⟩, by decide⟩

def badPattern : Pattern :=
  ⟨"bad", ⟨"bad.trace"⟩, by decide⟩

def sampleCounters : String :=
  "total_num_read_requests: 1\ntotal_num_write_requests: 0\nmemory_system_cycles: 1\n"

/-- A simulator that leaves the artifacts of a trial, but fails for the bad pattern. -/
def sampleSimulator : Simulator where
  run config log := fun fs =>
    let dir := config.place.dropLast
    let pattern := dir.getLastD ""
    let leave := fun (fs : FileSystem) (name text : String) =>
      fs.set (dir ++ [name]) (.file text.toUTF8 false)
    if pattern = "bad" then (.error (.simulatorExit (.exited 3) log), fs)
    else
      let fs := leave fs (pattern ++ ".csv") "process\n1\n"
      let fs := leave fs (pattern ++ "_cmd_cnt.log") "RD: 1\n"
      (.ok (), leave fs "stdout.log" sampleCounters)

theorem confined_sampleSimulator : sampleSimulator.Confined := by
  intro outputDir t fs q hq
  have hne : ∀ name, t.place outputDir ++ [name] ≠ q := by
    rintro name rfl
    exact hq (List.prefix_append _ _)
  simp only [sampleSimulator, Trial.place_config, List.dropLast_concat]
  split
  · rfl
  · simp only [FileSystem.entryAt_set_of_ne _ _ (hne _)]

end Run

namespace Trial

theorem nameFault_m : nameFault? "m" = none := by
  decide

/-- The trial of the sample plan that does not fail. -/
def goodTrial : Trial :=
  ⟨⟨"m", nameFault_m⟩, Run.goodPattern⟩

end Trial
end MappingSweep
