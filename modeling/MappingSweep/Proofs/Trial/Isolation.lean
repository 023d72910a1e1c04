import MappingSweep.Proofs.FileSystem.Agreement
import MappingSweep.Proofs.Isolation
import MappingSweep.Proofs.Trial.Effects

/-!
# Trials by themselves

Once the directory of its mapping is there, a trial looks at its own directory alone and changes
nothing else, as long as its simulator does so.  What goes on in other places makes no difference
to it.
-/

namespace MappingSweep
namespace FileSystem

variable {fs gs : FileSystem} {road : List Place} {inside : Place → Prop}

/-- Both file systems have the road open and agree inside. -/
structure Alike (road : List Place) (inside : Place → Prop) (fs gs : FileSystem) : Prop where
  left : fs.Open road
  right : gs.Open road
  same : ∀ q, inside q → fs.entryAt q = gs.entryAt q

theorem Alike.mono {wide : Place → Prop} (h : Alike road wide fs gs)
    (hwide : ∀ q, inside q → wide q) : Alike road inside fs gs :=
  ⟨h.left, h.right, fun q hq => h.same q (hwide q hq)⟩

theorem Alike.entryAt_eq {q : Place} (h : Alike road inside fs gs) (hq : q ∈ road ∨ inside q) :
    fs.entryAt q = gs.entryAt q := by
  rcases hq with hq | hq
  · rw [h.left q hq, h.right q hq]
  · exact h.same q hq

/-- Paths that follow the road and then stay inside. -/
theorem Alike.stations {p : Path} (h : Alike road inside fs gs)
    (hp : ∀ q ∈ p.stations, q ∈ road ∨ inside q) :
    ∀ q ∈ p.stations, fs.entryAt q = gs.entryAt q :=
  fun q hq => h.entryAt_eq (hp q hq)

end FileSystem

/-- Where the road is open the action looks inside alone, and changes nothing else. -/
structure Action.Enclosed {ε α : Type} (road : List Place) (inside : Place → Prop)
    (a : Action ε FileSystem α) : Prop where
  outside : ∀ fs, fs.Open road → ∀ q, ¬ inside q → (a fs).2.entryAt q = fs.entryAt q
  result : ∀ fs gs, FileSystem.Alike road inside fs gs → (a fs).1 = (a gs).1
  within : ∀ fs gs, FileSystem.Alike road inside fs gs → ∀ q, inside q →
    (a fs).2.entryAt q = (a gs).2.entryAt q

theorem Action.enclosed_of_actsAlike {ε α : Type} {road : List Place} {inside : Place → Prop}
    {a : Action ε FileSystem α}
    (houtside : ∀ fs, fs.Open road → ∀ q, ¬ inside q → (a fs).2.entryAt q = fs.entryAt q)
    (hacts : ∀ fs gs, FileSystem.Alike road inside fs gs → FileSystem.ActsAlike a fs gs) :
    a.Enclosed road inside :=
  ⟨houtside, fun fs gs h => (hacts fs gs h).result,
    fun fs gs h q hq => (hacts fs gs h).entries q (h.same q hq)⟩

theorem Action.Enclosed.alike {ε α : Type} {road : List Place} {inside wide : Place → Prop}
    {a : Action ε FileSystem α} (h : a.Enclosed road inside) (hwide : ∀ q, inside q → wide q)
    (hroad : ∀ q ∈ road, ¬ inside q) {fs gs : FileSystem}
    (hlike : FileSystem.Alike road wide fs gs) :
    FileSystem.Alike road wide (a fs).2 (a gs).2 := by
  refine ⟨?_, ?_, ?_⟩
  · intro q hq
    exact (h.outside fs hlike.left q (hroad q hq)).trans (hlike.left q hq)
  · intro q hq
    exact (h.outside gs hlike.right q (hroad q hq)).trans (hlike.right q hq)
  · intro q hq
    by_cases hin : inside q
    · exact h.within fs gs (hlike.mono hwide) q hin
    · exact (h.outside fs hlike.left q hin).trans
        ((hlike.same q hq).trans (h.outside gs hlike.right q hin).symm)

namespace World

variable {σ α : Type} {road : List Place} {inside wide : Place → Prop}

def Alike (road : List Place) (wide : Place → Prop) (w v : World σ) : Prop :=
  FileSystem.Alike road wide w.files v.files

/-- Nothing changes but what is inside. -/
def Moves (wide : Place → Prop) (w w' : World σ) : Prop :=
  ∀ q, ¬ wide q → w'.files.entryAt q = w.files.entryAt q

theorem isolated_onFiles {a : Action SweepError FileSystem α} (h : a.Enclosed road inside)
    (hwide : ∀ q, inside q → wide q) (hroad : ∀ q ∈ road, ¬ inside q) :
    Task.Isolated (Alike road wide) (Moves wide) (onFiles (σ := σ) a) := by
  apply Action.isolated_task
  · intro w v hlike
    exact h.alike hwide hroad hlike
  · intro w v hlike q hq
    exact h.outside _ hlike.left q fun hin => hq (hwide q hin)
  · intro w v hlike
    exact h.result _ _ (hlike.mono hwide)

end World

/-- A sink that refuses no row. -/
def Sink.Accepts {σ : Type} (sink : Sink σ) : Prop :=
  ∀ row s, ∃ s', sink.append row s = .ok s'

theorem World.isolated_append {σ : Type} {road : List Place} {wide : Place → Prop} {sink : Sink σ}
    (h : sink.Accepts) (row : Row) :
    Task.Isolated (World.Alike road wide) (World.Moves wide)
      (World.onSink (.change (sink.append row))) := by
  have hok : ∀ s, ∃ s', Action.change (sink.append row) s = (.ok (), s') := by
    intro s
    obtain ⟨s', hs⟩ := h row s
    exact ⟨s', by rw [Action.change, hs]⟩
  apply Action.isolated_task
  · intro w v hlike
    exact hlike
  · intro w v _ q _
    rfl
  · intro w v _
    obtain ⟨s, hs⟩ := hok w.sink
    obtain ⟨s', hs'⟩ := hok v.sink
    simp only [Action.within, hs, hs']

/-- What the simulator does with a trial depends on the trial's directory alone, once the way there
is the same. -/
def Simulator.Local (simulator : Simulator) : Prop :=
  ∀ (outputDir : Path) (t : Trial) (fs gs : FileSystem),
    (∀ q ∈ (t.mapping.directory outputDir).stations, fs.entryAt q = gs.entryAt q) →
    (∀ q, t.Inside outputDir q → fs.entryAt q = gs.entryAt q) →
    let run := simulator.run (TrialPaths.ofTrial outputDir t).config
      (TrialPaths.ofTrial outputDir t).stdoutLog
    (run fs).1 = (run gs).1 ∧
      ∀ q, t.Inside outputDir q → (run fs).2.entryAt q = (run gs).2.entryAt q

namespace Run

theorem local_sampleSimulator : sampleSimulator.Local := by
  intro outputDir t fs gs _ hinside
  simp only [sampleSimulator]
  split
  · exact ⟨rfl, hinside⟩
  · refine ⟨rfl, fun q hq => ?_⟩
    iterate 3 apply FileSystem.entryAt_set_congr
    exact hinside q hq

end Run

/-! ## The stages of a trial -/

namespace Trial

variable {plan : Plan} {template : Template} {simulator : Simulator} (t : Trial)
  (outputDir : Path)

/-- The way to the directory of the trial's mapping. -/
def road : List Place :=
  (t.mapping.directory outputDir).stations

theorem stations_dir :
    (TrialPaths.ofTrial outputDir t).dir.stations = t.road outputDir ++ [t.place outputDir] := by
  rw [place, ← t.mapping.place_directory]
  exact Path.stations_join t.pattern.isName

theorem stations_dir_cases (q : Place) (h : q ∈ (TrialPaths.ofTrial outputDir t).dir.stations) :
    q ∈ t.road outputDir ∨ t.Inside outputDir q := by
  rw [stations_dir, List.mem_append, List.mem_singleton] at h
  rcases h with h | rfl
  · exact .inl h
  · exact .inr (List.prefix_refl _)

theorem stations_file_cases {name : String} (hname : IsName name) (q : Place)
    (h : q ∈ ((TrialPaths.ofTrial outputDir t).dir.join name).stations) :
    q ∈ t.road outputDir ∨ t.Inside outputDir q := by
  rw [Path.stations_join hname, List.mem_append, List.mem_singleton] at h
  rcases h with h | rfl
  · exact t.stations_dir_cases outputDir q h
  · rw [place_dir]
    exact .inr (List.prefix_append _ _)

theorem enclosed_exists : Action.Enclosed (t.road outputDir) (t.Inside outputDir)
    (.look fun fs => .ok (fs.pathExists (TrialPaths.ofTrial outputDir t).dir) :
      Action SweepError FileSystem Bool) := by
  apply Action.enclosed_of_actsAlike
  · intro fs _ q _
    rfl
  · intro fs gs h
    apply FileSystem.actsAlike_look
    have hfind := FileSystem.find_congr (h.stations (t.stations_dir_cases outputDir))
    rw [FileSystem.pathExists, FileSystem.pathExists, hfind]

theorem enclosed_removeDirectory (failed : OsError → SweepError) :
    Action.Enclosed (t.road outputDir) (t.Inside outputDir)
      (Action.mapError (.change fun fs =>
        fs.removeDirectory (TrialPaths.ofTrial outputDir t).dir) failed) := by
  apply Action.enclosed_of_actsAlike
  · intro fs _ q hq
    rcases removeDirectory_cases fs failed (TrialPaths.ofTrial outputDir t).dir with
      hsame | hremoved
    · rw [hsame]
    · rw [hremoved, place_dir]
      exact FileSystem.entryAt_removeTree_of_outside hq
  · intro fs gs h
    have hstations := h.stations (t.stations_dir_cases outputDir)
    exact (FileSystem.actsAlike_removeDirectory hstations).mapError failed

theorem enclosed_createDirectories (failed : OsError → SweepError) :
    Action.Enclosed (t.road outputDir) (t.Inside outputDir)
      (Action.mapError (fun fs =>
        fs.createDirectories (TrialPaths.ofTrial outputDir t).dir) failed) := by
  apply Action.enclosed_of_actsAlike
  · intro fs hopen q hq
    by_cases hroad : q ∈ t.road outputDir
    · rw [hopen q hroad]
      exact (FileSystem.grows_createDirectories fs _).entryAt_eq id (hopen q hroad)
    · apply FileSystem.entryAt_createDirectories
      intro hstation
      rcases t.stations_dir_cases outputDir q hstation with h | h
      · exact hroad h
      · exact hq h
  · intro fs gs h
    apply FileSystem.ActsAlike.mapError
    exact FileSystem.actsAlike_createDirectories (h.stations (t.stations_dir_cases outputDir))

theorem actsAlike_writeConfig (template : Template) (overrides : Config) (paths : TrialPaths)
    {fs gs : FileSystem} (h : ∀ q ∈ paths.config.stations, fs.entryAt q = gs.entryAt q) :
    FileSystem.ActsAlike (writeConfig template overrides paths) fs gs := by
  rcases FileSystem.writeBytes_congr (template.base.merge overrides).documentText.toUTF8 h
    with ⟨e, hfs, hgs⟩ | ⟨entry, hfs, hgs⟩
  · constructor
    all_goals
      simp only [writeConfig, bind, Action.andThen, Action.produce, Template.materialize,
        FileSystem.writeText, hfs, hgs, mapError_error]
    exact fun _ h => h
  · constructor
    all_goals
      simp only [writeConfig, bind, Action.andThen, Action.produce, Template.materialize,
        FileSystem.writeText, hfs, hgs, mapError_ok]
    · rfl
    · exact fun q => FileSystem.entryAt_set_congr _ entry

theorem enclosed_writeConfig (template : Template) (overrides : Config) :
    Action.Enclosed (t.road outputDir) (t.Inside outputDir)
      (writeConfig template overrides (TrialPaths.ofTrial outputDir t)) := by
  apply Action.enclosed_of_actsAlike
  · intro fs _ q hq
    rcases writeConfig_cases fs template overrides (TrialPaths.ofTrial outputDir t) with
      hsame | ⟨entry, hset⟩
    · rw [hsame]
    · rw [hset]
      apply FileSystem.entryAt_set_of_ne
      rintro rfl
      exact hq (t.inside_config outputDir)
  · intro fs gs h
    exact actsAlike_writeConfig template overrides _
      (h.stations (t.stations_file_cases outputDir t.isName_config))

theorem enclosed_simulator (hconfined : simulator.Confined) (hlocal : simulator.Local) :
    Action.Enclosed (t.road outputDir) (t.Inside outputDir)
      (simulator.run (TrialPaths.ofTrial outputDir t).config
        (TrialPaths.ofTrial outputDir t).stdoutLog) := by
  have hroad : ∀ fs gs, FileSystem.Alike (t.road outputDir) (t.Inside outputDir) fs gs →
      ∀ q ∈ t.road outputDir, fs.entryAt q = gs.entryAt q :=
    fun fs gs h q hq => (h.left q hq).trans (h.right q hq).symm
  constructor
  · intro fs _ q hq
    exact hconfined outputDir t fs q hq
  · intro fs gs h
    exact (hlocal outputDir t fs gs (hroad fs gs h) h.same).1
  · intro fs gs h
    exact (hlocal outputDir t fs gs (hroad fs gs h) h.same).2

theorem collect_congr {fs gs : FileSystem}
    (h : ∀ q, q ∈ t.road outputDir ∨ t.Inside outputDir q → fs.entryAt q = gs.entryAt q) :
    TrialResult.collect (TrialPaths.ofTrial outputDir t) fs =
      TrialResult.collect (TrialPaths.ofTrial outputDir t) gs := by
  have hload : ∀ name, IsName name →
      fs.loadText ((TrialPaths.ofTrial outputDir t).dir.join name) =
        gs.loadText ((TrialPaths.ofTrial outputDir t).dir.join name) :=
    fun name hname => FileSystem.loadText_congr fun q hq =>
      h q (t.stations_file_cases outputDir hname q hq)
  have haccess : fs.loadText (TrialPaths.ofTrial outputDir t).accessLog =
      gs.loadText (TrialPaths.ofTrial outputDir t).accessLog :=
    hload _ (t.pattern.isName.append (by decide) (by decide))
  have hcounts : fs.loadText (TrialPaths.ofTrial outputDir t).commandCountLog =
      gs.loadText (TrialPaths.ofTrial outputDir t).commandCountLog :=
    hload _ (t.pattern.isName.append (by decide) (by decide))
  have hstdout : fs.loadText (TrialPaths.ofTrial outputDir t).stdoutLog =
      gs.loadText (TrialPaths.ofTrial outputDir t).stdoutLog :=
    hload _ (by decide)
  unfold TrialResult.collect TrialResult.readProcess AccessLog.readStats CommandCounts.read
    Counters.read
  rw [haccess, hcounts, hstdout]

theorem enclosed_readRow (plan : Plan) :
    Action.Enclosed (t.road outputDir) (t.Inside outputDir)
      (t.readRow plan (TrialPaths.ofTrial outputDir t)) := by
  apply Action.enclosed_of_actsAlike
  · intro fs _ q _
    rfl
  · intro fs gs h
    apply FileSystem.actsAlike_look
    rw [t.collect_congr outputDir fun q => h.entryAt_eq]

variable {σ : Type} {sink : Sink σ} {wide : Place → Prop}

theorem isolated_freshDirectory_of_enclosed {alike moves : World σ → World σ → Prop}
    (hfiles : ∀ {α : Type} (a : Action SweepError FileSystem α),
      a.Enclosed (t.road outputDir) (t.Inside outputDir) →
        Task.Isolated alike moves (World.onFiles a)) :
    Task.Isolated alike moves (freshDirectory (TrialPaths.ofTrial outputDir t).dir) := by
  have hcreate := fun failed => hfiles _ (t.enclosed_createDirectories outputDir failed)
  unfold freshDirectory
  refine Task.Isolated.bind (hfiles _ (t.enclosed_exists outputDir)) ?_
  intro found
  cases found with
  | false => exact hcreate _
  | true =>
    refine Task.Isolated.bind (hfiles _ (t.enclosed_removeDirectory outputDir _)) ?_
    exact fun _ => hcreate _

/-- The stages of a trial make the whole trial. -/
theorem isolated_task_of_stages {alike moves : World σ → World σ → Prop} (template : Template)
    (hfresh : Task.Isolated alike moves
      (freshDirectory (σ := σ) (TrialPaths.ofTrial plan.outputDir t).dir))
    (hwrite : ∀ overrides, Task.Isolated alike moves
      (World.onFiles (writeConfig template overrides (TrialPaths.ofTrial plan.outputDir t))))
    (hrun : Task.Isolated alike moves
      (World.onFiles (simulator.run (TrialPaths.ofTrial plan.outputDir t).config
        (TrialPaths.ofTrial plan.outputDir t).stdoutLog)))
    (hread : Task.Isolated alike moves
      (World.onFiles (t.readRow plan (TrialPaths.ofTrial plan.outputDir t))))
    (happend : ∀ row, row.ReportsOn t plan →
      Task.Isolated alike moves (World.onSink (.change (sink.append row)))) :
    Task.Isolated alike moves (t.task plan template simulator sink) := by
  unfold task
  refine Task.Isolated.bind (hfresh.mapError _) fun _ => ?_
  refine Task.Isolated.bind ((hwrite _).mapError _) fun _ => ?_
  refine Task.Isolated.bind (hrun.mapError _) fun _ => ?_
  refine Action.isolated_bind hread fun w row hrow => ?_
  refine Task.Isolated.bind ((happend row (reportsOn_of_readRow hrow)).mapError _) fun _ => ?_
  exact Task.isolated_pure row

/-- A trial sees no more than what its actions on the road and inside see. -/
theorem isolated_task_of_enclosed {alike moves : World σ → World σ → Prop} (template : Template)
    (hconfined : simulator.Confined) (hlocal : simulator.Local)
    (hfiles : ∀ {α : Type} (a : Action SweepError FileSystem α),
      a.Enclosed (t.road plan.outputDir) (t.Inside plan.outputDir) →
        Task.Isolated alike moves (World.onFiles a))
    (happend : ∀ row, row.ReportsOn t plan →
      Task.Isolated alike moves (World.onSink (.change (sink.append row)))) :
    Task.Isolated alike moves (t.task plan template simulator sink) :=
  t.isolated_task_of_stages template (t.isolated_freshDirectory_of_enclosed _ hfiles)
    (fun _ => hfiles _ (t.enclosed_writeConfig _ template _))
    (hfiles _ (t.enclosed_simulator _ hconfined hlocal)) (hfiles _ (t.enclosed_readRow _ plan))
    happend

theorem isolated_task (template : Template) (hconfined : simulator.Confined)
    (hlocal : simulator.Local) (haccepts : sink.Accepts)
    (hwide : ∀ q, t.Inside plan.outputDir q → wide q)
    (hroad : ∀ q ∈ t.road plan.outputDir, ¬ t.Inside plan.outputDir q) :
    Task.Isolated (World.Alike (t.road plan.outputDir) wide) (World.Moves wide)
      (t.task plan template simulator sink) :=
  t.isolated_task_of_enclosed template hconfined hlocal
    (fun _ henclosed => World.isolated_onFiles henclosed hwide hroad)
    fun row _ => World.isolated_append haccepts row

end Trial
end MappingSweep
