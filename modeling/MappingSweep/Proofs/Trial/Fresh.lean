import MappingSweep.Proofs.Trial.Isolation
import MappingSweep.Proofs.Trial.Stages

/-!
# Trials over what was left behind

A trial empties its directory before anything else.  So it ends the same whatever was left there,
and nothing of that is there in the end.  This needs that a directory that is there is one to which
its path leads, since what a path does not lead to is not emptied.
-/

namespace MappingSweep
namespace World

variable {σ α : Type}

/-- The same entries in all places, and the same sink. -/
structure Same (w v : World σ) : Prop where
  entries : ∀ q, w.files.entryAt q = v.files.entryAt q
  sink : w.sink = v.sink

theorem Same.of_eq {w v : World σ} (h : w = v) : Same w v :=
  h ▸ ⟨fun _ => rfl, rfl⟩

theorem Same.symm {w v : World σ} (h : Same w v) : Same v w :=
  ⟨fun q => (h.entries q).symm, h.sink.symm⟩

theorem Same.trans {w v u : World σ} (h : Same w v) (h' : Same v u) : Same w u :=
  ⟨fun q => (h.entries q).trans (h'.entries q), h.sink.trans h'.sink⟩

theorem isolated_onFiles_of_same {a : Action SweepError FileSystem α}
    (h : ∀ fs gs, (∀ q, fs.entryAt q = gs.entryAt q) → FileSystem.ActsAlike a fs gs) :
    Task.Isolated Same (fun _ _ => True) (onFiles (σ := σ) a) := by
  apply Action.isolated_task
  · intro w v hsame
    have hacts := h w.files v.files hsame.entries
    exact ⟨fun q => hacts.entries q (hsame.entries q), hsame.sink⟩
  · exact fun _ _ _ => trivial
  · intro w v hsame
    exact (h w.files v.files hsame.entries).result

theorem isolated_append_of_same (sink : Sink σ) (row : Row) :
    Task.Isolated Same (fun _ _ => True) (onSink (.change (sink.append row))) := by
  apply Action.isolated_task
  · intro w v hsame
    simp only [Action.within, hsame.sink]
    exact ⟨hsame.entries, rfl⟩
  · exact fun _ _ _ => trivial
  · intro w v hsame
    simp only [Action.within, hsame.sink]

end World

namespace Trial

variable {σ : Type} {plan : Plan} {simulator : Simulator} (t : Trial) (outputDir : Path)

theorem isolated_freshDirectory_of_same (dir : Path) :
    Task.Isolated World.Same (fun _ _ => True) (freshDirectory (σ := σ) dir) := by
  have hcreate := fun failed => World.isolated_onFiles_of_same (σ := σ) fun fs gs h =>
    FileSystem.ActsAlike.mapError
      (FileSystem.actsAlike_createDirectories (p := dir) fun q _ => h q) failed
  unfold freshDirectory
  refine Task.Isolated.bind (World.isolated_onFiles_of_same fun fs gs h => ?_) ?_
  · apply FileSystem.actsAlike_look
    rw [FileSystem.pathExists, FileSystem.pathExists, FileSystem.find_congr fun q _ => h q]
  · intro found
    cases found with
    | false => exact hcreate _
    | true =>
      refine Task.Isolated.bind (World.isolated_onFiles_of_same fun fs gs h => ?_) ?_
      · exact (FileSystem.actsAlike_removeDirectory fun q _ => h q).mapError _
      · exact fun _ => hcreate _

theorem actsAlike_simulator (hconfined : simulator.Confined) (hlocal : simulator.Local)
    {fs gs : FileSystem} (h : ∀ q, fs.entryAt q = gs.entryAt q) :
    FileSystem.ActsAlike (simulator.run (TrialPaths.ofTrial outputDir t).config
      (TrialPaths.ofTrial outputDir t).stdoutLog) fs gs := by
  have hruns := hlocal outputDir t fs gs (fun q _ => h q) fun q _ => h q
  refine ⟨hruns.1, fun q _ => ?_⟩
  by_cases hq : t.Inside outputDir q
  · exact hruns.2 q hq
  · rw [hconfined outputDir t fs q hq, hconfined outputDir t gs q hq, h q]

theorem isolated_task_of_same (template : Template) (hconfined : simulator.Confined)
    (hlocal : simulator.Local) (sink : Sink σ) :
    Task.Isolated World.Same (fun _ _ => True) (t.task plan template simulator sink) := by
  apply t.isolated_task_of_stages template (isolated_freshDirectory_of_same _)
  · intro overrides
    exact World.isolated_onFiles_of_same fun fs gs h =>
      actsAlike_writeConfig template overrides _ fun q _ => h q
  · exact World.isolated_onFiles_of_same fun fs gs h =>
      t.actsAlike_simulator _ hconfined hlocal h
  · refine World.isolated_onFiles_of_same fun fs gs h => FileSystem.actsAlike_look ?_
    rw [t.collect_congr plan.outputDir fun q _ => h q]
  · exact fun row _ => World.isolated_append_of_same sink row

/-- The directory of the trial is not there, or its path leads to it. -/
def Replaceable (fs : FileSystem) : Prop :=
  (∀ q, t.Inside outputDir q → fs.entryAt q = none) ∨
    fs.pathIsDirectory (TrialPaths.ofTrial outputDir t).dir = true

/-- The world with nothing in the place of the trial's directory. -/
def emptied (w : World σ) : World σ :=
  { w with files := w.files.removeTree (t.place outputDir) }

variable {t outputDir} {w : World σ}

theorem isRoot_of_inside {q : Place} (h : t.Inside outputDir q) :
    FileSystem.isRoot q = false := by
  have hname : t.pattern.name ∈ q := h.subset (List.mem_append_right _ (List.mem_singleton_self _))
  have hlong : 2 ≤ q.length := by
    have hlength := h.length_le
    rw [length_place] at hlength
    omega
  rw [FileSystem.isRoot, Bool.or_eq_false_iff]
  constructor
  · rw [beq_eq_false_iff_ne]
    rintro rfl
    exact absurd hlong (by decide)
  · rw [← Bool.not_eq_true, List.all_eq_true]
    intro hdots
    exact t.pattern.isName.2.2.1 (by simpa using hdots _ hname)

theorem entryAt_emptied_of_inside {q : Place} (h : t.Inside outputDir q) :
    (t.emptied outputDir w).files.entryAt q = none :=
  FileSystem.entryAt_removeTree_of_below h (isRoot_of_inside h)

theorem entryAt_emptied_of_outside {q : Place} (h : ¬ t.Inside outputDir q) :
    (t.emptied outputDir w).files.entryAt q = w.files.entryAt q :=
  FileSystem.entryAt_removeTree_of_outside h

theorem same_emptied_of_missing (h : ∀ q, t.Inside outputDir q → w.files.entryAt q = none) :
    World.Same w (t.emptied outputDir w) := by
  refine ⟨fun q => ?_, rfl⟩
  by_cases hq : t.Inside outputDir q
  · rw [h q hq, entryAt_emptied_of_inside hq]
  · rw [entryAt_emptied_of_outside hq]

theorem pathExists_emptied :
    (t.emptied outputDir w).files.pathExists (TrialPaths.ofTrial outputDir t).dir = false := by
  have hnone : (t.emptied outputDir w).files.entryAt
      (TrialPaths.ofTrial outputDir t).dir.place = none := by
    rw [place_dir]
    exact entryAt_emptied_of_inside (List.prefix_refl _)
  unfold FileSystem.pathExists
  cases hfind : (t.emptied outputDir w).files.find (TrialPaths.ofTrial outputDir t).dir with
  | error e => rfl
  | ok found =>
    obtain ⟨place, entry⟩ := found
    rw [(FileSystem.find_eq_ok hfind).2] at hnone
    cases hnone

theorem alone_look (f : FileSystem → Bool) (w : World σ) :
    (World.onFiles (.look fun fs => .ok (f fs))).alone w = (.ok (f w.files), w) :=
  rfl

theorem alone_removeDirectory (failed : OsError → SweepError)
    (h : w.files.pathIsDirectory (TrialPaths.ofTrial outputDir t).dir = true) :
    (World.onFiles (Action.mapError (.change fun fs =>
      fs.removeDirectory (TrialPaths.ofTrial outputDir t).dir) failed)).alone w =
        (.ok (), t.emptied outputDir w) := by
  have hremove : w.files.removeDirectory (TrialPaths.ofTrial outputDir t).dir =
      .ok (w.files.removeTree (t.place outputDir)) := by
    unfold FileSystem.pathIsDirectory at h
    split at h
    · rename_i place hfind
      rw [← place_dir, ← (FileSystem.find_eq_ok hfind).1]
      simp only [FileSystem.removeDirectory, hfind, bind, Except.bind]
      rfl
    · cases h
  rw [World.alone_onFiles]
  simp only [Action.mapError, Action.change, hremove]
  rfl

theorem pathExists_of_directory {fs : FileSystem} {p : Path} (h : fs.pathIsDirectory p = true) :
    fs.pathExists p = true := by
  unfold FileSystem.pathIsDirectory at h
  unfold FileSystem.pathExists
  split at h
  · rename_i hfind
    rw [hfind]
    rfl
  · cases h

theorem alone_freshDirectory_of_missing {dir : Path} (h : w.files.pathExists dir = false) :
    (freshDirectory dir).alone w = (World.onFiles (Action.mapError
      (fun fs => fs.createDirectories dir) fun e => .io dir (.os e))).alone w := by
  have hlook := alone_look (σ := σ) (·.pathExists dir) w
  rw [h] at hlook
  exact Task.alone_bind_of_ok hlook

/-- A directory to which the path leads is removed, and then made as if it had not been there. -/
theorem freshDirectory_emptied
    (h : w.files.pathIsDirectory (TrialPaths.ofTrial outputDir t).dir = true) :
    let fresh := freshDirectory (σ := σ) (TrialPaths.ofTrial outputDir t).dir
    fresh.alone w = fresh.alone (t.emptied outputDir w) ∧
      t.emptied outputDir w ∈ fresh.states w := by
  have hthere := alone_look (σ := σ) (·.pathExists (TrialPaths.ofTrial outputDir t).dir) w
  rw [pathExists_of_directory h] at hthere
  have hremove := alone_removeDirectory
    (fun e => SweepError.io (TrialPaths.ofTrial outputDir t).dir (.os e)) h
  constructor
  · rw [alone_freshDirectory_of_missing pathExists_emptied]
    exact (Task.alone_bind_of_ok hthere).trans (Task.alone_bind_of_ok hremove)
  · refine Task.mem_states_of_next hthere (Task.mem_states_of_first ?_)
    rw [World.states_onFiles, hremove]
    exact List.mem_singleton_self _

/-! ## Whole trials -/

/-- A trial starts as if the directory to which its path leads had not been there. -/
theorem run_emptied (template : Template) (simulator : Simulator) (sink : Sink σ)
    (h : w.files.pathIsDirectory (TrialPaths.ofTrial plan.outputDir t).dir = true) :
    t.run plan template simulator sink w =
        t.run plan template simulator sink (t.emptied plan.outputDir w) ∧
      t.emptied plan.outputDir w ∈ (t.task plan template simulator sink).states w := by
  obtain ⟨hfresh, hvisited⟩ := freshDirectory_emptied h
  constructor
  · apply Task.alone_bind_congr
    simp only [stage, Task.alone_mapError, hfresh]
  · apply Task.mem_states_of_first
    rw [stage, Task.states_mapError]
    exact hvisited

theorem run_of_same (template : Template) (hconfined : simulator.Confined)
    (hlocal : simulator.Local) (sink : Sink σ) {v : World σ} (h : World.Same w v) :
    (t.run plan template simulator sink w).1 = (t.run plan template simulator sink v).1 ∧
      World.Same (t.run plan template simulator sink w).2
        (t.run plan template simulator sink v).2 := by
  unfold run
  exact (t.isolated_task_of_same template hconfined hlocal sink).alone h

/-- What was left behind makes no difference, and at one moment of the trial it is gone. -/
theorem run_same_emptied (template : Template) (hconfined : simulator.Confined)
    (hlocal : simulator.Local) (sink : Sink σ) (h : t.Replaceable plan.outputDir w.files) :
    (t.run plan template simulator sink w).1 =
        (t.run plan template simulator sink (t.emptied plan.outputDir w)).1 ∧
      World.Same (t.run plan template simulator sink w).2
        (t.run plan template simulator sink (t.emptied plan.outputDir w)).2 ∧
      ∃ mid ∈ w :: (t.task plan template simulator sink).states w,
        ∀ q, t.Inside plan.outputDir q → mid.files.entryAt q = none := by
  rcases h with hmissing | hdirectory
  · obtain ⟨hresult, hsame⟩ :=
      run_of_same template hconfined hlocal sink (same_emptied_of_missing hmissing)
    exact ⟨hresult, hsame, w, List.mem_cons_self, hmissing⟩
  · obtain ⟨heq, hvisited⟩ := run_emptied template simulator sink hdirectory
    refine ⟨congrArg Prod.fst heq, .of_eq (congrArg Prod.snd heq), _,
      List.mem_cons_of_mem w hvisited, ?_⟩
    exact fun q hq => entryAt_emptied_of_inside hq

/-- From two worlds that differ in the directory of the trial alone, the trial ends with the same
result, the same files and the same sink.  At one moment of it the directory is gone, so all files
that are there in the end were written by this trial. -/
theorem same_over_leftovers (plan : Plan) (template : Template) (sink : Sink σ) (t : Trial)
    {w v : World σ} (hconfined : simulator.Confined) (hlocal : simulator.Local)
    (hsink : w.sink = v.sink)
    (hfiles : ∀ q, ¬ t.Inside plan.outputDir q → w.files.entryAt q = v.files.entryAt q)
    (hw : t.Replaceable plan.outputDir w.files) (hv : t.Replaceable plan.outputDir v.files) :
    let last := (t.run plan template simulator sink w).2
    (t.run plan template simulator sink v).1 = (t.run plan template simulator sink w).1 ∧
      (t.run plan template simulator sink v).2.sink = last.sink ∧
      (∀ q, (t.run plan template simulator sink v).2.files.entryAt q = last.files.entryAt q) ∧
      ∃ mid ∈ w :: (t.task plan template simulator sink).states w,
        ∀ q, t.Inside plan.outputDir q → mid.files.entryAt q = none := by
  have hemptied : World.Same (t.emptied plan.outputDir w) (t.emptied plan.outputDir v) := by
    refine ⟨fun q => ?_, hsink⟩
    by_cases hq : t.Inside plan.outputDir q
    · rw [entryAt_emptied_of_inside hq, entryAt_emptied_of_inside hq]
    · rw [entryAt_emptied_of_outside hq, entryAt_emptied_of_outside hq, hfiles q hq]
  obtain ⟨hresult, hsame⟩ := run_of_same template hconfined hlocal sink hemptied
  obtain ⟨hresultw, hsamew, hgone⟩ := run_same_emptied template hconfined hlocal sink hw
  obtain ⟨hresultv, hsamev, -⟩ := run_same_emptied template hconfined hlocal sink hv
  have hlast := (hsamew.trans (hsame.trans hsamev.symm)).symm
  exact ⟨(hresultw.trans (hresult.trans hresultv.symm)).symm, hlast.sink, hlast.entries, hgone⟩

open Run (samplePlan goodPattern sampleCounters)

/-- A simulator that writes nothing. -/
def silentSimulator : Simulator where
  run _ _ := pure ()

theorem confined_silentSimulator : silentSimulator.Confined :=
  fun _ _ _ _ _ => rfl

theorem local_silentSimulator : silentSimulator.Local :=
  fun _ _ _ _ _ hinside => ⟨rfl, hinside⟩

/-- What an earlier trial left behind. -/
def artifacts : World (List Row) where
  files := ⟨[
    (["log"], .directory),
    (["log", "m"], .directory),
    (["log", "m", "good"], .directory),
    (["log", "m", "good", "good.csv"], .file "process\n1\n".toUTF8 false),
    (["log", "m", "good", "good_cmd_cnt.log"], .file "RD: 1\n".toUTF8 false),
    (["log", "m", "good", "stdout.log"], .file sampleCounters.toUTF8 false)]⟩
  sink := []

def runOver (outputDir : Path) (w : World (List Row)) :
    Except SweepError Row × World (List Row) :=
  goodTrial.run { samplePlan [goodPattern] with outputDir } (.ofConfig (.mapOf []))
    silentSimulator Run.listSink w

set_option maxRecDepth 100000 in
theorem same_over_leftovers_artifacts :
    silentSimulator.Confined ∧ silentSimulator.Local ∧
      goodTrial.Replaceable ⟨"log"⟩ artifacts.files ∧
      goodTrial.Replaceable ⟨"log"⟩ (goodTrial.emptied ⟨"log"⟩ artifacts).files ∧
      (runOver ⟨"log"⟩ artifacts).1.isOk = false ∧
      (runOver ⟨"log"⟩ (goodTrial.emptied ⟨"log"⟩ artifacts)).1 =
        (runOver ⟨"log"⟩ artifacts).1 := by
  have hthere : goodTrial.Replaceable ⟨"log"⟩ artifacts.files := .inr (by decide)
  have hgone : goodTrial.Replaceable ⟨"log"⟩ (goodTrial.emptied ⟨"log"⟩ artifacts).files :=
    .inl fun _ => entryAt_emptied_of_inside
  have hsame := same_over_leftovers (samplePlan [goodPattern]) (.ofConfig (.mapOf [])) Run.listSink
    goodTrial (w := artifacts) (v := goodTrial.emptied ⟨"log"⟩ artifacts)
    confined_silentSimulator local_silentSimulator rfl
    (fun _ hq => (entryAt_emptied_of_outside hq).symm) hthere hgone
  exact ⟨confined_silentSimulator, local_silentSimulator, hthere, hgone, by decide +kernel,
    hsame.1⟩

/-- A path to the directory of the trial that leads through another one. -/
def detour : Path :=
  ⟨"x/../log"⟩

set_option maxRecDepth 100000 in
/-- A path through a directory that is missing is said to lead nowhere, so nothing is removed.
Then the missing directory is made, the path leads to the old directory, and the artifacts in it
are taken for those of the trial. -/
theorem leftovers_taken_for_artifacts :
    silentSimulator.Confined ∧ silentSimulator.Local ∧
      (∀ (w : World (List Row)) (q : Place),
        (goodTrial.Inside detour q → (goodTrial.emptied detour w).files.entryAt q = none) ∧
        (¬ goodTrial.Inside detour q →
          (goodTrial.emptied detour w).files.entryAt q = w.files.entryAt q)) ∧
      (runOver detour artifacts).1.isOk = true ∧
      (runOver detour (goodTrial.emptied detour artifacts)).1.isOk = false := by
  refine ⟨confined_silentSimulator, local_silentSimulator, fun w q => ⟨?_, ?_⟩, ?_, ?_⟩
  · exact entryAt_emptied_of_inside
  · exact entryAt_emptied_of_outside
  · decide +kernel
  · decide +kernel

end Trial
end MappingSweep
