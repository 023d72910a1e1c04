import MappingSweep.Proofs.FileSystem.Walk
import MappingSweep.Proofs.Run.Completed
import MappingSweep.Proofs.Sweep.Kept
import MappingSweep.Proofs.Sweep.Standing

/-!
# What a run leaves alone

A run writes below its output directory and nowhere else, apart from missing directories on the way
there.  It refuses an output directory that is there already.  The refusal asks whether the path
leads to something, and a path can lead nowhere although the directory is there: the empty path, and
one that goes up from a missing directory.  The directories on the way are made all the same, so
that such a run works in a directory with files of others in it.
-/

namespace MappingSweep

/-- Whatever the action answers, it changes files in the given places only, and makes
directories. -/
def Action.Grows {ε α : Type} (inside : Place → Prop) (a : Action ε FileSystem α) : Prop :=
  ∀ fs, FileSystem.Grows inside fs (a fs).2

namespace Action

variable {ε ε' α β : Type} {inside : Place → Prop}

theorem Grows.mono {wider : Place → Prop} {a : Action ε FileSystem α} (h : a.Grows inside)
    (hwider : ∀ q, inside q → wider q) : a.Grows wider :=
  fun fs => (h fs).mono hwider

theorem grows_pure (x : α) : (pure x : Action ε FileSystem α).Grows inside :=
  fun fs => .refl _ fs

theorem Grows.bind_of_ok {a : Action ε FileSystem α} {f : α → Action ε FileSystem β}
    (h : a.Grows inside)
    (hf : ∀ fs x mid, a fs = (.ok x, mid) → FileSystem.Grows inside mid (f x mid).2) :
    (a >>= f).Grows inside := by
  intro fs
  have hfirst := h fs
  have hnext := hf fs
  rw [bind_apply]
  generalize a fs = r at *
  obtain ⟨result, mid⟩ := r
  cases result with
  | error e => exact hfirst
  | ok x => exact hfirst.trans (hnext x mid rfl)

theorem Grows.bind {a : Action ε FileSystem α} {f : α → Action ε FileSystem β}
    (h : a.Grows inside) (hf : ∀ x, (f x).Grows inside) : (a >>= f).Grows inside :=
  h.bind_of_ok fun _ x mid _ => hf x mid

theorem grows_look (f : FileSystem → Except ε α) : (look f).Grows inside :=
  fun fs => .refl _ fs

theorem grows_change {f : FileSystem → Except ε FileSystem}
    (h : ∀ fs fs', f fs = .ok fs' → FileSystem.Grows inside fs fs') : (change f).Grows inside := by
  intro fs
  unfold change
  cases hf : f fs with
  | ok fs' => exact h fs fs' hf
  | error e => exact .refl _ fs

theorem grows_produce {f : FileSystem → Except ε (α × FileSystem)}
    (h : ∀ fs x fs', f fs = .ok (x, fs') → FileSystem.Grows inside fs fs') :
    (produce f).Grows inside := by
  intro fs
  unfold produce
  cases hf : f fs with
  | ok made => exact h fs made.1 made.2 hf
  | error e => exact .refl _ fs

end Action

namespace FileSystem

theorem grows_writeBytes {fs fs' : FileSystem} {p : Path} {content : ByteArray}
    (h : fs.writeBytes p content = .ok fs') : Grows (· = p.place) fs fs' :=
  grows_of_same (preserves_writeBytes h).same

end FileSystem

/-- The places that workers and writer change. -/
def Plan.Touches (plan : Plan) (q : Place) : Prop :=
  q = plan.rowSinkPath.place ∨ Figure.InSomeTrial plan.outputDir q

namespace Sweep

variable {plan : Plan} {simulator : Simulator} {start : FileSystem} {w : World Funnel}

/-- Since the start only places of the sweep have changed, and the row log is still where it was
created. -/
structure Growing (plan : Plan) (start : FileSystem) (w : World Funnel) : Prop where
  place : w.sink.log.place = plan.rowSinkPath.place
  grown : FileSystem.Grows plan.Touches start w.files

theorem Growing.files (h : Growing plan start w) {fs : FileSystem}
    (hgrows : FileSystem.Grows plan.Touches w.files fs) :
    Growing plan start { w with files := fs } :=
  ⟨h.place, h.grown.trans hgrows⟩

theorem kept_growing (hsim : simulator.Confined) (start : FileSystem) :
    Kept plan simulator funnelSink (Growing plan start) := by
  constructor
  · intro w p h
    exact h.files ((FileSystem.grows_createDirectories w.files p).mono fun _ => False.elim)
  · intro w t fs h hgrows
    exact h.files (hgrows.mono fun q hq => .inr ⟨t, hq⟩)
  · intro w t h
    exact h.files ((t.grows_simulator w.files hsim plan.outputDir).mono fun q hq => .inr ⟨t, hq⟩)
  · intro w row f h hsend
    obtain ⟨-, rfl⟩ := Funnel.send_eq_ok hsend
    exact ⟨h.place, h.grown⟩

theorem Growing.writerStep (h : Growing plan start w) : Growing plan start (writerStep w) := by
  constructor
  · exact (congrArg RowLog.place (w.sink.log_take w.files)).trans h.place
  · apply h.grown.trans
    exact (w.sink.grows_take w.files).mono fun q hq => .inl (hq.trans h.place)

end Sweep

namespace Run

variable {plan : Plan} {simulator : Simulator} {turns : List Turn} {elapsed : Float}
  {fs : FileSystem}

theorem ended_growing (plan : Plan) (hsim : simulator.Confined) (template : Template)
    (turns : List Turn) (fs : FileSystem) :
    Ended plan (Sweep.Growing plan fs)
      (drainUnder turns plan template simulator plan.rowLog fs).1
      (drainUnder turns plan template simulator plan.rowLog fs).2 :=
  ended_drainUnder (Sweep.kept_growing hsim fs) template (fun _ h => h.writerStep) turns
    ⟨rfl, .refl _ fs⟩

theorem grows_createOutput (dir : Path) : (createOutput dir).Grows fun _ => False :=
  fun fs => FileSystem.grows_createDirectories fs dir

theorem grows_createLog (plan : Plan) :
    ((Action.produce (RowLog.create plan.rowSinkPath plan.commands)).mapError
      RunError.ofSweep).Grows (· = plan.rowSinkPath.place) := by
  apply Action.grows_produce
  intro fs log fs' h
  obtain ⟨-, -, x, rfl⟩ := RowLog.create_eq_ok h
  exact FileSystem.grows_set _ rfl

theorem grows_sweepUnder (hsim : simulator.Confined) (turns : List Turn) :
    (sweepUnder turns plan simulator).Grows plan.Touches := by
  unfold sweepUnder
  apply Action.Grows.bind (Action.grows_look _)
  intro template
  apply Action.Grows.bind ((grows_createOutput plan.outputDir).mono fun _ => False.elim)
  intro _
  apply Action.Grows.bind_of_ok ((grows_createLog plan).mono fun _ hq => .inl hq)
  intro fs log created hcreate
  obtain rfl : log = plan.rowLog :=
    (RowLog.create_eq_ok (Action.produce_eq_ok (Action.mapError_eq_ok hcreate))).1
  obtain ⟨f, hgrowing, -⟩ := (ended_growing plan hsim template turns created).kept
  exact hgrowing.grown

theorem grows_writeSummary (target : Path) (summary : Summary) (elapsed : Float) :
    (writeSummary target summary elapsed).Grows (· = target.place) := by
  apply Action.grows_change
  intro fs fs' h
  exact FileSystem.grows_writeBytes (mapError_eq_ok (mapError_eq_ok h))

theorem grows_settle (plan : Plan) (drained : Drained) (elapsed : Float) :
    (settle plan drained elapsed).Grows (· = plan.summaryPath.place) := by
  unfold settle
  apply Action.Grows.bind (grows_writeSummary _ _ elapsed)
  intro _
  apply Action.Grows.bind (Action.grows_look _)
  intro rows
  split
  · exact Action.grows_look _
  · exact Action.grows_pure _

theorem grows_build (plan : Plan) :
    ((Action.produce (Report.build plan.rowSinkPath plan.reportPath)).mapError
      RunError.ofSweep).Grows (· = plan.reportPath.place) := by
  apply Action.grows_produce
  intro fs made fs' h
  obtain ⟨_, _, _, -, -, hwrite, -⟩ := Report.build_eq_ok h
  exact FileSystem.grows_writeBytes hwrite

theorem grows_finishTrials (plan : Plan) :
    (Figure.finishTrials plan).Grows (Figure.InSomeTrial plan.outputDir) :=
  fun fs => FileSystem.grows_of_same (Figure.preserves_finishTrials plan fs).same

theorem prefix_of_inSomeTrial {q : Place} (h : Figure.InSomeTrial plan.outputDir q) :
    plan.outputDir.place <+: q := by
  obtain ⟨t, ht⟩ := h
  refine List.IsPrefix.trans ?_ ht
  rw [Trial.place, Mapping.place, List.append_assoc]
  exact List.prefix_append _ _

theorem grows_conclude (plan : Plan) (drained : Drained) (elapsed : Float) :
    (conclude plan drained elapsed).Grows (plan.outputDir.place <+: ·) := by
  have hbelow : ∀ name, plan.outputDir.place <+: plan.outputDir.place ++ [name] :=
    fun name => List.prefix_append _ _
  have hsummary : ∀ q, q = plan.summaryPath.place → plan.outputDir.place <+: q := by
    rintro q rfl
    rw [plan.place_summaryPath]
    exact hbelow _
  have hreport : ∀ q, q = plan.reportPath.place → plan.outputDir.place <+: q := by
    rintro q rfl
    rw [plan.place_reportPath]
    exact hbelow _
  unfold conclude
  apply Action.Grows.bind ((grows_settle plan drained elapsed).mono hsummary)
  rintro ⟨summary, rows⟩
  apply Action.Grows.bind ((grows_build plan).mono hreport)
  intro report
  apply Action.Grows.bind ((grows_finishTrials plan).mono fun _ => prefix_of_inSomeTrial)
  exact fun _ => Action.grows_pure _

theorem prefix_of_touches {q : Place} (h : plan.Touches q) : plan.outputDir.place <+: q := by
  rcases h with rfl | h
  · rw [plan.place_rowSinkPath]
    exact List.prefix_append _ _
  · exact prefix_of_inSomeTrial h

/-- A run that does not start changes nothing, so the two halves of a run are all that matters. -/
theorem grows_runUnder_of_halves {inside : Place → Prop}
    (h : FileSystem.Grows inside fs ((sweepUnder turns plan simulator >>= fun drained =>
      conclude plan drained elapsed) fs).2) :
    FileSystem.Grows inside fs (runUnder turns plan simulator elapsed fs).2 := by
  cases hexists : fs.pathExists plan.outputDir with
  | true =>
    rw [runUnder_of_exists turns simulator elapsed hexists]
    exact .refl _ fs
  | false =>
    rw [runUnder_of_missing turns simulator elapsed hexists]
    exact h

theorem grows_runUnder (hsim : simulator.Confined) (turns : List Turn) (elapsed : Float) :
    (runUnder turns plan simulator elapsed).Grows (plan.outputDir.place <+: ·) := by
  intro fs
  apply grows_runUnder_of_halves
  refine Action.Grows.bind ?_ (fun drained => grows_conclude plan drained elapsed) fs
  exact (grows_sweepUnder hsim turns).mono fun _ => prefix_of_touches

/-- Without its directory a run makes some of the directories on the way at most. -/
theorem grows_of_not_created (hfailed : (fs.createDirectories plan.outputDir).1 ≠ .ok ()) :
    FileSystem.Grows (fun _ => False) fs (runUnder turns plan simulator elapsed fs).2 := by
  have hcreate : ∃ e, createOutput plan.outputDir fs =
      (.error e, (fs.createDirectories plan.outputDir).2) := by
    unfold createOutput Action.mapError
    cases hresult : (fs.createDirectories plan.outputDir).1 with
    | ok _ => exact absurd hresult hfailed
    | error e => exact ⟨_, by simp only [hresult]; rfl⟩
  obtain ⟨e, he⟩ := hcreate
  apply grows_runUnder_of_halves
  simp only [sweepUnder, sweepWith, Action.bind_apply, Action.look]
  cases (Template.load fs plan.baseConfig) with
  | error reason => exact .refl _ fs
  | ok template =>
    simp only [mapError_ok, he]
    exact FileSystem.grows_createDirectories fs plan.outputDir

end Run

/-! ## Output directories that are overlooked -/

/-- The output directory is there and will be used, but its path is said to lead nowhere. -/
def Plan.Overlooked (plan : Plan) (fs : FileSystem) : Prop :=
  fs.isDirectory plan.outputDir.place = true ∧ fs.pathExists plan.outputDir = false ∧
    (fs.createDirectories plan.outputDir).1 = .ok ()

instance (plan : Plan) (fs : FileSystem) : Decidable (plan.Overlooked fs) :=
  inferInstanceAs (Decidable (_ ∧ _ ∧ _))

/-- A path that is not empty and never goes up leads to its directory whenever that is there. -/
theorem Plan.not_overlooked_of_plain {plan : Plan} {fs : FileSystem}
    (hnonempty : plan.outputDir.text.isEmpty = false) (hplain : ".." ∉ plan.outputDir.components)
    (hrooted : fs.Rooted) : ¬ plan.Overlooked fs := by
  rintro ⟨hdir, hunseen, husable⟩
  have hthere : fs.entryAt plan.outputDir.place = some .directory := by
    simpa [FileSystem.isDirectory] using hdir
  have hfit := FileSystem.fit_of_createDirectories hnonempty husable
  have hsurvey : fs.survey plan.outputDir.start plan.outputDir.components = .ok () := by
    rw [← (FileSystem.surveyed_of_createDirectories hnonempty husable).result, husable]
  have hopen : fs.Open plan.outputDir.stations := by
    intro q hq
    have hbelow : q <+: plan.outputDir.place :=
      ((Place.passed_of_plain plan.outputDir.start hplain).1 q hq).2
    cases hentry : fs.entryAt q with
    | none =>
      rw [hrooted q _ hbelow hentry] at hthere
      cases hthere
    | some entry =>
      cases entry with
      | directory => rfl
      | file content x =>
        exact absurd ⟨content, x, hentry⟩ (FileSystem.not_isFile_of_survey hsurvey q hq)
  have hlocate : fs.locate plan.outputDir = .ok plan.outputDir.place :=
    FileSystem.locate_iff.mpr ⟨hfit, FileSystem.componentsFit_of_survey hsurvey,
      fun q hq => hopen q (List.dropLast_subset _ hq), fun _ => hthere⟩
  rw [FileSystem.pathExists_of_directory hlocate hthere] at hunseen
  cases hunseen

namespace Run

variable {plan : Plan} {simulator : Simulator} {turns : List Turn} {elapsed : Float}
  {fs : FileSystem}

/-- A new output directory was missing, unless it was overlooked. -/
theorem entryAt_outputDir (hunseen : fs.pathExists plan.outputDir = false)
    (hover : ¬ plan.Overlooked fs) (hmade : (fs.createDirectories plan.outputDir).1 = .ok ()) :
    fs.entryAt plan.outputDir.place = none := by
  have hnotdir : fs.entryAt plan.outputDir.place ≠ some .directory := by
    intro hdir
    exact hover ⟨by simp [FileSystem.isDirectory, hdir], hunseen, hmade⟩
  have hopen := FileSystem.open_of_createDirectories (FileSystem.nonempty_of_ne_directory hnotdir)
    hmade _ plan.outputDir.place_mem_stations
  rcases FileSystem.grows_createDirectories fs plan.outputDir plan.outputDir.place id with
    hsame | ⟨hnone, -⟩
  · exact absurd (hsame.symm.trans hopen) hnotdir
  · exact hnone

/-- Whatever becomes of a run, files to which a path leads past the output directory stay as they
are.  So do files in the output directory, unless that directory was overlooked. -/
theorem nothing_lost (hsim : simulator.Confined) (turns : List Turn) (elapsed : Float)
    (fs : FileSystem) :
    let final := (runUnder turns plan simulator elapsed fs).2
    (∀ p content, (∀ q ∈ p.stations, ¬ plan.outputDir.place <+: q) →
      fs.readBytes p = .ok content → final.readBytes p = .ok content) ∧
    (¬ plan.Overlooked fs → ∀ p content,
      fs.readBytes p = .ok content → final.readBytes p = .ok content) := by
  intro final
  have hgrows : FileSystem.Grows _ fs final := grows_runUnder hsim turns elapsed fs
  refine ⟨fun p content hout hread => hgrows.readBytes hread hout, ?_⟩
  intro hover p content hread
  cases hexists : fs.pathExists plan.outputDir with
  | true =>
    have hsame : final = fs := by
      simp only [final, runUnder_of_exists turns simulator elapsed hexists]
    rw [hsame]
    exact hread
  | false =>
    by_cases hmade : (fs.createDirectories plan.outputDir).1 = .ok ()
    · have hnone := entryAt_outputDir hexists hover hmade
      exact hgrows.readBytes hread (FileSystem.not_prefix_of_readBytes hread hnone)
    · exact (grows_of_not_created hmade).readBytes hread fun _ _ => id

set_option maxRecDepth 100000 in
theorem nothing_lost_sampleRun :
    sampleSimulator.Confined ∧ isCompleted sampleRun.1 = true ∧
      ¬ (samplePlan [goodPattern]).Overlooked ⟨[(["base.yaml"], .file "a: 1\n".toUTF8 false)]⟩ ∧
      sampleRun.2.readBytes ⟨"base.yaml"⟩ = .ok "a: 1\n".toUTF8 := by
  have hover : ¬ (samplePlan [goodPattern]).Overlooked
      ⟨[(["base.yaml"], .file "a: 1\n".toUTF8 false)]⟩ := by decide +kernel
  refine ⟨confined_sampleSimulator, by decide +kernel, hover, ?_⟩
  exact (nothing_lost confined_sampleSimulator _ _ _).2 hover ⟨"base.yaml"⟩ _ rfl

/-- A plan whose results go to another directory. -/
def planInto (dir : Path) : Plan :=
  { samplePlan [goodPattern] with outputDir := dir }

/-- Someone's notes, in a directory that is named like that of a trial. -/
def filesBeside (top : Place) : FileSystem :=
  ⟨[(top ++ ["m", "good", "notes"], .file "kept".toUTF8 false),
    (top ++ ["m", "good"], .directory), (top ++ ["m"], .directory),
    (["log"], .directory), (["base.yaml"], .file "a: 1\n".toUTF8 false)]⟩

set_option maxRecDepth 100000 in
/-- The working directory and a directory behind a missing one are overlooked, and the files in them
are lost. -/
theorem overlooked_files_lost :
    (planInto ⟨""⟩).validate = .ok () ∧ (planInto ⟨"missing/../log"⟩).validate = .ok () ∧
      sampleSimulator.Confined ∧
      (filesBeside []).readBytes ⟨"m/good/notes"⟩ = .ok "kept".toUTF8 ∧
      (run (planInto ⟨""⟩) sampleSimulator 0 (filesBeside [])).2.readBytes ⟨"m/good/notes"⟩ =
        .error .notFound ∧
      (filesBeside ["log"]).readBytes ⟨"log/m/good/notes"⟩ = .ok "kept".toUTF8 ∧
      (run (planInto ⟨"missing/../log"⟩) sampleSimulator 0
        (filesBeside ["log"])).2.readBytes ⟨"log/m/good/notes"⟩ = .error .notFound :=
  ⟨rfl, rfl, confined_sampleSimulator, rfl, by decide +kernel, rfl, by decide +kernel⟩

end Run
end MappingSweep
