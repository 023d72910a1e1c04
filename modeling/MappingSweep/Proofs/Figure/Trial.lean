import MappingSweep.Figure.Trial
import MappingSweep.Proofs.FileSystem.Reach
import MappingSweep.Proofs.Trial.Files

/-!
# Finishing the trials

Figures are put into the directories of the trials, and logs are taken from there.  Everything else
stays as it is, and so do all directories.  Nothing but a directory in the place of such a file can
stop it.
-/

namespace MappingSweep

namespace Figure

/-- A step that deletes the file, or writes a figure there. -/
inductive Handles (file : Path) : Step → Prop
  | discarding : Handles file (discarding file)
  | drawing {draw : FileSystem → Except RunError FileSystem}
      (h : ∀ fs fs', draw fs = .ok fs' → ∃ content, fs.writeBytes file content = .ok fs') :
      Handles file (drawing draw)

variable {outputDir : Path} {fs fs' : FileSystem} {file : Path} {step : Step}

theorem handles_drawLatencies (log : Path) (note : String) :
    Handles file (drawing (drawLatencies log file note)) := by
  refine .drawing fun fs fs' h => ?_
  simp only [drawLatencies, bind, Except.bind] at h
  split at h
  · cases h
  · exact ⟨_, mapError_eq_ok h⟩

theorem handles_drawIntervals (trace : Path) (note : String) :
    Handles file (drawing (drawIntervals trace file note)) := by
  refine .drawing fun fs fs' h => ?_
  simp only [drawIntervals, bind, Except.bind] at h
  split at h
  · cases h
  · exact ⟨_, mapError_eq_ok h⟩

/-- The files that are written or taken away when the trials are finished. -/
def handledNames (p : Pattern) : List String :=
  [p.name ++ "_latency_breakdown.png", p.name ++ "_cmd_interval.png",
    TrialFile.name p .accessLog, TrialFile.name p (.commandTrace 0)]

theorem isName_of_handled {p : Pattern} {name : String} (h : name ∈ handledNames p) :
    IsName name := by
  simp only [handledNames, List.mem_cons, List.not_mem_nil, or_false] at h
  rcases h with rfl | rfl | rfl | rfl
  · exact p.isName.append (by decide) (by decide)
  · exact p.isName.append (by decide) (by decide)
  · exact TrialFile.isName_name p .accessLog
  · exact TrialFile.isName_name p (.commandTrace 0)

/-- Every step of a trial handles a file in the directory of the trial. -/
theorem exists_handles (plan : Plan) (t : Trial) (h : step ∈ trialSteps plan t) :
    ∃ name, name ∈ handledNames t.pattern ∧
      Handles ((TrialPaths.ofTrial plan.outputDir t).dir.join name) step := by
  rcases List.mem_append.mp h with h | h
  · split at h
    · simp only [drawingSteps, List.mem_cons, List.not_mem_nil, or_false] at h
      rcases h with rfl | rfl | rfl | rfl
      · exact ⟨_, by simp [handledNames], .discarding⟩
      · exact ⟨_, by simp [handledNames], handles_drawLatencies _ _⟩
      · exact ⟨_, by simp [handledNames], .discarding⟩
      · exact ⟨_, by simp [handledNames], handles_drawIntervals _ _⟩
    · cases h
  · split at h
    · simp only [cleaningSteps, List.mem_cons, List.not_mem_nil, or_false] at h
      rcases h with rfl | rfl
      · exact ⟨TrialFile.name t.pattern .accessLog, by simp [handledNames], .discarding⟩
      · refine ⟨TrialFile.name t.pattern (.commandTrace 0), by simp [handledNames], ?_⟩
        rw [← TrialFile.path_eq_join]
        exact .discarding
    · cases h

theorem place_handled (outputDir : Path) (t : Trial) {name : String}
    (h : name ∈ handledNames t.pattern) :
    ((TrialPaths.ofTrial outputDir t).dir.join name).place = t.place outputDir ++ [name] := by
  rw [Path.place_join (isName_of_handled h), t.place_dir]

/-- The places of the files that are written or taken away when the trials are finished. -/
def Handled (plan : Plan) (q : Place) : Prop :=
  ∃ t ∈ plan.trials, ∃ name ∈ handledNames t.pattern, q = t.place plan.outputDir ++ [name]

/-- The places in the directories of trials. -/
def InSomeTrial (outputDir : Path) (q : Place) : Prop :=
  ∃ t : Trial, t.Inside outputDir q

theorem inSomeTrial_of_handled {plan : Plan} {q : Place} (h : Handled plan q) :
    InSomeTrial plan.outputDir q := by
  obtain ⟨t, -, name, -, rfl⟩ := h
  exact ⟨t, List.prefix_append _ _⟩

theorem Handles.preserves (h : Handles file step) (p : Progress) :
    FileSystem.Preserves (· = file.place) p.files (step p).2.files := by
  cases h with
  | discarding =>
    simp only [Figure.discarding, Action.change, discard]
    cases hexists : p.files.pathExists file with
    | false => exact .refl _ _
    | true =>
      cases hremove : p.files.removeFile file with
      | error e => exact .refl _ _
      | ok fs => exact FileSystem.preserves_removeFile hremove
  | @drawing draw hdraws =>
    unfold Figure.drawing
    cases hdraw : draw p.files with
    | error e => exact .refl _ _
    | ok fs =>
      obtain ⟨content, hwrite⟩ := hdraws _ _ hdraw
      exact FileSystem.preserves_writeBytes hwrite

theorem preserves_trialSteps {plan : Plan} {t : Trial} (ht : t ∈ plan.trials)
    (h : step ∈ trialSteps plan t) (p : Progress) :
    FileSystem.Preserves (Handled plan) p.files (step p).2.files := by
  obtain ⟨name, hname, hhandles⟩ := exists_handles plan t h
  apply (hhandles.preserves p).mono
  rintro q rfl
  exact ⟨t, ht, name, hname, place_handled plan.outputDir t hname⟩

theorem preserves_all {inside : Place → Prop} {steps : List Step}
    (h : ∀ step ∈ steps, ∀ p, FileSystem.Preserves inside p.files (step p).2.files)
    (p : Progress) : FileSystem.Preserves inside p.files (Action.all steps p).2.files := by
  induction steps generalizing p with
  | nil => exact .refl _ _
  | cons step steps ih =>
    have hstep := h step List.mem_cons_self p
    have hrest := ih fun other hother => h other (List.mem_cons_of_mem step hother)
    simp only [Action.all, Action.bind_apply]
    generalize step p = r at *
    obtain ⟨result, mid⟩ := r
    cases result with
    | error e => exact hstep
    | ok _ => exact hstep.trans (hrest mid)

/-- Only figures and the two large logs are touched. -/
theorem preserves_handled (plan : Plan) (fs : FileSystem) :
    FileSystem.Preserves (Handled plan) fs (finishTrials plan fs).2 := by
  apply preserves_all (p := ⟨fs, 0⟩)
  intro step hstep
  obtain ⟨t, ht, hmem⟩ := List.mem_flatMap.mp hstep
  exact preserves_trialSteps ht hmem

theorem preserves_finishTrials (plan : Plan) (fs : FileSystem) :
    FileSystem.Preserves (InSomeTrial plan.outputDir) fs (finishTrials plan fs).2 :=
  (preserves_handled plan fs).mono fun _ => inSomeTrial_of_handled

/-- No file of a trial is called like a figure. -/
theorem name_ne_figure (p : Pattern) (f : TrialFile) {ending : String}
    (h : ending ∈ ["_latency_breakdown.png", "_cmd_interval.png"]) :
    f.name p ≠ p.name ++ ending := by
  intro heq
  -- the endings differ in their first letters, and the simulator's output ends in other ones
  have hstart := congrArg (fun s => (s.toList.drop p.name.toList.length).take 6) heq
  have hend := congrArg (fun s => s.toList.reverse.take 3) heq
  simp only [List.mem_cons, List.not_mem_nil, or_false] at h
  cases f with
  | stdoutLog => rcases h with rfl | rfl <;> simp [TrialFile.name, TrialFile.ending?] at hend
  | config | accessLog | commandCountLog | commandTrace channel =>
    rcases h with rfl | rfl <;> simp [TrialFile.name, TrialFile.ending?] at hstart

/-- The other files of trials are kept. -/
theorem not_handled {plan : Plan} {t : Trial} {f : TrialFile} (haccess : f ≠ .accessLog)
    (htrace : f ≠ .commandTrace 0) :
    ¬ Handled plan (f.path (TrialPaths.ofTrial plan.outputDir t)).place := by
  rintro ⟨u, -, name, hname, heq⟩
  rw [Trial.place_file] at heq
  obtain ⟨hplace, hlast⟩ := List.append_inj' heq rfl
  obtain rfl := List.singleton_inj.mp hlast
  have hpattern : t.pattern.name = u.pattern.name :=
    List.singleton_inj.mp (List.append_inj' hplace rfl).2
  have hfile : ∀ g, f.name t.pattern = TrialFile.name u.pattern g → f = g := by
    intro g hg
    apply TrialFile.name_injective t.pattern
    rw [hg, TrialFile.name, TrialFile.name, hpattern]
  have hfigure := @name_ne_figure t.pattern f
  rw [hpattern] at hfigure
  simp only [handledNames, List.mem_cons, List.not_mem_nil, or_false] at hname
  rcases hname with h | h | h | h
  · exact hfigure (by simp) h
  · exact hfigure (by simp) h
  · exact haccess (hfile _ h)
  · exact htrace (hfile _ h)

/-- The places in the directories of the plan's trials, without the directories themselves. -/
def InsideTrial (plan : Plan) (q : Place) : Prop :=
  ∃ t ∈ plan.trials, t.Inside plan.outputDir q ∧ q ≠ t.place plan.outputDir

/-- None of the places is a directory. -/
def Plain (places : Place → Prop) (fs : FileSystem) : Prop :=
  ∀ q, places q → fs.entryAt q ≠ some .directory

theorem Handles.exists_ok {places : Place → Prop} (h : Handles file step)
    (hfile : places file.place) {p : Progress} (hp : Plain places p.files) :
    ∃ p', step p = (.ok (), p') ∧ Plain places p'.files := by
  cases h with
  | discarding =>
    simp only [Figure.discarding, Action.change, discard]
    cases hexists : p.files.pathExists file with
    | false => exact ⟨p, rfl, hp⟩
    | true =>
      obtain ⟨fs, hremove⟩ := FileSystem.exists_removeFile hexists (hp _ hfile)
      rw [hremove]
      exact ⟨_, rfl, fun q hq => FileSystem.ne_directory_of_removeFile hremove (hp q hq)⟩
  | @drawing draw hdraws =>
    unfold Figure.drawing
    cases hdraw : draw p.files with
    | error e => exact ⟨_, rfl, hp⟩
    | ok fs =>
      obtain ⟨content, hwrite⟩ := hdraws _ _ hdraw
      exact ⟨_, rfl, fun q hq => FileSystem.ne_directory_of_writeBytes hwrite (hp q hq)⟩

theorem exists_all {places : Place → Prop} {steps : List Step}
    (h : ∀ step ∈ steps, ∃ file, Handles file step ∧ places file.place) {p : Progress}
    (hp : Plain places p.files) : ∃ p', Action.all steps p = (.ok (), p') := by
  induction steps generalizing p with
  | nil => exact ⟨p, rfl⟩
  | cons step steps ih =>
    obtain ⟨file, hhandles, hfile⟩ := h step List.mem_cons_self
    obtain ⟨p', hstep, hp'⟩ := hhandles.exists_ok hfile hp
    obtain ⟨last, hlast⟩ := ih (fun other hother => h other (List.mem_cons_of_mem _ hother)) hp'
    refine ⟨last, ?_⟩
    rw [Action.all, Action.bind_apply, hstep]
    exact hlast

/-- Trials are finished unless a directory is in the place of a file, whether or not their figures
can be drawn. -/
theorem exists_finishTrials_of_plain {plan : Plan} (h : Plain (Handled plan) fs) :
    ∃ failed fs', finishTrials plan fs = (.ok failed, fs') := by
  have hsteps : ∀ step ∈ plan.trials.flatMap (trialSteps plan),
      ∃ file, Handles file step ∧ Handled plan file.place := by
    intro step hstep
    obtain ⟨t, ht, hmem⟩ := List.mem_flatMap.mp hstep
    obtain ⟨name, hname, hhandles⟩ := exists_handles plan t hmem
    exact ⟨_, hhandles, t, ht, name, hname, place_handled plan.outputDir t hname⟩
  obtain ⟨p, hp⟩ := exists_all (p := ⟨fs, 0⟩) hsteps h
  exact ⟨p.failed, p.files, by rw [finishTrials, hp]; rfl⟩

theorem insideTrial_of_handled {plan : Plan} {q : Place} (h : Handled plan q) :
    InsideTrial plan q := by
  obtain ⟨t, ht, name, -, rfl⟩ := h
  refine ⟨t, ht, List.prefix_append _ _, fun hsame => ?_⟩
  have hlength := congrArg List.length hsame
  rw [List.length_append, List.length_singleton] at hlength
  omega

/-- Trials with no directories in theirs are finished. -/
theorem exists_finishTrials {plan : Plan} (h : Plain (InsideTrial plan) fs) :
    ∃ failed fs', finishTrials plan fs = (.ok failed, fs') :=
  exists_finishTrials_of_plain fun q hq => h q (insideTrial_of_handled hq)

end Figure
end MappingSweep
