import MappingSweep.Proofs.Figure.Trial
import MappingSweep.Proofs.FileSystem.Contents

/-!
# Drawing and cleaning, job by job

When trials are finished there are two kinds of jobs.  One draws a figure of a trial, after the
figure from before was taken away, and the other takes away the log behind a figure.  A job is done
or changes nothing, and the jobs behind it are not begun if it fails.  As long as a job touches
nothing that a later one handles or reads, each of them does what it does on its own.
-/

namespace MappingSweep
namespace Figure

inductive Kind where
  | latencies
  | intervals
deriving DecidableEq

namespace Kind

/-- How the name of a figure goes on behind that of the pattern. -/
def ending : Kind → String
  | latencies => "_latency_breakdown.png"
  | intervals => "_cmd_interval.png"

def source : Kind → TrialFile
  | latencies => .accessLog
  | intervals => .commandTrace 0

theorem ending_injective : Function.Injective ending := by
  intro k l
  cases k <;> cases l <;> decide

theorem source_injective : Function.Injective source := by
  intro k l
  cases k <;> cases l <;> decide

end Kind

/-- What a figure shows: all latencies of a trial, or its intervals between commands. -/
structure Motif where
  trial : Trial
  kind : Kind
deriving DecidableEq

namespace Motif

variable (m : Motif) (outputDir : Path)

def paths : TrialPaths :=
  .ofTrial outputDir m.trial

def log : Path :=
  match m.kind with
  | .latencies => (m.paths outputDir).accessLog
  | .intervals => (m.paths outputDir).commandTrace 0

def figure : Path :=
  match m.kind with
  | .latencies => (m.paths outputDir).latencyFigure m.trial
  | .intervals => (m.paths outputDir).intervalFigure m.trial

def draw : FileSystem → Except RunError FileSystem :=
  match m.kind with
  | .latencies => drawLatencies (m.log outputDir) (m.figure outputDir) (noteOf m.trial)
  | .intervals => drawIntervals (m.log outputDir) (m.figure outputDir) (noteOf m.trial)

/-- The figure of a log with this text, unless it is malformed. -/
def pictureOf (text : String) : Option Figure :=
  match m.kind with
  | .latencies => (AccessLog.columns text).toOption.map (ofColumns (noteOf m.trial))
  | .intervals => (CommandTrace.parse text).toOption.map (ofEvents (noteOf m.trial))

/-- There is none when the log is missing, unreadable or malformed. -/
def picture? (fs : FileSystem) : Option Figure :=
  (fs.readText (m.log outputDir)).toOption.bind m.pictureOf

/-- There is something to draw, and the way to the figure is open. -/
def Drawable (fs : FileSystem) : Prop :=
  (m.picture? outputDir fs).isSome = true ∧
    fs.locate (m.figure outputDir) = .ok (m.figure outputDir).place

instance decidableDrawable (fs : FileSystem) : Decidable (m.Drawable outputDir fs) :=
  inferInstanceAs (Decidable (_ ∧ _))

/-- The file of the figure holds what the log had before. -/
def Drawn (before after : FileSystem) : Prop :=
  ∃ picture, m.picture? outputDir before = some picture ∧
    after.readBytes (m.figure outputDir) = .ok picture.text.toUTF8

/-- The figure was drawn or could not be drawn, and none from before is left. -/
def Settled (before after : FileSystem) : Prop :=
  if m.Drawable outputDir before then m.Drawn outputDir before after
  else after.pathExists (m.figure outputDir) = false

variable {m outputDir} {fs fs' before after last : FileSystem} {inside : Place → Prop}

theorem toOption_map_eq_some_iff {ε α β : Type} {r : Except ε α} {f : α → β} {y : β} :
    r.toOption.map f = some y ↔ ∃ x, r = .ok x ∧ f x = y := by
  cases r <;> simp [Except.toOption]

theorem write_eq_ok_iff {picture : Figure} {target : Path} :
    picture.write target fs = .ok fs' ↔ fs.writeBytes target picture.text.toUTF8 = .ok fs' := by
  unfold write
  cases fs.writeBytes target picture.text.toUTF8 <;> simp [mapError_ok, mapError_error]

theorem drawLatencies_eq_ok_iff {file target : Path} {note : String} :
    drawLatencies file target note fs = .ok fs' ↔ ∃ text columns,
      fs.readText file = .ok text ∧ AccessLog.columns text = .ok columns ∧
        (ofColumns note columns).write target fs = .ok fs' := by
  simp only [drawLatencies, AccessLog.readColumns, FileSystem.loadText, bind, Except.bind]
  cases fs.readText file with
  | error e => simp [mapError_error]
  | ok text =>
    simp only [mapError_ok, Except.ok.injEq, exists_and_left, exists_eq_left']
    cases AccessLog.columns text <;> simp [mapError_ok, mapError_error]

theorem drawIntervals_eq_ok_iff {file target : Path} {note : String} :
    drawIntervals file target note fs = .ok fs' ↔ ∃ text events, fs.readText file = .ok text ∧
      CommandTrace.parse text = .ok events ∧ (ofEvents note events).write target fs = .ok fs' := by
  simp only [drawIntervals, readEvents, bind, Except.bind]
  cases fs.readText file with
  | error e => simp [mapError_error]
  | ok text =>
    simp only [mapError_ok, Except.ok.injEq, exists_and_left, exists_eq_left']
    cases CommandTrace.parse text <;> simp [mapError_ok, mapError_error]

theorem picture?_eq_some_iff {picture : Figure} : m.picture? outputDir fs = some picture ↔
    ∃ text, fs.readText (m.log outputDir) = .ok text ∧ m.pictureOf text = some picture := by
  unfold picture?
  cases fs.readText (m.log outputDir) <;> simp [Except.toOption]

theorem draw_eq_ok_iff : m.draw outputDir fs = .ok fs' ↔
    ∃ picture, m.picture? outputDir fs = some picture ∧
      fs.writeBytes (m.figure outputDir) picture.text.toUTF8 = .ok fs' := by
  simp only [picture?_eq_some_iff, ← write_eq_ok_iff]
  obtain ⟨t, kind⟩ := m
  cases kind with
  | latencies =>
    simp only [draw, drawLatencies_eq_ok_iff, pictureOf, toOption_map_eq_some_iff]
    constructor
    · rintro ⟨text, columns, hread, hcolumns, hwrite⟩
      exact ⟨_, ⟨text, hread, columns, hcolumns, rfl⟩, hwrite⟩
    · rintro ⟨picture, ⟨text, hread, columns, hcolumns, rfl⟩, hwrite⟩
      exact ⟨text, columns, hread, hcolumns, hwrite⟩
  | intervals =>
    simp only [draw, drawIntervals_eq_ok_iff, pictureOf, toOption_map_eq_some_iff]
    constructor
    · rintro ⟨text, events, hread, hevents, hwrite⟩
      exact ⟨_, ⟨text, hread, events, hevents, rfl⟩, hwrite⟩
    · rintro ⟨picture, ⟨text, hread, events, hevents, rfl⟩, hwrite⟩
      exact ⟨text, events, hread, hevents, hwrite⟩

def figureName (m : Motif) : String :=
  m.trial.pattern.name ++ m.kind.ending

def logName (m : Motif) : String :=
  m.kind.source.name m.trial.pattern

theorem figureName_mem (m : Motif) : m.figureName ∈ handledNames m.trial.pattern := by
  obtain ⟨t, kind⟩ := m
  cases kind <;> simp [figureName, Kind.ending, handledNames]

theorem logName_mem (m : Motif) : m.logName ∈ handledNames m.trial.pattern := by
  obtain ⟨t, kind⟩ := m
  cases kind <;> simp [logName, Kind.source, handledNames]

theorem figure_eq_join (m : Motif) (outputDir : Path) :
    m.figure outputDir = (m.paths outputDir).dir.join m.figureName := by
  obtain ⟨t, kind⟩ := m
  cases kind <;> rfl

theorem log_eq_join (m : Motif) (outputDir : Path) :
    m.log outputDir = (m.paths outputDir).dir.join m.logName := by
  have hlog : m.log outputDir = m.kind.source.path (m.paths outputDir) := by
    obtain ⟨t, kind⟩ := m
    cases kind <;> rfl
  rw [hlog, paths, TrialFile.path_eq_join, logName]

theorem place_figure (m : Motif) (outputDir : Path) :
    (m.figure outputDir).place = m.trial.place outputDir ++ [m.figureName] := by
  rw [figure_eq_join]
  exact place_handled outputDir m.trial m.figureName_mem

theorem place_log (m : Motif) (outputDir : Path) :
    (m.log outputDir).place = m.trial.place outputDir ++ [m.logName] := by
  rw [log_eq_join]
  exact place_handled outputDir m.trial m.logName_mem

theorem endsWithSlash_figure (m : Motif) (outputDir : Path) :
    (m.figure outputDir).endsWithSlash = false := by
  rw [figure_eq_join]
  exact Path.endsWithSlash_join (isName_of_handled m.figureName_mem)

/-- The place of a file tells the names of the trial and of the file. -/
theorem names_of_place {t u : Trial} {name other : String}
    (h : t.place outputDir ++ [name] = u.place outputDir ++ [other]) :
    t.name = u.name ∧ name = other := by
  obtain ⟨hplace, hlast⟩ := List.append_inj' h rfl
  refine ⟨by_contra fun hne => ?_, List.singleton_inj.mp hlast⟩
  exact Trial.not_prefix_of_ne hne (List.prefix_refl (t.place outputDir))
    (hplace ▸ List.prefix_refl (t.place outputDir))

theorem pattern_of_name {t u : Trial} (h : t.name = u.name) : t.pattern.name = u.pattern.name :=
  (Trial.name_inj.mp h).2

theorem place_figure_ne_log (m m' : Motif) (outputDir : Path) :
    (m.figure outputDir).place ≠ (m'.log outputDir).place := by
  rw [place_figure, place_log]
  intro h
  obtain ⟨htrial, hname⟩ := names_of_place h
  rw [figureName, logName, pattern_of_name htrial] at hname
  refine name_ne_figure m'.trial.pattern m'.kind.source ?_ hname.symm
  cases m.kind <;> simp [Kind.ending]

/-- Motifs with the same figure are of the same kind, and their trials have the same name. -/
theorem same_of_figure {m m' : Motif}
    (h : (m.figure outputDir).place = (m'.figure outputDir).place) :
    m.trial.name = m'.trial.name ∧ m.kind = m'.kind := by
  rw [place_figure, place_figure] at h
  obtain ⟨htrial, hname⟩ := names_of_place h
  refine ⟨htrial, ?_⟩
  rw [figureName, figureName, pattern_of_name htrial, String.append_right_inj] at hname
  exact Kind.ending_injective hname

theorem same_of_log {m m' : Motif} (h : (m.log outputDir).place = (m'.log outputDir).place) :
    m.trial.name = m'.trial.name ∧ m.kind = m'.kind := by
  rw [place_log, place_log] at h
  obtain ⟨htrial, hname⟩ := names_of_place h
  refine ⟨htrial, ?_⟩
  apply Kind.source_injective
  apply TrialFile.name_injective m'.trial.pattern
  rw [← logName, ← hname, logName, TrialFile.name, TrialFile.name, pattern_of_name htrial]

section Changes

variable (h : FileSystem.ChangesFiles inside fs fs')

include h

theorem picture?_congr (hlog : ¬ inside (m.log outputDir).place) :
    m.picture? outputDir fs' = m.picture? outputDir fs := by
  apply Option.ext
  intro picture
  simp only [picture?_eq_some_iff, h.readText_eq_ok_iff hlog]

theorem drawable_congr (hlog : ¬ inside (m.log outputDir).place) :
    m.Drawable outputDir fs' ↔ m.Drawable outputDir fs := by
  rw [Drawable, Drawable, picture?_congr h hlog, h.locate_eq_ok_iff]

/-- What was settled before or after something else changed is settled from the start to the end. -/
theorem Settled.of_before (hsettled : m.Settled outputDir fs' last)
    (hlog : ¬ inside (m.log outputDir).place) : m.Settled outputDir fs last := by
  simp only [Settled, Drawn, drawable_congr h hlog, picture?_congr h hlog] at hsettled
  exact hsettled

theorem Settled.of_after (hsettled : m.Settled outputDir before fs)
    (hfigure : ¬ inside (m.figure outputDir).place) : m.Settled outputDir before fs' := by
  unfold Settled Drawn at hsettled ⊢
  rw [h.pathExists_eq hfigure]
  simp only [h.readBytes_eq_ok_iff hfigure]
  exact hsettled

end Changes

theorem drawable_of_draw (h : m.draw outputDir fs = .ok fs') : m.Drawable outputDir fs := by
  obtain ⟨picture, hpicture, hwrite⟩ := draw_eq_ok_iff.mp h
  refine ⟨by rw [hpicture]; rfl, ?_⟩
  have hread := FileSystem.readBytes_eq_ok_iff.mp (FileSystem.readBytes_writeBytes hwrite)
  exact (FileSystem.changesFiles_writeBytes hwrite).locate_eq_ok_iff.mp hread.1

/-- With no old figure in its place, exactly what is drawable is drawn. -/
theorem exists_draw_iff (hgone : fs.pathExists (m.figure outputDir) = false) :
    (∃ fs', m.draw outputDir fs = .ok fs') ↔ m.Drawable outputDir fs := by
  refine ⟨fun ⟨fs', hdraw⟩ => drawable_of_draw hdraw, ?_⟩
  rintro ⟨hsome, hlocate⟩
  obtain ⟨picture, hpicture⟩ := Option.isSome_iff_exists.mp hsome
  have hslash := m.endsWithSlash_figure outputDir
  have hnone := FileSystem.entryAt_of_not_pathExists hgone hlocate hslash
  exact ⟨_, draw_eq_ok_iff.mpr
    ⟨picture, hpicture, FileSystem.writeBytes_of_missing _ hlocate hslash hnone⟩⟩

theorem Drawn.pathExists (h : m.Drawn outputDir before after) :
    after.pathExists (m.figure outputDir) = true := by
  obtain ⟨picture, -, hread⟩ := h
  exact FileSystem.pathExists_of_readBytes hread

theorem Settled.pathExists_iff (h : m.Settled outputDir before after) :
    after.pathExists (m.figure outputDir) = true ↔ m.Drawable outputDir before := by
  unfold Settled at h
  split at h
  · rename_i hdrawable
    exact iff_of_true h.pathExists hdrawable
  · rename_i hdrawable
    exact iff_of_false (by rw [h]; exact Bool.false_ne_true) hdrawable

theorem Settled.drawn_iff (h : m.Settled outputDir before after) :
    m.Drawn outputDir before after ↔ m.Drawable outputDir before := by
  refine ⟨fun hdrawn => h.pathExists_iff.mp hdrawn.pathExists, fun hdrawable => ?_⟩
  rwa [Settled, if_pos hdrawable] at h

end Motif

/-! ## One job -/

/-- A figure to be drawn, or the log behind one to be taken away. -/
inductive Job where
  | draw (m : Motif)
  | clean (m : Motif)
deriving DecidableEq

theorem discarding_cases (file : Path) (p : Progress) :
    (∃ e, discarding file p = (.error e, p)) ∨
      ∃ fs, discarding file p = (.ok (), { p with files := fs }) ∧
        FileSystem.ChangesFiles (· = file.place) p.files fs ∧ fs.pathExists file = false := by
  simp only [discarding, Action.change, discard]
  cases hexists : p.files.pathExists file with
  | false => exact .inr ⟨p.files, rfl, .refl _ _, hexists⟩
  | true =>
    cases hremove : p.files.removeFile file with
    | error e => exact .inl ⟨_, rfl⟩
    | ok fs =>
      exact .inr ⟨fs, rfl, FileSystem.changesFiles_removeFile hremove,
        FileSystem.pathExists_of_missing (FileSystem.entryAt_removeFile_self hremove)⟩

namespace Job

variable (outputDir : Path)

def file : Job → Path
  | draw m => m.figure outputDir
  | clean m => m.log outputDir

def steps : Job → List Step
  | draw m => [discarding (m.figure outputDir), drawing (m.draw outputDir)]
  | clean m => [discarding (m.log outputDir)]

def run (job : Job) : Step :=
  .all (job.steps outputDir)

/-- A job that adds to the count of failed figures. -/
def fails (fs : FileSystem) : Job → Bool
  | draw m => !decide (m.Drawable outputDir fs)
  | clean _ => false

/-- What a job does that does not stop everything. -/
structure Done (job : Job) (p p' : Progress) : Prop where
  changes : FileSystem.ChangesFiles (· = (job.file outputDir).place) p.files p'.files
  settled : ∀ m, job = draw m → m.Settled outputDir p.files p'.files
  gone : ∀ m, job = clean m → p'.files.pathExists (m.log outputDir) = false
  failed : p'.failed = p.failed + if job.fails outputDir p.files then 1 else 0

variable {outputDir} {fs fs' : FileSystem} {inside : Place → Prop}

theorem fails_congr {job : Job} (h : FileSystem.ChangesFiles inside fs fs')
    (hlog : ∀ m, job = draw m → ¬ inside (m.log outputDir).place) :
    job.fails outputDir fs' = job.fails outputDir fs := by
  cases job with
  | clean m => rfl
  | draw m => simp only [fails, Motif.drawable_congr h (hlog m rfl)]

theorem run_clean_cases (m : Motif) (p : Progress) :
    (∃ e, (clean m).run outputDir p = (.error e, p)) ∨
      ∃ p', (clean m).run outputDir p = (.ok (), p') ∧ (clean m).Done outputDir p p' := by
  simp only [run, steps, Action.all, Action.bind_apply]
  rcases discarding_cases (m.log outputDir) p with ⟨e, he⟩ | ⟨fs, hfs, hchanges, hgone⟩
  · rw [he]
    exact .inl ⟨e, rfl⟩
  · rw [hfs]
    refine .inr ⟨_, rfl, hchanges, ?_, ?_, rfl⟩
    · intro m' h
      cases h
    · intro m' h
      cases h
      exact hgone

theorem drawing_done {m : Motif} {p : Progress}
    (hgone : p.files.pathExists (m.figure outputDir) = false) :
    ∃ p', drawing (m.draw outputDir) p = (.ok (), p') ∧ (draw m).Done outputDir p p' := by
  unfold drawing
  cases hdraw : m.draw outputDir p.files with
  | error e =>
    have hnot : ¬ m.Drawable outputDir p.files := by
      rw [← Motif.exists_draw_iff hgone, hdraw]
      rintro ⟨fs', heq⟩
      cases heq
    refine ⟨_, rfl, .refl _ _, ?_, ?_, by simp [fails, hnot]⟩
    · intro m' h
      cases h
      rwa [Motif.Settled, if_neg hnot]
    · intro m' h
      cases h
  | ok fs =>
    have hdrawable := (Motif.exists_draw_iff hgone).mp ⟨fs, hdraw⟩
    obtain ⟨picture, hpicture, hwrite⟩ := Motif.draw_eq_ok_iff.mp hdraw
    refine ⟨_, rfl, FileSystem.changesFiles_writeBytes hwrite, ?_, ?_, by simp [fails, hdrawable]⟩
    · intro m' h
      cases h
      rw [Motif.Settled, if_pos hdrawable]
      exact ⟨picture, hpicture, FileSystem.readBytes_writeBytes hwrite⟩
    · intro m' h
      cases h

theorem run_draw_cases (m : Motif) (p : Progress) :
    (∃ e, (draw m).run outputDir p = (.error e, p)) ∨
      ∃ p', (draw m).run outputDir p = (.ok (), p') ∧ (draw m).Done outputDir p p' := by
  simp only [run, steps, Action.all, Action.bind_apply]
  rcases discarding_cases (m.figure outputDir) p with ⟨e, he⟩ | ⟨fs, hfs, hchanges, hgone⟩
  · rw [he]
    exact .inl ⟨e, rfl⟩
  · -- the old figure is not the log, so the log is read as it was before the figure went
    have hlog : ¬ (m.log outputDir).place = (m.figure outputDir).place :=
      fun h => m.place_figure_ne_log m outputDir h.symm
    obtain ⟨p', hp', hdone⟩ := drawing_done (p := { p with files := fs }) hgone
    rw [hfs]
    dsimp only
    rw [hp']
    refine .inr ⟨p', rfl, hchanges.trans hdone.changes, ?_, ?_, ?_⟩
    · intro m' h
      cases h
      exact (hdone.settled m rfl).of_before hchanges hlog
    · intro m' h
      cases h
    · rw [hdone.failed, fails_congr hchanges]
      intro m' h
      cases h
      exact hlog

/-- A job changes nothing, or it is done. -/
theorem run_cases (job : Job) (p : Progress) :
    (∃ e, job.run outputDir p = (.error e, p)) ∨
      ∃ p', job.run outputDir p = (.ok (), p') ∧ job.Done outputDir p p' := by
  cases job with
  | draw m => exact run_draw_cases m p
  | clean m => exact run_clean_cases m p

end Job

/-- All these jobs were done. -/
inductive Ran (outputDir : Path) : List Job → Progress → Progress → Prop
  | nil (p : Progress) : Ran outputDir [] p p
  | cons {job : Job} {jobs : List Job} {p mid p' : Progress} (h : job.Done outputDir p mid)
      (hrest : Ran outputDir jobs mid p') : Ran outputDir (job :: jobs) p p'

namespace Ran

variable {outputDir : Path} {jobs : List Job} {p p' : Progress} {m : Motif}

/-- Jobs are done up to the first one that fails. -/
theorem exists_prefix (outputDir : Path) (jobs : List Job) (p : Progress) :
    ∃ ran left, jobs = ran ++ left ∧
      Ran outputDir ran p (Action.all (jobs.map (·.run outputDir)) p).2 ∧
      ((Action.all (jobs.map (·.run outputDir)) p).1 = .ok () → left = []) := by
  induction jobs generalizing p with
  | nil => exact ⟨[], [], rfl, .nil p, fun _ => rfl⟩
  | cons job jobs ih =>
    simp only [List.map_cons, Action.all, Action.bind_apply]
    rcases job.run_cases p with ⟨e, he⟩ | ⟨mid, hmid, hdone⟩
    · rw [he]
      refine ⟨[], job :: jobs, rfl, .nil p, fun h => ?_⟩
      cases h
    · rw [hmid]
      obtain ⟨ran, left, rfl, hran, hall⟩ := ih mid
      exact ⟨job :: ran, left, rfl, .cons hdone hran, hall⟩

/-- Only the files of the jobs change. -/
theorem changes (h : Ran outputDir jobs p p') :
    FileSystem.ChangesFiles (fun q => ∃ job ∈ jobs, q = (job.file outputDir).place)
      p.files p'.files := by
  induction h with
  | nil p => exact .refl _ _
  | @cons job jobs p mid p' hdone hrest ih =>
    refine (hdone.changes.mono fun q hq => ⟨job, List.mem_cons_self, hq⟩).trans (ih.mono ?_)
    rintro q ⟨other, hother, rfl⟩
    exact ⟨other, List.mem_cons_of_mem job hother, rfl⟩

end Ran

/-- The first job leaves alone what the second one handles and reads. -/
def Job.Precedes (outputDir : Path) (first second : Job) : Prop :=
  (first.file outputDir).place ≠ (second.file outputDir).place ∧
    ∀ m, second = .draw m → (first.file outputDir).place ≠ (m.log outputDir).place

namespace Ran

variable {outputDir : Path} {jobs : List Job} {p p' : Progress} {m : Motif}

theorem figure_kept (h : ∀ other ∈ jobs, (Job.draw m).Precedes outputDir other) :
    ¬ ∃ other ∈ jobs, (m.figure outputDir).place = (other.file outputDir).place :=
  fun ⟨other, hother, heq⟩ => (h other hother).1 heq

theorem log_kept (h : ∀ other ∈ jobs, (Job.clean m).Precedes outputDir other) :
    ¬ ∃ other ∈ jobs, (m.log outputDir).place = (other.file outputDir).place :=
  fun ⟨other, hother, heq⟩ => (h other hother).1 heq

theorem settled (h : Ran outputDir jobs p p') (horder : jobs.Pairwise (Job.Precedes outputDir))
    (hm : .draw m ∈ jobs) : m.Settled outputDir p.files p'.files := by
  -- jobs before the drawing leave its log alone, and jobs behind it leave its figure alone
  induction h with
  | nil p => cases hm
  | @cons job jobs p mid p' hdone hrest ih =>
    obtain ⟨hfirst, hlater⟩ := List.pairwise_cons.mp horder
    rcases List.mem_cons.mp hm with rfl | hm
    · exact (hdone.settled m rfl).of_after hrest.changes (figure_kept hfirst)
    · exact (ih hlater hm).of_before hdone.changes (Ne.symm ((hfirst _ hm).2 m rfl))

theorem gone (h : Ran outputDir jobs p p') (horder : jobs.Pairwise (Job.Precedes outputDir))
    (hm : .clean m ∈ jobs) : p'.files.pathExists (m.log outputDir) = false := by
  induction h with
  | nil p => cases hm
  | @cons job jobs p mid p' hdone hrest ih =>
    obtain ⟨hfirst, hlater⟩ := List.pairwise_cons.mp horder
    rcases List.mem_cons.mp hm with rfl | hm
    · rw [hrest.changes.pathExists_eq (log_kept hfirst)]
      exact hdone.gone m rfl
    · exact ih hlater hm

/-- The figures that could not be drawn from the start are counted. -/
theorem failed (h : Ran outputDir jobs p p') (horder : jobs.Pairwise (Job.Precedes outputDir)) :
    p'.failed = p.failed + jobs.countP (·.fails outputDir p.files) := by
  induction h with
  | nil p => rfl
  | @cons job jobs p mid p' hdone hrest ih =>
    obtain ⟨hfirst, hlater⟩ := List.pairwise_cons.mp horder
    -- whether a later job fails depends on its log only, which the first one leaves alone
    have hsame : jobs.countP (·.fails outputDir mid.files) =
        jobs.countP (·.fails outputDir p.files) := by
      apply List.countP_congr
      intro other hother
      rw [Job.fails_congr hdone.changes]
      rintro m rfl
      exact Ne.symm ((hfirst _ hother).2 m rfl)
    rw [ih hlater, hdone.failed, hsame, List.countP_cons]
    omega

end Ran

end Figure
end MappingSweep
