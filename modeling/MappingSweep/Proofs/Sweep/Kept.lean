import Mathlib.Data.List.Forall2
import MappingSweep.Proofs.Pool
import MappingSweep.Proofs.Trial.Effects
import MappingSweep.Run.Basic

/-!
# What every step of a sweep keeps

A statement about files and sink that survives whatever a single step may do survives the sweep,
whichever trials fail and in whatever order the steps come.  Of a worker that fails it is known that
it failed for its own directory or for a trial of its own mapping.
-/

namespace MappingSweep
namespace Sweep

variable {σ α : Type}

/-- Every step of a trial keeps what is said of the world.  Apart from the simulator a step changes
files in the trial's directory and makes directories, or hands over a row. -/
structure Kept (plan : Plan) (simulator : Simulator) (sink : Sink σ) (inv : World σ → Prop) :
    Prop where
  create : ∀ w p, inv w → inv { w with files := (w.files.createDirectories p).2 }
  grow : ∀ w t fs, inv w → FileSystem.Grows (Trial.Inside t plan.outputDir) w.files fs →
    inv { w with files := fs }
  simulate : ∀ w (t : Trial), inv w → inv { w with
    files := (simulator.run (TrialPaths.ofTrial plan.outputDir t).config
      (TrialPaths.ofTrial plan.outputDir t).stdoutLog w.files).2 }
  append : ∀ w row s, inv w → sink.append row w.sink = .ok s → inv { w with sink := s }

/-- How a worker may fail, and under which name. -/
inductive FailureOf (plan : Plan) (m : Mapping) : String × SweepError → Prop
  | directory (e : OsError) : FailureOf plan m (m.name, .io (m.directory plan.outputDir) (.os e))
  | trial {p : Pattern} (hp : p ∈ plan.patterns) (stage : Stage) (source : SweepError) :
      FailureOf plan m ((Trial.mk m p).name, .trial m.name p.name stage source)

/-- A worker that reports a failure failed in one of these ways. -/
def FailsFor (plan : Plan) (m : Mapping) (report : WorkerReport) : Prop :=
  ∀ failure, report.failure = some failure → FailureOf plan m failure

/-- The error is wrapped as one of the trial. -/
def IsTrialError (t : Trial) (e : SweepError) : Prop :=
  ∃ stage source, e = .trial t.mapping.name t.pattern.name stage source

variable {plan : Plan} {simulator : Simulator} {sink : Sink σ} {inv : World σ → Prop} {ν : Type}
  {noted : List ν → World σ → Prop} {note : ν} {i : Nat}

theorem keeps_files {a : Action SweepError FileSystem α}
    (h : ∀ notes w, noted notes w → noted notes { w with files := (a w.files).2 }) :
    Task.Keeps noted i (fun last _ => last = note) (fun last _ => last = note) note
      (World.onFiles a) := by
  apply Action.keeps_task_of_same
  · intro notes w _ hw
    exact h notes w hw
  · intro _ w _ _
    split <;> rfl

theorem Kept.keeps_grow (h : ∀ notes, Kept plan simulator sink (noted notes))
    {a : Action SweepError FileSystem α} (t : Trial)
    (ha : ∀ fs, FileSystem.Grows (t.Inside plan.outputDir) fs (a fs).2) :
    Task.Keeps noted i (fun last _ => last = note) (fun last _ => last = note) note
      (World.onFiles a) :=
  keeps_files fun notes w hw => (h notes).grow w t _ hw (ha w.files)

theorem Kept.keeps_append (h : ∀ notes, Kept plan simulator sink (noted notes)) (row : Row) :
    Task.Keeps noted i (fun last _ => last = note) (fun last _ => last = note) note
      (World.onSink (.change (sink.append row))) := by
  apply Action.keeps_task_of_same
  · intro notes w _ hw
    simp only [Action.within, Action.change]
    cases hs : sink.append row w.sink with
    | ok s => exact (h notes).append w row s hw hs
    | error e => exact hw
  · intro _ w _ _
    split <;> rfl

section

variable {t : Trial} (hfiles : ∀ {α : Type} (a : Action SweepError FileSystem α),
  (∀ fs, FileSystem.Grows (t.Inside plan.outputDir) fs (a fs).2) →
    Task.Keeps noted i (fun last _ => last = note) (fun last _ => last = note) note
      (World.onFiles a))
include hfiles

theorem keeps_freshDirectory :
    Task.Keeps noted i (fun last _ => last = note) (fun last _ => last = note) note
      (Trial.freshDirectory (TrialPaths.ofTrial plan.outputDir t).dir) := by
  have hcreate : Task.Keeps noted i (fun last _ => last = note) (fun last _ => last = note) note
      (World.onFiles (σ := σ) (Action.mapError
        (fun fs => fs.createDirectories (TrialPaths.ofTrial plan.outputDir t).dir) fun e =>
          .io (TrialPaths.ofTrial plan.outputDir t).dir (.os e))) :=
    hfiles _ fun fs => Trial.grows_createDirectories fs _ _ _
  unfold Trial.freshDirectory
  apply Task.Keeps.bind (hfiles _ fun fs => .refl _ fs)
  rintro _ found rfl
  cases found with
  | false => exact hcreate
  | true =>
    apply Task.Keeps.bind (hfiles _ fun fs => t.grows_removeDirectory fs _ plan.outputDir)
    rintro _ _ rfl
    exact hcreate

/-- A trial keeps what its steps keep, and comes to what the last two of them come to. -/
theorem keeps_task {mid good : ν → Row → Prop} {lost : ν → Prop} (template : Template)
    (hsimulate : Task.Keeps noted i (fun last _ => last = note) (fun last _ => last = note) note
      (World.onFiles (simulator.run (TrialPaths.ofTrial plan.outputDir t).config
        (TrialPaths.ofTrial plan.outputDir t).stdoutLog)))
    (hread : Task.Keeps noted i mid (fun last _ => lost last) note
      (World.onFiles (t.readRow plan (.ofTrial plan.outputDir t))))
    (hsend : ∀ last row, mid last row → Task.Keeps noted i (fun last _ => good last row)
      (fun last _ => lost last) last (World.onSink (.change (sink.append row))))
    (hlost : lost note) :
    Task.Keeps noted i good (fun last e => lost last ∧ IsTrialError t e) note
      (t.task plan template simulator sink) := by
  have hwrap : ∀ (stage : Stage) {β : Type} {note : ν} {good : ν → β → Prop}
      {a : Task SweepError (World σ) β},
      Task.Keeps noted i good (fun last _ => lost last) note a →
      Task.Keeps noted i good (fun last e => lost last ∧ IsTrialError t e) note
        (a.mapError (.trial t.mapping.name t.pattern.name stage)) :=
    fun stage _ _ _ _ ha => ha.mapError fun _ e hlast => ⟨hlast, stage, e, rfl⟩
  have hsame : ∀ (stage : Stage) {β : Type} {a : Task SweepError (World σ) β},
      Task.Keeps noted i (fun last _ => last = note) (fun last _ => last = note) note a →
      Task.Keeps noted i (fun last _ => last = note) (fun last e => lost last ∧ IsTrialError t e)
        note (a.mapError (.trial t.mapping.name t.pattern.name stage)) :=
    fun stage _ _ ha => hwrap stage (ha.mono (fun _ _ => id) fun _ _ hlast => hlast ▸ hlost)
  unfold Trial.task
  apply Task.Keeps.bind (hsame _ (keeps_freshDirectory hfiles))
  rintro _ _ rfl
  apply Task.Keeps.bind (hsame _ (hfiles _ fun fs =>
    t.grows_writeConfig fs template _ plan.outputDir))
  rintro _ _ rfl
  apply Task.Keeps.bind (hsame _ hsimulate)
  rintro _ _ rfl
  apply Task.Keeps.bind (hwrap _ hread)
  intro last row hrow
  apply Task.Keeps.bind (hwrap _ (hsend last row hrow))
  exact fun _ _ hlast => Task.keeps_pure hlast

end

theorem Kept.keeps_task (h : ∀ notes, Kept plan simulator sink (noted notes))
    (template : Template) (t : Trial) :
    Task.Keeps noted i (fun last _ => last = note)
      (fun last e => last = note ∧ IsTrialError t e) note
      (t.task plan template simulator sink) := by
  apply Sweep.keeps_task (fun _ => Kept.keeps_grow h t) template
    (keeps_files fun notes w hw => (h notes).simulate w t hw)
    (Kept.keeps_grow h t fun fs => .refl _ fs) _ rfl
  rintro _ row rfl
  exact Kept.keeps_append h row

theorem Kept.keeps_patternsThread (h : ∀ notes, Kept plan simulator sink (noted notes))
    (template : Template) (m : Mapping) {patterns : List Pattern}
    (hpatterns : patterns ⊆ plan.patterns) :
    Thread.Keeps noted i (fun last report => last = note ∧ FailsFor plan m report) note
      (patternsThread plan template simulator sink m patterns) := by
  induction patterns with
  | nil => exact .ended ⟨rfl, fun _ hfailure => nomatch hfailure⟩
  | cons p rest ih =>
    apply Thread.Keeps.andThen (Kept.keeps_task h template ⟨m, p⟩)
    intro last result hresult
    cases result with
    | error e =>
      obtain ⟨rfl, stage, source, rfl⟩ := hresult
      refine .ended ⟨rfl, fun failure hfailure => ?_⟩
      cases hfailure
      exact .trial (hpatterns List.mem_cons_self) stage source
    | ok row =>
      obtain rfl : last = note := hresult
      apply Thread.Keeps.andThen (ih fun p' hp' => hpatterns (List.mem_cons_of_mem p hp'))
      exact fun _ report hreport => .ended hreport

theorem Kept.keeps_worker (h : Kept plan simulator sink inv) (template : Template) (m : Mapping) :
    Thread.Keeps (fun _ : List Unit => inv) i
      (fun _ report => FailsFor plan m report) ()
      (worker plan template simulator sink m) := by
  have hopen : Task.Keeps (fun _ : List Unit => inv) i (fun _ _ => True)
      (fun _ e => ∃ o, e = .io (m.directory plan.outputDir) (.os o)) ()
      (World.onFiles (openMapping plan m)) := by
    apply Action.keeps_task_of_same
    · intro _ w _ hw
      exact h.create w _ hw
    · intro _ w _ _
      simp only [Action.within, openMapping, Action.mapError]
      cases (w.files.createDirectories (m.directory plan.outputDir)).1 with
      | ok _ => trivial
      | error e => exact ⟨e, rfl⟩
  unfold worker
  apply Thread.Keeps.andThen hopen
  intro _ result hresult
  cases result with
  | ok _ =>
    apply (Kept.keeps_patternsThread (fun _ => h) template m fun _ hp => hp).mono
    exact fun _ report hreport => hreport.2
  | error e =>
    obtain ⟨o, rfl⟩ := hresult
    refine .ended fun failure hfailure => ?_
    cases hfailure
    exact .directory o

/-- All workers are about to start, each with the same note. -/
theorem sound_of_keeps {template : Template} {post : Nat → ν → WorkerReport → Prop} {w : World σ}
    (hstart : noted (plan.mappings.map fun _ => note) w)
    (hworkers : ∀ (i : Nat) m, plan.mappings[i]? = some m →
      Thread.Keeps noted i (post i) note (worker plan template simulator sink m)) :
    Pool.Sound noted post (plan.mappings.map fun _ => note)
      ⟨w, plan.mappings.map (worker plan template simulator sink)⟩ := by
  refine ⟨hstart, by simp, ?_⟩
  intro i last t hlast ht
  rw [List.getElem?_map] at hlast ht
  obtain ⟨m, hm, rfl⟩ := Option.map_eq_some_iff.mp ht
  rw [hm] at hlast
  cases hlast
  exact hworkers i m hm

theorem Kept.run (h : Kept plan simulator sink inv) (template : Template)
    {background : World σ → World σ} (hbackground : ∀ w, inv w → inv (background w))
    (turns : List Turn) {w : World σ} (hw : inv w) :
    let swept := run plan template simulator sink background turns w
    inv swept.2 ∧ ∃ reports, swept.1 = outcomeOf reports ∧
      List.Forall₂ (FailsFor plan) plan.mappings reports := by
  have hsound : Pool.Sound (fun _ : List Unit => inv)
      (fun i _ report => ∀ m, plan.mappings[i]? = some m → FailsFor plan m report)
      (plan.mappings.map fun _ => ())
      ⟨w, plan.mappings.map (worker plan template simulator sink)⟩ := by
    apply sound_of_keeps hw
    intro i m hm
    apply (h.keeps_worker template m).mono
    intro _ report hreport m' hm'
    cases hm.symm.trans hm'
    exact hreport
  obtain ⟨notes, hinv, hlength, hpost⟩ := hsound.finish (fun _ w => hbackground w) turns
  have hcount := Pool.length_finish background
    ⟨w, plan.mappings.map (worker plan template simulator sink)⟩ turns
  rw [List.length_map] at hcount
  refine ⟨hinv, _, rfl, List.forall₂_iff_get.mpr ⟨hcount.symm, ?_⟩⟩
  intro i hi hreport
  have hnote : i < notes.length := by rw [hlength]; exact hreport
  exact hpost i notes[i] _ (List.getElem?_eq_getElem hnote) (List.getElem?_eq_getElem hreport) _
    (List.getElem?_eq_getElem hi)

end Sweep

/-! ## The writer -/

namespace Funnel

/-- Only a funnel that has not stopped takes a row, and puts it behind the others. -/
theorem send_eq_ok {f f' : Funnel} {row : Row} (h : f.send row = .ok f') :
    f.stopped = none ∧ f' = { f with queue := f.queue ++ [row] } := by
  unfold send at h
  split at h
  · cases h
  · rename_i hgoing
    cases h
    exact ⟨by simpa using hgoing, rfl⟩

/-- The number of rows that were written, or why the writer stopped. -/
def answer (f : Funnel) : Except SweepError Nat :=
  match f.stopped with
  | some e => .error e
  | none => .ok f.written

theorem finish_eq (f : Funnel) (fs : FileSystem) :
    f.finish fs = ((f.drain fs).1.answer, (f.drain fs).2) := by
  unfold finish answer
  generalize f.drain fs = last
  obtain ⟨last, fs'⟩ := last
  dsimp only
  cases last.stopped <;> rfl

/-- What every row that the writer takes keeps, is kept until the queue is empty. -/
theorem drain_keeps {inv : Funnel → FileSystem → Prop}
    (htake : ∀ f fs, inv f fs → inv (f.take fs).1 (f.take fs).2) (f : Funnel) (fs : FileSystem)
    (h : inv f fs) : inv (f.drain fs).1 (f.drain fs).2 := by
  -- the rows that are folded over only count the turns of the writer
  suffices hturns : ∀ (turns : List Row) (s : Funnel × FileSystem), inv s.1 s.2 →
      let last := turns.foldl (fun s _ => s.1.take s.2) s
      inv last.1 last.2 from hturns f.queue (f, fs) h
  intro turns
  induction turns with
  | nil => exact fun _ hs => hs
  | cons turn turns ih => exact fun s hs => ih (s.1.take s.2) (htake s.1 s.2 hs)

end Funnel

namespace Run

variable {plan : Plan} {simulator : Simulator} {inv : World Funnel → Prop}

/-- A drained sweep, its files and its funnel. -/
structure Ended (plan : Plan) (inv : World Funnel → Prop) (drained : Drained) (fs : FileSystem) :
    Prop where
  kept : ∃ f : Funnel, inv ⟨fs, f⟩ ∧ drained.written = f.answer
  outcome : ∃ reports, drained.outcome = Sweep.outcomeOf reports ∧
    List.Forall₂ (Sweep.FailsFor plan) plan.mappings reports

theorem ended_drainUnder (h : Sweep.Kept plan simulator Sweep.funnelSink inv) (template : Template)
    (hwriter : ∀ w, inv w → inv (Sweep.writerStep w)) (turns : List Turn) {log : RowLog}
    {fs : FileSystem} (hstart : inv ⟨fs, { log }⟩) :
    Ended plan inv (drainUnder turns plan template simulator log fs).1
      (drainUnder turns plan template simulator log fs).2 := by
  obtain ⟨hinv, houtcome⟩ := h.run template hwriter turns hstart
  unfold drainUnder
  generalize Sweep.run plan template simulator Sweep.funnelSink Sweep.writerStep turns
    ⟨fs, { log }⟩ = swept at *
  obtain ⟨outcome, w⟩ := swept
  have hdrain := Funnel.drain_keeps (fun f fs hf => hwriter ⟨fs, f⟩ hf) w.sink w.files hinv
  dsimp only
  rw [Funnel.finish_eq]
  exact ⟨⟨_, hdrain, rfl⟩, houtcome⟩

end Run
end MappingSweep
