import MappingSweep.Proofs.Row.Log
import MappingSweep.Proofs.Sweep.Kept
import MappingSweep.Proofs.Sweep.Rows
import MappingSweep.Proofs.Trial.Source

/-!
# Logged rows and what they were read from

Every row in the row log was read in the directory of a trial of the plan, and what was there then
is there when the sweep has ended: the worker of the trial goes on to its other trials, whose
directories are apart, and the other workers never come near.  A worker's note lists the trials
whose rows it has read, before it hands these rows over.
-/

namespace MappingSweep

theorem Funnel.preserves_take (f : Funnel) (fs : FileSystem) :
    FileSystem.Preserves (· = f.log.place) fs (f.take fs).2 := by
  rcases f.files_take fs with hsame | ⟨content, hextend⟩
  · rw [hsame]
    exact .refl _ fs
  · rw [hextend]
    exact f.log.preserves_extend fs content

namespace Sweep

/-- The rows that were sent are noted, and what the noted rows were read from is still there. -/
structure RowsRead (plan : Plan) (notes : List (List Filed)) (w : World Funnel) : Prop where
  sent : ∃ sent : List Filed, (∀ e ∈ sent, e ∈ notes.flatten) ∧
    Funnel.Carries plan.rowLog plan.commands (sent.map (·.2)) w.sink w.files
  read : ∀ (i : Nat) note, notes[i]? = some note → ∀ e ∈ note,
    plan.mappings[i]? = some e.1.mapping ∧ e.1.pattern ∈ plan.patterns ∧
      e.2.ReadFrom e.1 plan w.files

variable {plan : Plan} {template : Template} {simulator : Simulator} {α : Type}
  {notes : List (List Filed)} {w : World Funnel} {i : Nat} {note : List Filed} {m : Mapping}
  {p : Pattern}

theorem RowsRead.of_mem (h : RowsRead plan notes w) {e : Filed} (he : e ∈ notes.flatten) :
    e.1 ∈ plan.trials ∧ e.2.ReadFrom e.1 plan w.files := by
  obtain ⟨note, hnote, he⟩ := List.mem_flatten.mp he
  obtain ⟨i, hi⟩ := List.mem_iff_getElem?.mp hnote
  obtain ⟨hmapping, hpattern, hread⟩ := h.read i note hi e he
  refine ⟨?_, hread⟩
  exact List.mem_flatMap.mpr
    ⟨e.1.mapping, List.mem_of_getElem? hmapping, List.mem_map.mpr ⟨e.1.pattern, hpattern, rfl⟩⟩

theorem RowsRead.of_grows {inside : Place → Prop} {fs : FileSystem} (h : RowsRead plan notes w)
    (hgrows : FileSystem.Grows inside w.files fs)
    (hfar : ∀ name, ¬ inside (plan.outputDir.place ++ [name]))
    (hout : ∀ e ∈ notes.flatten, ∀ q, e.1.Inside plan.outputDir q → ¬ inside q) :
    RowsRead plan notes { w with files := fs } := by
  obtain ⟨sent, hnoted, hcarries⟩ := h.sent
  refine ⟨⟨sent, hnoted, hcarries.of_entryAt_eq ?_⟩, ?_⟩
  · obtain ⟨x, hx⟩ := hcarries.file
    refine (hgrows.entryAt_eq ?_ hx).trans hx.symm
    rw [Plan.rowLog, plan.place_rowSinkPath]
    exact hfar _
  · intro i note hnote e he
    obtain ⟨hmapping, hpattern, hread⟩ := h.read i note hnote e he
    have hmem := List.mem_flatten.mpr ⟨note, List.mem_of_getElem? hnote, he⟩
    exact ⟨hmapping, hpattern, hread.of_grows hgrows (hfar _) (hout e hmem)⟩

/-- None of the noted trials is the one that the worker is about to run. -/
theorem RowsRead.name_ne (h : RowsRead plan notes w) (hvalid : plan.validate = .ok ())
    (hm : plan.mappings[i]? = some m) (hnote : notes[i]? = some note)
    (hnew : ∀ e ∈ note, e.1.name ≠ (Trial.mk m p).name) :
    ∀ e ∈ notes.flatten, e.1.name ≠ (Trial.mk m p).name := by
  intro e he
  obtain ⟨other, hother, he⟩ := List.mem_flatten.mp he
  obtain ⟨j, hj⟩ := List.mem_iff_getElem?.mp hother
  by_cases hij : j = i
  · subst hij
    cases hj.symm.trans hnote
    exact hnew e he
  · intro hname
    exact hij (Plan.index_eq_of_name hvalid (h.read j other hj e he).1 hm
      (Trial.name_inj.mp hname).1)

/-- A step of a trial that was not run before leaves the noted rows alone. -/
theorem RowsRead.keeps_files {a : Action SweepError FileSystem α} (hvalid : plan.validate = .ok ())
    (hm : plan.mappings[i]? = some m) (hnew : ∀ e ∈ note, e.1.name ≠ (Trial.mk m p).name)
    (hgrows : ∀ fs, FileSystem.Grows (Trial.Inside ⟨m, p⟩ plan.outputDir) fs (a fs).2) :
    Task.Keeps (RowsRead plan) i (fun last _ => last = note) (fun last _ => last = note) note
      (World.onFiles a) := by
  apply Action.keeps_task_of_same
  · intro notes w hnote h
    refine h.of_grows (hgrows w.files) (Trial.not_prefix_output ⟨m, p⟩ plan.outputDir) ?_
    intro e he q hq
    exact Trial.not_prefix_of_ne (h.name_ne hvalid hm hnote hnew e he) hq
  · intro notes w _ _
    split <;> rfl

theorem RowsRead.noteRow (h : RowsRead plan notes w) (hm : plan.mappings[i]? = some m)
    (hp : p ∈ plan.patterns) (hnote : notes[i]? = some note) {row : Row}
    (hrow : row.ReadFrom ⟨m, p⟩ plan w.files) :
    RowsRead plan (notes.set i (note ++ [(⟨m, p⟩, row)])) w := by
  constructor
  · obtain ⟨sent, hnoted, hcarries⟩ := h.sent
    refine ⟨sent, fun e he => ?_, hcarries⟩
    exact (flatten_set_append _ hnote).subset (List.mem_append_left _ (hnoted e he))
  · intro j other hother e he
    rcases getElem?_set_cases hother with ⟨rfl, rfl⟩ | ⟨-, hother⟩
    · rcases List.mem_append.mp he with he | he
      · exact h.read j note hnote e he
      · rw [List.mem_singleton.mp he]
        exact ⟨hm, hp, hrow⟩
    · exact h.read j other hother e he

/-- The notes of a worker when a trial has been read. -/
def noting (note : List Filed) (t : Trial) : Except SweepError Row → List Filed
  | .ok row => note ++ [(t, row)]
  | .error _ => note

/-- A row is noted when it is read. -/
theorem RowsRead.keeps_readRow (hm : plan.mappings[i]? = some m) (hp : p ∈ plan.patterns) :
    Task.Keeps (RowsRead plan) i (fun last row => last = note ++ [(⟨m, p⟩, row)])
      (fun _ _ => True) note
      (World.onFiles (Trial.readRow ⟨m, p⟩ plan (.ofTrial plan.outputDir ⟨m, p⟩))) := by
  apply Action.keeps_task fun w => noting note ⟨m, p⟩
    (Trial.readRow ⟨m, p⟩ plan (.ofTrial plan.outputDir ⟨m, p⟩) w.files).1
  · intro notes w hnote h
    have hsame : (Action.within World.files (fun w fs => { w with files := fs })
        (Trial.readRow ⟨m, p⟩ plan (.ofTrial plan.outputDir ⟨m, p⟩)) w).2 = w := rfl
    rw [hsame]
    cases hresult : (Trial.readRow ⟨m, p⟩ plan (.ofTrial plan.outputDir ⟨m, p⟩) w.files).1 with
    | ok row =>
      rw [noting]
      exact h.noteRow hm hp hnote (Row.readFrom_of_readRow hresult)
    | error e =>
      obtain ⟨hlt, hget⟩ := List.getElem?_eq_some_iff.mp hnote
      rwa [noting, ← hget, List.set_getElem_self]
  · intro notes w _ _
    simp only [Action.within]
    split
    · rename_i hresult
      rw [hresult, noting]
    · trivial

/-- Rows are handed over after they were noted. -/
theorem RowsRead.keeps_handover {e : Filed} (he : e ∈ note) :
    Task.Keeps (RowsRead plan) i (fun last _ => last = note) (fun _ _ => True) note
      (World.onSink (.change (funnelSink.append e.2))) := by
  apply Action.keeps_task_of_same
  · intro notes w hnote h
    simp only [Action.within, Action.change]
    cases hsend : funnelSink.append e.2 w.sink with
    | error _ => exact h
    | ok f =>
      obtain ⟨sent, hnoted, hcarries⟩ := h.sent
      refine ⟨⟨sent ++ [e], ?_, ?_⟩, h.read⟩
      · intro other hother
        rcases List.mem_append.mp hother with hother | hother
        · exact hnoted other hother
        · rw [List.mem_singleton.mp hother]
          exact List.mem_flatten.mpr ⟨note, List.mem_of_getElem? hnote, he⟩
      · rw [List.map_append, List.map_singleton]
        exact hcarries.send hsend
  · intro notes w _ _
    split <;> trivial

theorem RowsRead.writerStep (h : RowsRead plan notes w) : RowsRead plan notes (writerStep w) := by
  obtain ⟨sent, hnoted, hcarries⟩ := h.sent
  refine ⟨⟨sent, hnoted, hcarries.take⟩, ?_⟩
  intro i note hnote e he
  obtain ⟨hmapping, hpattern, hread⟩ := h.read i note hnote e he
  refine ⟨hmapping, hpattern, hread.of_preserves (w.sink.preserves_take w.files) ?_⟩
  rintro q hq rfl
  rw [hcarries.log_eq] at hq
  exact not_inside_rowLog plan e.1 hq

theorem RowsRead.keeps_task (hvalid : plan.validate = .ok ()) (hsim : simulator.Confined)
    (hm : plan.mappings[i]? = some m) (hp : p ∈ plan.patterns)
    (hnew : ∀ e ∈ note, e.1.name ≠ (Trial.mk m p).name) :
    Task.Keeps (RowsRead plan) i (fun last row => last = note ++ [(⟨m, p⟩, row)])
      (fun _ _ => True) note (Trial.task plan template simulator funnelSink ⟨m, p⟩) := by
  have hfiles : ∀ {α : Type} (a : Action SweepError FileSystem α),
      (∀ fs, FileSystem.Grows (Trial.Inside ⟨m, p⟩ plan.outputDir) fs (a fs).2) →
        Task.Keeps (RowsRead plan) i (fun last _ => last = note) (fun last _ => last = note) note
          (World.onFiles a) :=
    fun a ha => RowsRead.keeps_files hvalid hm hnew ha
  apply (Sweep.keeps_task hfiles template
    (hfiles _ fun fs => Trial.grows_simulator ⟨m, p⟩ fs hsim plan.outputDir)
    (RowsRead.keeps_readRow hm hp) _ trivial).mono (fun _ _ => id) fun _ _ _ => trivial
  rintro _ row rfl
  have hmem : (⟨m, p⟩, row) ∈ note ++ [(⟨m, p⟩, row)] :=
    List.mem_append_right _ (List.mem_singleton_self _)
  exact RowsRead.keeps_handover hmem

theorem RowsRead.keeps_patternsThread (hvalid : plan.validate = .ok ()) (hsim : simulator.Confined)
    (hm : plan.mappings[i]? = some m) {patterns : List Pattern}
    (hpatterns : patterns ⊆ plan.patterns)
    (hnodup : (patterns.map (·.name)).Nodup)
    (hnew : ∀ e ∈ note, ∀ p ∈ patterns, e.1.name ≠ (Trial.mk m p).name) :
    Thread.Keeps (RowsRead plan) i (fun _ _ => True) note
      (patternsThread plan template simulator funnelSink m patterns) := by
  induction patterns generalizing note with
  | nil => exact .ended trivial
  | cons p rest ih =>
    rw [List.map_cons, List.nodup_cons] at hnodup
    apply Thread.Keeps.andThen (RowsRead.keeps_task hvalid hsim hm (hpatterns List.mem_cons_self)
      fun e he => hnew e he p List.mem_cons_self)
    intro last result hresult
    cases result with
    | error e => exact .ended trivial
    | ok row =>
      obtain rfl := hresult
      apply Thread.Keeps.andThen (ih (fun other hother => hpatterns (List.mem_cons_of_mem p hother))
        hnodup.2 ?_)
      · exact fun _ report _ => .ended trivial
      · intro e he other hother
        rcases List.mem_append.mp he with he | he
        · exact hnew e he other (List.mem_cons_of_mem p hother)
        · rw [List.mem_singleton.mp he]
          intro hname
          exact hnodup.1 ((Trial.name_inj.mp hname).2 ▸ List.mem_map_of_mem hother)

theorem RowsRead.keeps_worker (hvalid : plan.validate = .ok ()) (hsim : simulator.Confined)
    (hm : plan.mappings[i]? = some m) :
    Thread.Keeps (RowsRead plan) i (fun _ _ => True) []
      (worker plan template simulator funnelSink m) := by
  have hopen : Task.Keeps (RowsRead plan) i (fun last _ => last = []) (fun _ _ => True) []
      (World.onFiles (openMapping plan m)) := by
    apply Action.keeps_task_of_same
    · intro notes w _ h
      have hgrows := FileSystem.grows_createDirectories w.files (m.directory plan.outputDir)
      exact h.of_grows hgrows (fun _ => id) fun _ _ _ _ => id
    · intro notes w _ _
      split <;> trivial
  unfold worker
  apply Thread.Keeps.andThen hopen
  intro note result hresult
  cases result with
  | error e => exact .ended trivial
  | ok _ =>
    obtain rfl := hresult
    have hnodup := (Plan.nodup_names hvalid).2
    exact RowsRead.keeps_patternsThread hvalid hsim hm (fun _ hp => hp) hnodup (by simp)

end Sweep

/-! ## Whole sweeps -/

namespace RowLog

/-- A file holds the records of one list of rows only. -/
theorem Holds.records_eq {log : RowLog} {commands : List String} {rows rows' : List Row}
    {fs : FileSystem} (h : log.Holds commands rows fs) (h' : log.Holds commands rows' fs)
    (hwidth : log.width = (Row.header commands).length) (hfits : ∀ row ∈ rows, log.Fits row)
    (hfits' : ∀ row ∈ rows', log.Fits row) : rows.map Row.record = rows'.map Row.record := by
  obtain ⟨content, x, hentry, -, hread⟩ := h.holdsTable hwidth hfits
  obtain ⟨content', x', hentry', -, hread'⟩ := h'.holdsTable hwidth hfits'
  cases hentry.symm.trans hentry'
  exact (List.cons.inj (Except.ok.inj (hread.symm.trans hread'))).2

end RowLog

namespace Run

open Sweep (Filed RowsRead)

variable {plan : Plan} {simulator : Simulator} {fs : FileSystem}

/-- Whoever takes turns, every row of a drained log was read in the directory of a trial, and what
it was read from is there. -/
theorem rows_read_of_drained (hvalid : plan.validate = .ok ()) (hsim : simulator.Confined)
    (template : Template) (turns : List Turn)
    (hstart : Funnel.Carries plan.rowLog plan.commands [] { log := plan.rowLog } fs)
    {rows : List Row} (hfits : ∀ row ∈ rows, plan.rowLog.Fits row)
    (hrows : plan.rowLog.Holds plan.commands rows
      (drainUnder turns plan template simulator plan.rowLog fs).2) :
    ∀ row ∈ rows, ∃ e : Filed, e.1 ∈ plan.trials ∧ e.2.record = row.record ∧
      e.2.ReadFrom e.1 plan (drainUnder turns plan template simulator plan.rowLog fs).2 := by
  have hsound : Pool.Sound (RowsRead plan) (fun _ _ _ => True) (plan.mappings.map fun _ => [])
      ⟨⟨fs, { log := plan.rowLog }⟩,
        plan.mappings.map (Sweep.worker plan template simulator Sweep.funnelSink)⟩ := by
    apply Sweep.sound_of_keeps
    · refine ⟨⟨[], by simp, hstart⟩, ?_⟩
      intro i note hnote e he
      obtain ⟨m, -, rfl⟩ := List.mem_map.mp (List.mem_of_getElem? hnote)
      cases he
    · exact fun i m hm => RowsRead.keeps_worker hvalid hsim hm
  obtain ⟨reports, notes, w, hinv, -, -, -, hdrain⟩ :=
    exists_drained hsound (fun _ _ h => h.writerStep) turns
  rw [hdrain, Funnel.finish_eq] at hrows ⊢
  have hlast : RowsRead plan notes ⟨(w.sink.drain w.files).2, (w.sink.drain w.files).1⟩ :=
    Funnel.drain_keeps (fun f fs h => RowsRead.writerStep (w := ⟨fs, f⟩) h) w.sink w.files hinv
  obtain ⟨sent, hnoted, hcarries⟩ := hlast.sent
  have hrecords := hrows.records_eq hcarries.file rfl hfits hcarries.fits
  intro row hrow
  have hmem : row.record ∈ rows.map Row.record := List.mem_map_of_mem hrow
  rw [hrecords] at hmem
  obtain ⟨row', hrow', hrecord⟩ := List.mem_map.mp hmem
  obtain ⟨e, he, rfl⟩ := List.mem_map.mp (List.mem_of_mem_take hrow')
  obtain ⟨htrial, hread⟩ := hlast.of_mem (hnoted e he)
  exact ⟨e, htrial, hrecord, hread⟩

end Run
end MappingSweep
