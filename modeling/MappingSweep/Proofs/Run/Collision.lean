import MappingSweep.Proofs.Run.Frame

/-!
# Names that are in the way

After a sweep without failures every mapping has its directory.  A mapping that has the name of a
file of the run has it where that file belongs, so that no run with such a mapping completes.
-/

namespace MappingSweep

/-- The files that a run makes next to the directories of the mappings. -/
def Plan.ownNames : List String :=
  ["result.csv", "result_report.csv", "summary.json"]

theorem FileSystem.directory_extend {fs : FileSystem} {place q : Place} {content : ByteArray}
    (h : fs.entryAt q = some .directory) :
    (fs.extend place content).entryAt q = some .directory := by
  unfold extend
  split
  · rename_i hfile
    rw [entryAt_set_of_ne, h]
    rintro rfl
    rw [h] at hfile
    cases hfile
  · exact h

/-- A directory stays where it is, whatever the writer does. -/
theorem Funnel.directory_take (f : Funnel) {fs : FileSystem} {q : Place}
    (h : fs.entryAt q = some .directory) : (f.take fs).2.entryAt q = some .directory := by
  rcases f.files_take fs with hsame | ⟨content, hextend⟩
  · rw [hsame, h]
  · rw [hextend]
    exact FileSystem.directory_extend h

namespace Sweep

variable {plan : Plan} {template : Template} {simulator : Simulator} {m : Mapping} {i : Nat}
  {notes : List Bool} {w : World Funnel}

/-- The workers with a note have made their directories. -/
def Made (plan : Plan) (notes : List Bool) (w : World Funnel) : Prop :=
  ∀ (i : Nat) m, plan.mappings[i]? = some m → notes[i]? = some true →
    w.files.entryAt (m.place plan.outputDir) = some .directory

theorem Made.of_grows {inside : Place → Prop} {fs : FileSystem} (h : Made plan notes w)
    (hgrows : FileSystem.Grows inside w.files fs)
    (hout : ∀ m : Mapping, ¬ inside (m.place plan.outputDir)) :
    Made plan notes { w with files := fs } :=
  fun i m hm hnote => hgrows.entryAt_eq (hout m) (h i m hm hnote)

theorem kept_made (hsim : simulator.Confined) (notes : List Bool) :
    Kept plan simulator funnelSink (Made plan notes) where
  create w p h := h.of_grows (FileSystem.grows_createDirectories w.files p) fun _ => id
  grow _ t _ h hgrows :=
    h.of_grows hgrows fun m => t.not_prefix_output plan.outputDir m.name
  simulate w t h :=
    h.of_grows (t.grows_simulator w.files hsim plan.outputDir) fun m =>
      t.not_prefix_output plan.outputDir m.name
  append _ _ _ h _ := h

theorem keeps_openMapping_made (hm : plan.mappings[i]? = some m) :
    Task.Keeps (Made plan) i (fun last _ => last = true) (fun _ _ => True) false
      (World.onFiles (openMapping plan m)) := by
  have hgrows : ∀ fs, FileSystem.Grows (fun _ => False) fs (openMapping plan m fs).2 :=
    fun fs => FileSystem.grows_createDirectories fs (m.directory plan.outputDir)
  have hmade : ∀ fs, (openMapping plan m fs).1.isOk = true →
      (openMapping plan m fs).2.entryAt (m.place plan.outputDir) = some .directory := by
    intro fs hok
    have hcreated : (fs.createDirectories (m.directory plan.outputDir)).1 = .ok () := by
      simp only [openMapping, Action.mapError] at hok
      cases hresult : (fs.createDirectories (m.directory plan.outputDir)).1 with
      | ok _ => rfl
      | error e => rw [hresult] at hok; cases hok
    rw [← m.place_directory]
    exact FileSystem.open_of_createDirectories (text_directory ..) hcreated _
      (m.directory plan.outputDir).place_mem_stations
  apply Action.keeps_task fun w => (openMapping plan m w.files).1.isOk
  · intro notes w _ h j n hn hnote
    rcases getElem?_set_cases hnote with ⟨rfl, hok⟩ | ⟨-, hnote⟩
    · cases hm.symm.trans hn
      exact hmade w.files hok
    · exact (hgrows w.files).entryAt_eq id (h j n hn hnote)
  · intro notes w _ _
    simp only [Action.within]
    cases (openMapping plan m w.files).1 with
    | ok _ => rfl
    | error e => trivial

theorem keeps_worker_made (hsim : simulator.Confined) (hm : plan.mappings[i]? = some m) :
    Thread.Keeps (Made plan) i (fun last report => report.failure = none → last = true) false
      (worker plan template simulator funnelSink m) := by
  unfold worker
  apply Thread.Keeps.andThen (keeps_openMapping_made hm)
  intro last result hresult
  cases result with
  | error e => exact .ended fun hfailure => by cases hfailure
  | ok _ =>
    obtain rfl : last = true := hresult
    apply (Kept.keeps_patternsThread (kept_made hsim) template m fun _ hp => hp).mono
    exact fun _ report hreport _ => hreport.1

end Sweep

namespace Run

variable {plan : Plan} {template : Template} {simulator : Simulator} {m : Mapping}
  {turns : List Turn} {elapsed : Float} {fs : FileSystem}

/-- In a sweep without failures every mapping has its directory in the end. -/
theorem directory_of_drained (hsim : simulator.Confined) {log : RowLog}
    (herror : (drainUnder turns plan template simulator log fs).1.outcome.error = none)
    (hm : m ∈ plan.mappings) :
    (drainUnder turns plan template simulator log fs).2.entryAt (m.place plan.outputDir) =
      some .directory := by
  have hsound : Pool.Sound (Sweep.Made plan)
      (fun _ last report => report.failure = none → last = true) (plan.mappings.map fun _ => false)
      ⟨⟨fs, { log }⟩,
        plan.mappings.map (Sweep.worker plan template simulator Sweep.funnelSink)⟩ := by
    apply Sweep.sound_of_keeps
    · intro i m _ hnote
      rw [List.getElem?_map] at hnote
      obtain ⟨_, -, hnone⟩ := Option.map_eq_some_iff.mp hnote
      cases hnone
    · exact fun i m hm => Sweep.keeps_worker_made hsim hm
  obtain ⟨reports, notes, w, hmade, hlength, hcount, hpost, hdrain⟩ :=
    exists_drained hsound (fun _ w h i m hm hnote => w.sink.directory_take (h i m hm hnote)) turns
  rw [hdrain] at herror ⊢
  obtain ⟨i, hi⟩ := List.mem_iff_getElem?.mp hm
  obtain ⟨hlt, -⟩ := List.getElem?_eq_some_iff.mp hi
  have hreport : reports[i]? = some reports[i] := List.getElem?_eq_getElem (by omega)
  have hnote : notes[i]? = some notes[i] := List.getElem?_eq_getElem (by omega)
  have hfailure := Sweep.failures_of_error herror _ (List.mem_of_getElem? hreport)
  rw [hpost i _ _ hnote hreport hfailure] at hnote
  let there : Funnel → FileSystem → Prop := fun _ fs =>
    fs.entryAt (m.place plan.outputDir) = some .directory
  rw [Funnel.finish_eq]
  exact @Funnel.drain_keeps there (fun f _ h => f.directory_take h) w.sink w.files
    (hmade i m hi hnote)

/-- After a run that completes no directory is where a file of the run belongs. -/
theorem Concluded.not_directory {drained : Drained} {sent : List Sweep.Filed} {summary : Summary}
    {rows : Nat} {report : Path} {swept settled reported fs' : FileSystem}
    (h : Concluded plan drained summary rows report swept settled reported fs')
    (hfiling : Filing plan sent drained swept) {name : String} (hname : name ∈ Plan.ownNames) :
    swept.entryAt (plan.outputDir.place ++ [name]) ≠ some .directory := by
  intro hdir
  obtain ⟨text, hsettle⟩ := h.settle
  have hsummary := mapError_eq_ok hsettle
  simp only [Plan.ownNames, List.mem_cons, List.not_mem_nil, or_false] at hname
  rcases hname with rfl | rfl | rfl
  · obtain ⟨x, hfile⟩ := hfiling.file
    rw [Plan.rowLog, plan.place_rowSinkPath, hdir] at hfile
    cases hfile
  · obtain ⟨made, hbuild, -⟩ := h.build
    obtain ⟨_, _, _, -, -, hwrite, -⟩ := Report.build_eq_ok hbuild
    obtain ⟨x, -, hnotdir⟩ := FileSystem.writeBytes_eq_ok hwrite
    rw [plan.place_reportPath] at hnotdir
    exact hnotdir ((FileSystem.preserves_writeBytes hsummary).directory _ hdir)
  · obtain ⟨x, -, hnotdir⟩ := FileSystem.writeBytes_eq_ok hsummary
    rw [plan.place_summaryPath] at hnotdir
    exact hnotdir hdir

theorem exists_of_isCompleted {result : Except RunError RunOutcome}
    (h : isCompleted result = true) :
    ∃ summary rows report, result = .ok (.completed summary rows report) := by
  unfold isCompleted at h
  split at h
  · exact ⟨_, _, _, rfl⟩
  · cases h

/-- With a mapping that has the name of a file of the run no run completes. -/
theorem not_completed_of_own_name (hsim : simulator.Confined) (hm : m ∈ plan.mappings)
    (hname : m.name ∈ Plan.ownNames) :
    isCompleted (runUnder turns plan simulator elapsed fs).1 = false := by
  rw [← Bool.not_eq_true]
  intro hcompleted
  obtain ⟨summary, rows, report, hresult⟩ := exists_of_isCompleted hcompleted
  obtain ⟨drained, swept, hsweep, hconclude⟩ := runUnder_eq_ok (Prod.ext hresult rfl)
  obtain ⟨settled, reported, hconcluded⟩ := conclude_eq_ok hconclude
  obtain ⟨template, log, before, created, hcreate, hdrain⟩ := sweepUnder_eq_ok hsweep
  obtain rfl : log = plan.rowLog := (RowLog.create_eq_ok hcreate).1
  obtain ⟨sent, hfiling⟩ := exists_filing hsim template turns (Funnel.carries_create hcreate)
  have herror := hconcluded.error
  have hdir := directory_of_drained hsim (by rw [hdrain]; exact herror) hm
  rw [hdrain] at hfiling hdir
  exact hconcluded.not_directory hfiling hname hdir

end Run
end MappingSweep
