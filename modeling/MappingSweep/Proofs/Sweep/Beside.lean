import MappingSweep.Proofs.Mirror
import MappingSweep.Proofs.Sweep.Standing
import MappingSweep.Proofs.Trial.Stages

/-!
# Workers among other workers

A worker does on the common files and the common sink what it does by itself, as far as its own
mapping goes: the places in the directory of the mapping, and the rows with its name.  This needs
that the way to the output directory leads through no trial's directory.  The places on that way
belong to no mapping, since whoever comes first makes them.
-/

namespace MappingSweep

/-- The way to the output directory leads through no trial's directory. -/
def Plan.Aside (plan : Plan) : Prop :=
  ∀ t ∈ plan.trials, ∀ q ∈ plan.outputDir.stations, ¬ t.Inside plan.outputDir q

namespace Mapping

variable (m : Mapping)

def rowsIn (rows : List Row) : List Row :=
  rows.filter fun row => row.mapping = m.name

/-- A place in the directory of the mapping, and not on the way to the output directory. -/
def Owns (outputDir : Path) (q : Place) : Prop :=
  m.place outputDir <+: q ∧ q ∉ outputDir.stations

end Mapping

/-- Both worlds have the same places and rows of the mapping. -/
structure World.SameFor {σ : Type} (outputDir : Path) (contents : σ → List Row) (m : Mapping)
    (w v : World σ) : Prop where
  entries : ∀ q, m.Owns outputDir q → w.files.entryAt q = v.files.entryAt q
  rows : m.rowsIn (contents w.sink) = m.rowsIn (contents v.sink)

namespace World.SameFor

variable {σ : Type} {outputDir : Path} {contents : σ → List Row} {m : Mapping} {w v u : World σ}

theorem symm (h : SameFor outputDir contents m w v) : SameFor outputDir contents m v w :=
  ⟨fun q hq => (h.entries q hq).symm, h.rows.symm⟩

theorem trans (h : SameFor outputDir contents m w v) (h' : SameFor outputDir contents m v u) :
    SameFor outputDir contents m w u :=
  ⟨fun q hq => (h.entries q hq).trans (h'.entries q hq), h.rows.trans h'.rows⟩

end World.SameFor

namespace Sweep

variable {σ : Type} {plan : Plan} {template : Template} {simulator : Simulator} {sink : Sink σ}
  {contents : σ → List Row} {m n : Mapping} {start w w' v : World σ} {q : Place}

theorem owns_of_inTrialOf (haside : plan.Aside) (hm : m ∈ plan.mappings)
    (h : plan.InTrialOf m q) : m.Owns plan.outputDir q := by
  obtain ⟨p, hp, hinside⟩ := h
  refine ⟨(List.prefix_append _ _).trans hinside, fun hq => ?_⟩
  refine haside ⟨m, p⟩ ?_ q hq hinside
  exact List.mem_flatMap.mpr ⟨m, hm, List.mem_map.mpr ⟨p, hp, rfl⟩⟩

theorem not_owns_station (hne : n.name ≠ m.name) (hq : n.Owns plan.outputDir q) :
    q ∉ (m.directory plan.outputDir).stations := by
  rw [stations_directory, List.mem_append, List.mem_singleton]
  rintro (hstation | rfl)
  · exact hq.2 hstation
  · exact hne (Mapping.name_eq_of_place hq.1 (List.prefix_refl _))

/-- A step of the worker of a mapping. -/
structure StepOf (plan : Plan) (contents : σ → List Row) (m : Mapping) (w w' : World σ) :
    Prop where
  grows : FileSystem.Grows (plan.InTrialOf m) w.files w'.files
  others : ∀ n : Mapping, n.name ≠ m.name → World.SameFor plan.outputDir contents n w' w

/-- A step of any other worker. -/
structure StepBeside (plan : Plan) (contents : σ → List Row) (m : Mapping) (w w' : World σ) :
    Prop where
  grows : FileSystem.Grows (fun q => ∃ n ∈ plan.mappings, plan.InTrialOf n q) w.files w'.files
  same : World.SameFor plan.outputDir contents m w' w

theorem StepOf.beside (h : StepOf plan contents m w w') (hm : m ∈ plan.mappings)
    (hne : n.name ≠ m.name) : StepBeside plan contents n w w' :=
  ⟨h.grows.mono fun _ hq => ⟨m, hm, hq⟩, h.others n hne⟩

theorem apart_mappings (hvalid : plan.validate = .ok ()) :
    Pool.Apart (StepBeside plan contents) (StepOf plan contents) plan.mappings := by
  have hnodup := (Plan.nodup_names hvalid).1
  rw [List.Nodup, List.pairwise_map] at hnodup
  refine hnodup.imp_of_mem ?_
  intro m n hm hn hne w w'
  exact ⟨fun h => h.beside hm hne.symm, fun h => h.beside hn hne⟩

/-- The worker has done nothing yet. -/
structure Unopened (plan : Plan) (contents : σ → List Row) (m : Mapping) (start w v : World σ) :
    Prop where
  grown : FileSystem.Grows (fun q => ∃ n ∈ plan.mappings, plan.InTrialOf n q) start.files w.files
  same : World.SameFor plan.outputDir contents m w start
  own : v = start

theorem Unopened.beside (h : Unopened plan contents m start w v)
    (hstep : StepBeside plan contents m w w') : Unopened plan contents m start w' v :=
  ⟨h.grown.trans hstep.grows, hstep.same.trans h.same, h.own⟩

theorem Unopened.made_iff (h : Unopened plan contents m start w v) (haside : plan.Aside) :
    (w.files.createDirectories (m.directory plan.outputDir)).1 = .ok () ↔
      (start.files.createDirectories (m.directory plan.outputDir)).1 = .ok () := by
  apply h.grown.createDirectories_eq_ok_iff (Path.endsWithDot_join m.isName)
  rintro q hq ⟨n, hn, hin⟩
  exact not_inTrialOf_station haside hn m hq hin

theorem stepOf_opened (plan : Plan) (contents : σ → List Row) (m : Mapping) (w : World σ) :
    StepOf plan contents m w (opened plan w m) := by
  refine ⟨?_, fun n hne => ⟨fun q hq => ?_, rfl⟩⟩
  · exact (FileSystem.grows_createDirectories _ _).mono fun _ => False.elim
  · exact FileSystem.entryAt_createDirectories _ (not_owns_station hne hq)

/-- The directory that was made is the only place of the mapping where anything changes. -/
theorem entryAt_opened (w : World σ) (hq : m.Owns plan.outputDir q)
    (hne : q ≠ m.place plan.outputDir) :
    (opened plan w m).files.entryAt q = w.files.entryAt q := by
  apply FileSystem.entryAt_createDirectories
  rw [stations_directory, List.mem_append, List.mem_singleton]
  rintro (hstation | rfl)
  · exact hq.2 hstation
  · exact hne rfl

/-- A directory that could not be made leaves the places of the mapping as they were. -/
theorem Unopened.failed (h : Unopened plan contents m start w v) (haside : plan.Aside)
    (hfailed : (start.files.createDirectories (m.directory plan.outputDir)).1 ≠ .ok ()) :
    World.SameFor plan.outputDir contents m (opened plan w m) (opened plan start m) := by
  have hunmade : ∀ files : FileSystem,
      (files.createDirectories (m.directory plan.outputDir)).1 ≠ .ok () →
        ∀ q, m.Owns plan.outputDir q →
          (files.createDirectories (m.directory plan.outputDir)).2.entryAt q = files.entryAt q := by
    intro files hfiles q hq
    apply FileSystem.entryAt_of_failed (text_directory m _) hfiles
    rw [stations_directory, List.dropLast_concat]
    exact hq.2
  refine ⟨fun q hq => ?_, h.same.rows⟩
  have hfailed' : (w.files.createDirectories (m.directory plan.outputDir)).1 ≠ .ok () :=
    fun hok => hfailed ((h.made_iff haside).mp hok)
  exact (hunmade _ hfailed' q hq).trans ((h.same.entries q hq).trans (hunmade _ hfailed q hq).symm)

/-- The way to the mapping is open, and both worlds have the same of it. -/
structure Opened (plan : Plan) (contents : σ → List Row) (m : Mapping) (w v : World σ) :
    Prop where
  files : World.Alike (m.directory plan.outputDir).stations (m.Owns plan.outputDir) w v
  rows : m.rowsIn (contents w.sink) = m.rowsIn (contents v.sink)

theorem Opened.same (h : Opened plan contents m w v) :
    World.SameFor plan.outputDir contents m w v :=
  ⟨h.files.same, h.rows⟩

theorem Opened.beside (h : Opened plan contents m w v) (haside : plan.Aside)
    (hstep : StepBeside plan contents m w w') : Opened plan contents m w' v := by
  refine ⟨⟨?_, h.files.right, ?_⟩, hstep.same.rows.trans h.rows⟩
  · intro q hq
    apply hstep.grows.entryAt_eq _ (h.files.left q hq)
    rintro ⟨n, hn, hin⟩
    exact not_inTrialOf_station haside hn m hq hin
  · exact fun q hq => (hstep.same.entries q hq).trans (h.files.same q hq)

theorem Unopened.made (h : Unopened plan contents m start w v) (haside : plan.Aside)
    (hmade : (start.files.createDirectories (m.directory plan.outputDir)).1 = .ok ()) :
    Opened plan contents m (opened plan w m) (opened plan start m) := by
  have hleft := FileSystem.open_of_createDirectories (text_directory m _)
    ((h.made_iff haside).mpr hmade)
  have hright := FileSystem.open_of_createDirectories (text_directory m _) hmade
  refine ⟨⟨hleft, hright, fun q hq => ?_⟩, h.same.rows⟩
  by_cases hplace : q = m.place plan.outputDir
  · have hstation : q ∈ (m.directory plan.outputDir).stations := by
      rw [stations_directory, hplace]
      exact List.mem_append_right _ (List.mem_singleton_self _)
    exact (hleft q hstation).trans (hright q hstation).symm
  · rw [entryAt_opened w hq hplace, entryAt_opened start hq hplace]
    exact h.same.entries q hq

/-! ## Trials and workers -/

theorem isolated_onFiles_of_opened {α : Type} {p : Pattern} (haside : plan.Aside)
    (hm : m ∈ plan.mappings) (hp : p ∈ plan.patterns) {a : Action SweepError FileSystem α}
    (h : a.Enclosed (m.directory plan.outputDir).stations
      (Trial.Inside ⟨m, p⟩ plan.outputDir)) :
    Task.Isolated (Opened plan contents m) (StepOf plan contents m) (World.onFiles a) := by
  have hin : ∀ q, Trial.Inside ⟨m, p⟩ plan.outputDir q → plan.InTrialOf m q :=
    fun q hq => ⟨p, hp, hq⟩
  have hroad : ∀ q ∈ (m.directory plan.outputDir).stations,
      ¬ Trial.Inside ⟨m, p⟩ plan.outputDir q :=
    fun q hq hinside => not_inTrialOf_station haside hm m hq (hin q hinside)
  apply Action.isolated_task
  · intro w v hopened
    exact ⟨h.alike (fun q hq => owns_of_inTrialOf haside hm (hin q hq)) hroad hopened.files,
      hopened.rows⟩
  · intro w v hopened
    have houtside := h.outside w.files hopened.files.left
    refine ⟨FileSystem.grows_of_same fun q hq => houtside q fun hinside => hq (hin q hinside), ?_⟩
    refine fun n hne => ⟨fun q hq => houtside q fun hinside => hne ?_, rfl⟩
    exact Mapping.name_eq_of_place hq.1 ((List.prefix_append _ _).trans hinside)
  · intro w v hopened
    exact h.result _ _ (hopened.files.mono fun q hq =>
      owns_of_inTrialOf haside hm (hin q hq))

theorem isolated_append_of_opened (haccepts : sink.Accepts) (hrecords : sink.Records contents)
    {row : Row} (hrow : row.mapping = m.name) :
    Task.Isolated (Opened plan contents m) (StepOf plan contents m)
      (World.onSink (.change (sink.append row))) := by
  have hok : ∀ s, ∃ s', Action.change (sink.append row) s = (.ok (), s') ∧
      contents s' = contents s ++ [row] := by
    intro s
    obtain ⟨s', hs⟩ := haccepts row s
    exact ⟨s', by rw [Action.change, hs], hrecords row s s' hs⟩
  apply Action.isolated_task
  · intro w v hopened
    obtain ⟨s, hs, hcontents⟩ := hok w.sink
    obtain ⟨s', hs', hcontents'⟩ := hok v.sink
    simp only [Action.within, hs, hs']
    refine ⟨hopened.files, ?_⟩
    simp only [Mapping.rowsIn, hcontents, hcontents', List.filter_append]
    exact congrArg (· ++ _) hopened.rows
  · intro w v _
    obtain ⟨s, hs, hcontents⟩ := hok w.sink
    simp only [Action.within, hs]
    refine ⟨.refl _ _, fun n hne => ⟨fun _ _ => rfl, ?_⟩⟩
    have hother : ¬ row.mapping = n.name := fun heq => hne (heq.symm.trans hrow)
    simp only [Mapping.rowsIn, hcontents, List.filter_append, List.filter_singleton]
    simp [hother]
  · intro w v _
    obtain ⟨s, hs, -⟩ := hok w.sink
    obtain ⟨s', hs', -⟩ := hok v.sink
    simp only [Action.within, hs, hs']

/-- What is asked of simulator and sink so that mappings do not meet. -/
structure Separate (plan : Plan) (simulator : Simulator) (sink : Sink σ)
    (contents : σ → List Row) : Prop where
  aside : plan.Aside
  confined : simulator.Confined
  isLocal : simulator.Local
  accepts : sink.Accepts
  records : sink.Records contents

theorem isolated_patternsThread_of_opened (h : Separate plan simulator sink contents)
    (template : Template) (hm : m ∈ plan.mappings) :
    Thread.Isolated (Opened plan contents m) (StepOf plan contents m)
      (patternsThread plan template simulator sink m plan.patterns) :=
  isolated_patternsThread_of_tasks fun p hp =>
    Trial.isolated_task_of_enclosed ⟨m, p⟩ template h.confined h.isLocal
      (fun _ henclosed => isolated_onFiles_of_opened h.aside hm hp henclosed)
      fun _ hrow => isolated_append_of_opened h.accepts h.records hrow.1

/-- The same of the mapping is reported and left, and unless its directory could not be made the way
to it is open in the end. -/
structure Agrees (plan : Plan) (contents : σ → List Row) (m : Mapping)
    (left right : WorkerReport × World σ) : Prop where
  finished : left.1.finished = right.1.finished
  failure : left.1.failure.map (·.1) = right.1.failure.map (·.1)
  same : World.SameFor plan.outputDir contents m left.2 right.2
  way : right.1.failure.map (·.1) ≠ some m.name →
    left.2.files.Open (m.directory plan.outputDir).stations ∧
      right.2.files.Open (m.directory plan.outputDir).stations

/-- What a worker does once it has tried to make the directory of its mapping. -/
def afterOpening (plan : Plan) (template : Template) (simulator : Simulator) (sink : Sink σ)
    (m : Mapping) : Except OsError Unit → Thread (World σ) WorkerReport
  | .ok () => patternsThread plan template simulator sink m plan.patterns
  | .error e => .ended { failure := some (m.name, .io (m.directory plan.outputDir) (.os e)) }

theorem worker_eq (plan : Plan) (template : Template) (simulator : Simulator) (sink : Sink σ)
    (m : Mapping) : worker plan template simulator sink m =
      .step (opened plan · m) fun w => afterOpening plan template simulator sink m
        (w.files.createDirectories (m.directory plan.outputDir)).1 := by
  apply congrArg (Thread.step _)
  funext w
  simp only [Action.within, openMapping, Action.mapError]
  cases (w.files.createDirectories (m.directory plan.outputDir)).1 <;> rfl

theorem mirrors_worker (h : Separate plan simulator sink contents) (template : Template)
    (hm : m ∈ plan.mappings) (start : World σ) :
    (worker plan template simulator sink m).Mirrors (StepBeside plan contents m)
      (StepOf plan contents m) (Agrees plan contents m) (Unopened plan contents m start)
      (worker plan template simulator sink m) := by
  rw [worker_eq]
  by_cases hmade : (start.files.createDirectories (m.directory plan.outputDir)).1 = .ok ()
  · refine .step (fun _ _ => Opened plan contents m) (fun _ _ _ => Unopened.beside)
      (fun w _ _ => stepOf_opened plan contents m w) ?_ ?_
    · intro w v hs
      rw [hs.own]
      exact hs.made h.aside hmade
    · intro w v hs
      rw [hs.own]
      rw [hmade, (hs.made_iff h.aside).mpr hmade]
      apply (isolated_patternsThread_of_opened h template hm).mirrors
      · exact fun _ _ _ hopened => hopened.beside h.aside
      · exact fun _ _ _ hopened => ⟨rfl, rfl, hopened.same, fun _ =>
          ⟨hopened.files.left, hopened.files.right⟩⟩
  · refine .step (fun _ _ => World.SameFor plan.outputDir contents m)
      (fun _ _ _ => Unopened.beside) (fun w _ _ => stepOf_opened plan contents m w) ?_ ?_
    · intro w v hs
      rw [hs.own]
      exact hs.failed h.aside hmade
    · intro w v hs
      rw [hs.own]
      have hfailed : (w.files.createDirectories (m.directory plan.outputDir)).1 ≠ .ok () :=
        fun hok => hmade ((hs.made_iff h.aside).mp hok)
      cases hcreate : (w.files.createDirectories (m.directory plan.outputDir)).1 with
      | ok _ => exact absurd hcreate hfailed
      | error e =>
        cases hcreate' : (start.files.createDirectories (m.directory plan.outputDir)).1 with
        | ok _ => exact absurd hcreate' hmade
        | error e' =>
          refine .ended (fun _ _ _ hsame hstep => hstep.same.trans hsame) ?_
          exact fun _ _ hsame => ⟨rfl, rfl, hsame, fun hne => absurd rfl hne⟩

end Sweep
end MappingSweep
