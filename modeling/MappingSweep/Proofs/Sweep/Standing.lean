import MappingSweep.Proofs.FileSystem.Walk
import MappingSweep.Proofs.Trial.Isolation
import MappingSweep.Sweep.Basic

/-!
# Workers that do not meet

A worker sees the places of its own mapping and the way to them.  As long as simulators stay in the
directories of their trials, no worker changes what another one sees, apart from directories on the
way that were missing.  This needs that the way to the output directory leads through no trial's
directory, since a trial removes that, and that no file stands on the way behind a missing place,
since the worker that comes first would meet another obstacle than the rest.
-/

namespace MappingSweep

/-- The way to the output directory stays as it is while trials run. -/
structure Plan.Steady (plan : Plan) (fs : FileSystem) : Prop where
  apart : ∀ t ∈ plan.trials, ∀ q ∈ plan.outputDir.stations, ¬ t.Inside plan.outputDir q
  clear : fs.Clear plan.outputDir.stations

namespace Place

theorem passed_of_plain (here : Place) {cs : List String} (h : ".." ∉ cs) :
    (∀ q ∈ passed here cs, here <+: q ∧ q <+: cs.foldl enter here) ∧
      (passed here cs).Pairwise (· <+: ·) := by
  induction cs generalizing here with
  | nil => simp [passed]
  | cons c cs ih =>
    rw [List.mem_cons, not_or] at h
    have henter : here.enter c = here ++ [c] := by rw [enter, if_neg (Ne.symm h.1)]
    have hstep : here <+: here.enter c := henter ▸ List.prefix_append _ _
    obtain ⟨hbetween, hpairwise⟩ := ih (here.enter c) h.2
    have hlast := (hbetween _ (foldl_enter_mem_passed _ cs)).1
    refine ⟨?_, ?_⟩
    · intro q hq
      rcases List.mem_cons.mp hq with rfl | hq
      · exact ⟨List.prefix_refl _, hstep.trans hlast⟩
      · exact ⟨hstep.trans (hbetween q hq).1, (hbetween q hq).2⟩
    · exact List.pairwise_cons.mpr ⟨fun q hq => hstep.trans (hbetween q hq).1, hpairwise⟩

end Place

/-- Below a missing place there is nothing. -/
def FileSystem.Rooted (fs : FileSystem) : Prop :=
  ∀ p q : Place, p <+: q → fs.entryAt p = none → fs.entryAt q = none

theorem FileSystem.rooted_empty : FileSystem.Rooted {} := by
  intro p q hbelow hnone
  have hp := isRoot_eq_false_of_none hnone
  have hq : isRoot q = false := by
    rw [isRoot, Bool.or_eq_false_iff] at hp ⊢
    obtain ⟨hslash, hdots⟩ := hp
    constructor
    · rw [beq_eq_false_iff_ne]
      rintro rfl
      rcases List.prefix_cons_iff.mp hbelow with rfl | ⟨rest, rfl, hrest⟩
      · exact absurd hdots (by decide)
      · rw [List.prefix_nil.mp hrest] at hslash
        exact absurd hslash (by decide)
    · rw [← Bool.not_eq_true, List.all_eq_true] at hdots ⊢
      exact fun h => hdots fun c hc => h c (hbelow.subset hc)
  rw [entryAt, hq]
  rfl

/-- What is put into a directory leaves no gap. -/
theorem FileSystem.Rooted.set {fs : FileSystem} {q : Place} (h : fs.Rooted)
    (hground : fs.Grounded q) (entry : Entry) : (fs.set q entry).Rooted := by
  intro p r hbelow hnone
  have hpq : q ≠ p := by
    rintro rfl
    rw [entryAt_set_self fs entry (isRoot_eq_false_of_none hnone)] at hnone
    cases hnone
  rw [entryAt_set_of_ne fs entry hpq] at hnone
  have hrq : q ≠ r := by
    rintro rfl
    rw [hground p hbelow hpq.symm] at hnone
    cases hnone
  rw [entryAt_set_of_ne fs entry hrq]
  exact h p r hbelow hnone

/-- A way that never goes up stays as it is. -/
theorem Plan.steady_of_plain {plan : Plan} {fs : FileSystem}
    (hplain : ".." ∉ plan.outputDir.components) (hrooted : fs.Rooted) : plan.Steady fs := by
  obtain ⟨hbetween, hpairwise⟩ := Place.passed_of_plain plan.outputDir.start hplain
  constructor
  · intro t _ q hq hinside
    have hlength := (hinside.trans (hbetween q hq).2).length_le
    rw [Trial.length_place] at hlength
    exact absurd hlength (by simp only [Path.place]; omega)
  · refine hpairwise.imp ?_
    rintro p q hbelow hnone ⟨content, x, hfile⟩
    rw [hrooted p q hbelow hnone] at hfile
    cases hfile

/-- The places in the directories of a mapping's trials. -/
def Plan.InTrialOf (plan : Plan) (m : Mapping) (q : Place) : Prop :=
  ∃ p ∈ plan.patterns, Trial.Inside ⟨m, p⟩ plan.outputDir q

namespace Sweep

variable {σ : Type} {plan : Plan} {template : Template} {simulator : Simulator} {sink : Sink σ}

/-- The world after the directory of a mapping was made, and nothing else. -/
def opened (plan : Plan) (w : World σ) (m : Mapping) : World σ :=
  { w with files := (w.files.createDirectories (m.directory plan.outputDir)).2 }

/-- The trial by itself. -/
def attempt (plan : Plan) (template : Template) (simulator : Simulator) (sink : Sink σ)
    (w : World σ) (t : Trial) : Except SweepError Row :=
  (t.run plan template simulator sink (opened plan w t.mapping)).1

def failureUnder (name : String) : Except SweepError Row → Option (String × SweepError)
  | .ok _ => none
  | .error e => some (name, e)

/-- The patterns before the first that fails. -/
def finishedAlone (plan : Plan) (template : Template) (simulator : Simulator) (sink : Sink σ)
    (w : World σ) (m : Mapping) : List Pattern :=
  match (w.files.createDirectories (m.directory plan.outputDir)).1 with
  | .error _ => []
  | .ok () =>
    plan.patterns.takeWhile fun p => (attempt plan template simulator sink w ⟨m, p⟩).isOk

/-- The first failure of a mapping: that of its directory, or that of a trial. -/
def failureAlone (plan : Plan) (template : Template) (simulator : Simulator) (sink : Sink σ)
    (w : World σ) (m : Mapping) : Option (String × SweepError) :=
  let dir := m.directory plan.outputDir
  match (w.files.createDirectories dir).1 with
  | .error e => some (m.name, .io dir (.os e))
  | .ok () => plan.patterns.findSome? fun p =>
    failureUnder (Trial.mk m p).name (attempt plan template simulator sink w ⟨m, p⟩)

variable {m n : Mapping} {q : Place}

theorem stations_directory (m : Mapping) (outputDir : Path) :
    (m.directory outputDir).stations = outputDir.stations ++ [m.place outputDir] := by
  rw [Mapping.place]
  exact Path.stations_join m.isName

theorem not_inTrialOf_station (hapart : ∀ t ∈ plan.trials, ∀ q ∈ plan.outputDir.stations,
    ¬ t.Inside plan.outputDir q) (hm : m ∈ plan.mappings) (n : Mapping)
    (hq : q ∈ (n.directory plan.outputDir).stations) : ¬ plan.InTrialOf m q := by
  rintro ⟨p, hp, hinside⟩
  rw [stations_directory, List.mem_append, List.mem_singleton] at hq
  rcases hq with hq | rfl
  · refine hapart ⟨m, p⟩ ?_ q hq hinside
    exact List.mem_flatMap.mpr ⟨m, hm, List.mem_map.mpr ⟨p, hp, rfl⟩⟩
  · exact Trial.not_prefix_output ⟨m, p⟩ plan.outputDir n.name hinside

theorem not_inTrialOf_other (h : m.name ≠ n.name) (hm : plan.InTrialOf m q) :
    ¬ plan.InTrialOf n q := by
  obtain ⟨p, -, hp⟩ := hm
  rintro ⟨p', -, hp'⟩
  have hne : (Trial.mk m p).name ≠ (Trial.mk n p').name :=
    fun heq => h (Trial.name_inj.mp heq).1
  exact Trial.not_prefix_of_ne hne hp hp'

/-! ## The worlds of a sweep -/

/-- Where the workers stand.  The note of a worker is the world that it would have by itself, once
the directory of its mapping is there. -/
structure Standing (plan : Plan) (fs : FileSystem) (notes : List (Option (World σ)))
    (w : World σ) : Prop where
  grown : FileSystem.Grows (fun q => ∃ m ∈ plan.mappings, plan.InTrialOf m q) fs w.files
  waiting : ∀ (i : Nat) m, plan.mappings[i]? = some m → notes[i]? = some none →
    ∀ q, plan.InTrialOf m q → w.files.entryAt q = fs.entryAt q
  opened : ∀ (i : Nat) m v, plan.mappings[i]? = some m → notes[i]? = some (some v) →
    World.Alike (m.directory plan.outputDir).stations (plan.InTrialOf m) w v

variable {fs : FileSystem} {notes : List (Option (World σ))} {w w' : World σ} {i : Nat}

/-- A step of one worker: others see no more of it than directories on the way. -/
theorem Standing.step (h : Standing plan fs notes w) (hvalid : plan.validate = .ok ())
    (hsteady : plan.Steady fs) (hm : plan.mappings[i]? = some m) (last : Option (World σ))
    (hfar : ∀ q, ¬ plan.InTrialOf m q → w'.files.entryAt q = w.files.entryAt q ∨
      (q ∈ (m.directory plan.outputDir).stations ∧ w.files.entryAt q = none ∧
        w'.files.entryAt q = some .directory))
    (hwaiting : last = none → ∀ q, plan.InTrialOf m q → w'.files.entryAt q = fs.entryAt q)
    (hopened : ∀ v, last = some v →
      World.Alike (m.directory plan.outputDir).stations (plan.InTrialOf m) w' v) :
    Standing plan fs (notes.set i last) w' := by
  have hmem : m ∈ plan.mappings := List.mem_of_getElem? hm
  have hother : ∀ (j : Nat) n, plan.mappings[j]? = some n → j ≠ i → n.name ≠ m.name := by
    intro j n hn hj hname
    exact hj (Plan.index_eq_of_name hvalid hn hm hname)
  have hunseen : ∀ (j : Nat) n, plan.mappings[j]? = some n → j ≠ i → ∀ q, plan.InTrialOf n q →
      w'.files.entryAt q = w.files.entryAt q := by
    intro j n hn hj q hq
    rcases hfar q (not_inTrialOf_other (hother j n hn hj) hq) with hsame | ⟨hstation, -, -⟩
    · exact hsame
    · exact absurd hq
        (not_inTrialOf_station hsteady.apart (List.mem_of_getElem? hn) m hstation)
  refine ⟨?_, ?_, ?_⟩
  · refine h.grown.trans ?_
    intro q hq
    rcases hfar q fun hin => hq ⟨m, hmem, hin⟩ with hsame | ⟨-, hnone, hdir⟩
    · exact .inl hsame
    · exact .inr ⟨hnone, hdir⟩
  · intro j n hn hnote q hq
    rcases getElem?_set_cases hnote with ⟨rfl, hlast⟩ | ⟨hj, hnote⟩
    · rw [hm] at hn
      cases hn
      exact hwaiting hlast q hq
    · rw [hunseen j n hn hj q hq]
      exact h.waiting j n hn hnote q hq
  · intro j n v hn hnote
    rcases getElem?_set_cases hnote with ⟨rfl, hlast⟩ | ⟨hj, hnote⟩
    · rw [hm] at hn
      cases hn
      exact hopened v hlast
    · have hwas := h.opened j n v hn hnote
      refine ⟨?_, hwas.right, ?_⟩
      · intro q hq
        have hdir := hwas.left q hq
        rcases hfar q (not_inTrialOf_station hsteady.apart hmem n hq) with hsame | ⟨-, hnone, -⟩
        · exact hsame.trans hdir
        · rw [hdir] at hnone
          cases hnone
      · intro q hq
        rw [hunseen j n hn hj q hq]
        exact hwas.same q hq

theorem text_directory (m : Mapping) (outputDir : Path) :
    (m.directory outputDir).text.isEmpty = false := by
  have hname := m.isName.1
  rw [← Bool.not_eq_true, String.isEmpty_iff, Mapping.directory, Path.text_join m.isName]
  split
  · exact hname
  · split <;> simp [hname]

theorem clear_directory (hclear : fs.Clear plan.outputDir.stations) (m : Mapping) :
    fs.Clear (m.directory plan.outputDir).stations.dropLast := by
  rw [stations_directory, List.dropLast_concat]
  exact hclear

theorem not_inTrial_station (hsteady : plan.Steady fs) (m : Mapping) :
    ∀ q ∈ (m.directory plan.outputDir).stations,
      ¬ ∃ n ∈ plan.mappings, plan.InTrialOf n q := by
  rintro q hq ⟨n, hn, hin⟩
  exact not_inTrialOf_station hsteady.apart hn m hq hin

theorem Standing.createDirectories_eq (h : Standing plan fs notes w) (hsteady : plan.Steady fs)
    (m : Mapping) : (w.files.createDirectories (m.directory plan.outputDir)).1 =
      (fs.createDirectories (m.directory plan.outputDir)).1 :=
  h.grown.createDirectories_eq (Path.endsWithDot_join m.isName) (clear_directory hsteady.clear m)
    (not_inTrial_station hsteady m)

/-- A directory that was made is on the way to the mapping, or was there. -/
theorem createDirectories_cases (files : FileSystem) (m : Mapping) (outputDir : Path)
    (q : Place) :
    (files.createDirectories (m.directory outputDir)).2.entryAt q = files.entryAt q ∨
      (q ∈ (m.directory outputDir).stations ∧ files.entryAt q = none ∧
        (files.createDirectories (m.directory outputDir)).2.entryAt q = some .directory) := by
  by_cases hq : q ∈ (m.directory outputDir).stations
  · rcases FileSystem.grows_createDirectories files (m.directory outputDir) q id with
      hsame | ⟨hnone, hdir⟩
    · exact .inl hsame
    · exact .inr ⟨hq, hnone, hdir⟩
  · exact .inl (FileSystem.entryAt_createDirectories files hq)

theorem keeps_openMapping (hvalid : plan.validate = .ok ()) {start : World σ}
    (hsteady : plan.Steady start.files) (hm : plan.mappings[i]? = some m) :
    Task.Keeps (Standing plan start.files) i
      (fun note _ => (start.files.createDirectories (m.directory plan.outputDir)).1 = .ok () ∧
        note = some (opened plan start m))
      (fun _ e => ∃ o,
        (start.files.createDirectories (m.directory plan.outputDir)).1 = .error o ∧
          e = .io (m.directory plan.outputDir) (.os o))
      none (World.onFiles (openMapping plan m)) := by
  have hmem : m ∈ plan.mappings := List.mem_of_getElem? hm
  -- after its own step a worker that failed is still where it was before
  let noted : Option (World σ) :=
    match (start.files.createDirectories (m.directory plan.outputDir)).1 with
    | .ok () => some (opened plan start m)
    | .error _ => none
  apply Action.keeps_task fun _ => noted
  · intro notes w hnote h
    have hresult := h.createDirectories_eq hsteady m
    have hinside : ∀ files : FileSystem, ∀ q, plan.InTrialOf m q →
        (files.createDirectories (m.directory plan.outputDir)).2.entryAt q = files.entryAt q := by
      intro files q hq
      apply FileSystem.entryAt_createDirectories
      exact fun hstation => not_inTrialOf_station hsteady.apart hmem m hstation hq
    have hwas := h.waiting i m hm hnote
    refine h.step hvalid hsteady hm noted ?_ ?_ ?_
    · intro q _
      exact createDirectories_cases w.files m plan.outputDir q
    · intro _ q hq
      exact (hinside w.files q hq).trans (hwas q hq)
    · intro v hv
      have hok : (start.files.createDirectories (m.directory plan.outputDir)).1 = .ok () := by
        cases hcreate : (start.files.createDirectories (m.directory plan.outputDir)).1 with
        | ok _ => rfl
        | error e => simp only [noted, hcreate] at hv; cases hv
      simp only [noted, hok] at hv
      cases hv
      refine ⟨?_, ?_, ?_⟩
      · exact FileSystem.open_of_createDirectories (text_directory m _) (hresult.trans hok)
      · exact FileSystem.open_of_createDirectories (text_directory m _) hok
      · intro q hq
        exact (hinside w.files q hq).trans ((hwas q hq).trans (hinside start.files q hq).symm)
  · intro notes w _ h
    have hresult := h.createDirectories_eq hsteady m
    simp only [Action.within, openMapping, Action.mapError, noted, hresult]
    cases hcreate : (start.files.createDirectories (m.directory plan.outputDir)).1 with
    | ok _ => exact ⟨rfl, rfl⟩
    | error e => exact ⟨e, rfl, rfl⟩

/-- What is asked of the surroundings of a sweep so that its trials do not meet. -/
structure Undisturbed (plan : Plan) (simulator : Simulator) (sink : Sink σ) (fs : FileSystem) :
    Prop where
  steady : plan.Steady fs
  confined : simulator.Confined
  isLocal : simulator.Local
  accepts : sink.Accepts

theorem Undisturbed.road (h : Undisturbed plan simulator sink fs) (hm : m ∈ plan.mappings)
    {p : Pattern} (hp : p ∈ plan.patterns) :
    ∀ q ∈ (m.directory plan.outputDir).stations, ¬ Trial.Inside ⟨m, p⟩ plan.outputDir q :=
  fun _ hq hin => not_inTrialOf_station h.steady.apart hm m hq ⟨p, hp, hin⟩

/-- One isolated trial after the other. -/
theorem isolated_patternsThread_of_tasks {alike moves : World σ → World σ → Prop}
    {patterns : List Pattern} (h : ∀ p ∈ patterns,
      Task.Isolated alike moves (Trial.task plan template simulator sink ⟨m, p⟩)) :
    Thread.Isolated alike moves (patternsThread plan template simulator sink m patterns) := by
  induction patterns with
  | nil => exact .ended _
  | cons p rest ih =>
    have hrest := ih fun p' hp' => h p' (List.mem_cons_of_mem p hp')
    apply Thread.Isolated.andThen (h p List.mem_cons_self)
    intro r
    cases r with
    | ok row => exact hrest.andThen fun _ => .ended _
    | error e => exact .ended _

theorem isolated_patternsThread (h : Undisturbed plan simulator sink fs) (template : Template)
    (hm : m ∈ plan.mappings) {patterns : List Pattern} (hpatterns : patterns ⊆ plan.patterns) :
    Thread.Isolated (World.Alike (m.directory plan.outputDir).stations (plan.InTrialOf m))
      (World.Moves (plan.InTrialOf m))
      (patternsThread plan template simulator sink m patterns) :=
  isolated_patternsThread_of_tasks fun p hp =>
    Trial.isolated_task ⟨m, p⟩ template h.confined h.isLocal h.accepts
      (fun _ hq => ⟨p, hpatterns hp, hq⟩) (h.road hm (hpatterns hp))

theorem run_patternsThread_cons (m : Mapping) (p : Pattern) (rest : List Pattern) (v : World σ) :
    ((patternsThread plan template simulator sink m (p :: rest)).run v).1 =
      match (Thread.run (Trial.task plan template simulator sink ⟨m, p⟩).run v).1 with
      | .ok _ =>
        let report := ((patternsThread plan template simulator sink m rest).run
          (Thread.run (Trial.task plan template simulator sink ⟨m, p⟩).run v).2).1
        { report with finished := (Trial.mk m p).name :: report.finished }
      | .error e => { failure := some ((Trial.mk m p).name, e) } := by
  rw [patternsThread]
  simp only [bind]
  rw [Thread.run_andThen]
  cases (Thread.run (Trial.task plan template simulator sink ⟨m, p⟩).run v).1 with
  | error e => rfl
  | ok row =>
    simp only
    rw [Thread.run_andThen]
    rfl

/-- One trial after the other comes to what each comes to by itself. -/
theorem run_patternsThread (h : Undisturbed plan simulator sink fs) (template : Template)
    (hm : m ∈ plan.mappings) {patterns : List Pattern} (hpatterns : patterns ⊆ plan.patterns)
    (hnodup : (patterns.map (·.name)).Nodup) {v start : World σ}
    (hlike : World.Alike (m.directory plan.outputDir).stations
      (fun q => ∃ p ∈ patterns, Trial.Inside ⟨m, p⟩ plan.outputDir q) v (opened plan start m)) :
    ((patternsThread plan template simulator sink m patterns).run v).1 =
      { finished := (patterns.takeWhile fun p =>
          (attempt plan template simulator sink start ⟨m, p⟩).isOk).map (Trial.mk m · |>.name)
        failure := patterns.findSome? fun p =>
          failureUnder (Trial.mk m p).name
            (attempt plan template simulator sink start ⟨m, p⟩) } := by
  induction patterns generalizing v with
  | nil => rfl
  | cons p rest ih =>
    have hp : p ∈ plan.patterns := hpatterns List.mem_cons_self
    rw [List.map_cons, List.nodup_cons] at hnodup
    have hroad := h.road hm hp
    have hisolated := Trial.isolated_task ⟨m, p⟩ template h.confined h.isLocal h.accepts
      (fun _ hq => hq) hroad
    have hfirst : World.Alike (m.directory plan.outputDir).stations
        (Trial.Inside ⟨m, p⟩ plan.outputDir) v (opened plan start m) :=
      hlike.mono fun q hq => ⟨p, List.mem_cons_self, hq⟩
    have hresult : _ = attempt plan template simulator sink start ⟨m, p⟩ :=
      (hisolated.run hfirst).1
    have hmoves := hisolated.run_moves hfirst (fun _ _ _ => rfl)
      fun _ _ _ hs hs' q hq => (hs' q hq).trans (hs q hq)
    rw [run_patternsThread_cons, List.takeWhile_cons, List.findSome?_cons]
    rw [hresult]
    cases hattempt : attempt plan template simulator sink start ⟨m, p⟩ with
    | error e => rfl
    | ok row =>
      have hlater : World.Alike (m.directory plan.outputDir).stations
          (fun q => ∃ p ∈ rest, Trial.Inside ⟨m, p⟩ plan.outputDir q)
          (Thread.run (Trial.task plan template simulator sink ⟨m, p⟩).run v).2
          (opened plan start m) := by
        refine ⟨?_, hlike.right, ?_⟩
        · intro q hq
          exact (hmoves q (hroad q hq)).trans (hlike.left q hq)
        · rintro q ⟨p', hp', hin⟩
          have hne : (Trial.mk m p').name ≠ (Trial.mk m p).name := by
            intro heq
            apply hnodup.1
            rw [← (Trial.name_inj.mp heq).2]
            exact List.mem_map_of_mem hp'
          exact (hmoves q (Trial.not_prefix_of_ne hne hin)).trans
            (hlike.same q ⟨p', List.mem_cons_of_mem p hp', hin⟩)
      have hrest := ih (fun p' hp' => hpatterns (List.mem_cons_of_mem p hp')) hnodup.2 hlater
      simp only [hrest]
      rfl

end Sweep
end MappingSweep
