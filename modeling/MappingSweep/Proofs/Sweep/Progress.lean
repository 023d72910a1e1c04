import MappingSweep.Proofs.Run.Collision
import MappingSweep.Proofs.Trial.Progress

/-!
# Sweeps that succeed

Every worker makes its directory and runs all its trials, whatever turns the others and the writer
take, as long as no directory of the sweep is in the way of another one or of the sweep's own files.
What a worker has left behind after its last step it finds at its next one: a worker writes to the
directory of its mapping, and to those of its trials, and to nothing else.
-/

namespace MappingSweep

namespace Plan

/-- No directory that the sweep makes is in the place of one of its own files, and none on the way
to the output directory is in the directory of a trial. -/
structure Unobstructed (plan : Plan) : Prop where
  names : ∀ m ∈ plan.mappings, m.name ∉ ownNames
  own : ∀ name ∈ ownNames, plan.outputDir.place ++ [name] ∉ plan.outputDir.stations
  apart : ∀ t ∈ plan.trials, ∀ q ∈ plan.outputDir.stations, ¬ t.Inside plan.outputDir q

variable {plan : Plan}

/-- On a way that never goes up only the names of the mappings matter. -/
theorem unobstructed_of_plain (hplain : ".." ∉ plan.outputDir.components)
    (hnames : ∀ m ∈ plan.mappings, m.name ∉ ownNames) : plan.Unobstructed := by
  have hbetween := (Place.passed_of_plain plan.outputDir.start hplain).1
  refine ⟨hnames, ?_, ?_⟩
  · intro name _ hq
    have hlength := (hbetween _ hq).2.length_le
    rw [List.length_append, List.length_singleton] at hlength
    exact absurd hlength (by simp only [Path.place]; omega)
  · intro t _ q hq hinside
    have hlength := (hinside.trans (hbetween q hq).2).length_le
    rw [Trial.length_place] at hlength
    exact absurd hlength (by simp only [Path.place]; omega)

theorem mem_trials {m : Mapping} {p : Pattern} (hm : m ∈ plan.mappings) (hp : p ∈ plan.patterns) :
    ⟨m, p⟩ ∈ plan.trials :=
  List.mem_flatMap.mpr ⟨m, hm, List.mem_map_of_mem hp⟩

theorem lists_of_validate (h : plan.validate = .ok ()) :
    plan.mappings ≠ [] ∧ plan.patterns ≠ [] :=
  have hrunnable := validate_eq_ok_iff.mp h
  ⟨hrunnable.mappings, hrunnable.patterns⟩

theorem InTrialOf.prefix {m : Mapping} {q : Place} (h : plan.InTrialOf m q) :
    m.place plan.outputDir <+: q := by
  obtain ⟨p, -, hq⟩ := h
  exact (List.prefix_append _ _).trans hq

theorem not_inTrialOf_of_output (m : Mapping) (name : String) :
    ¬ plan.InTrialOf m (plan.outputDir.place ++ [name]) := by
  rintro ⟨p, -, hq⟩
  exact Trial.not_prefix_output ⟨m, p⟩ plan.outputDir name hq

theorem Unobstructed.not_prefix_own {m : Mapping} (h : plan.Unobstructed)
    (hm : m ∈ plan.mappings) {name : String} (hname : name ∈ ownNames) :
    ¬ m.place plan.outputDir <+: plan.outputDir.place ++ [name] := by
  intro hprefix
  have heq := hprefix.eq_of_length (by simp [Mapping.place])
  obtain rfl : m.name = name := by simpa [Mapping.place] using heq
  exact h.names m hm hname

theorem Unobstructed.place_ne {m : Mapping} (h : plan.Unobstructed) (hm : m ∈ plan.mappings)
    {name : String} (hname : name ∈ ownNames) :
    plan.outputDir.place ++ [name] ≠ m.place plan.outputDir :=
  fun heq => h.not_prefix_own hm hname (heq ▸ List.prefix_refl _)

theorem Unobstructed.not_inTrialOf {m : Mapping} (h : plan.Unobstructed) (hm : m ∈ plan.mappings)
    {q : Place} (hq : q ∈ plan.outputDir.stations) : ¬ plan.InTrialOf m q := by
  rintro ⟨p, hp, hin⟩
  exact h.apart _ (mem_trials hm hp) q hq hin

theorem Unobstructed.not_inside_road {m : Mapping} (h : plan.Unobstructed)
    (hm : m ∈ plan.mappings) {p : Pattern} (hp : p ∈ plan.patterns) {q : Place}
    (hq : q ∈ (m.directory plan.outputDir).stations) : ¬ Trial.Inside ⟨m, p⟩ plan.outputDir q := by
  rw [Sweep.stations_directory, List.mem_append, List.mem_singleton] at hq
  rcases hq with hq | rfl
  · exact h.apart _ (mem_trials hm hp) q hq
  · exact Trial.not_prefix_output ⟨m, p⟩ plan.outputDir m.name

end Plan

namespace Sweep

variable {plan : Plan} {template : Template} {simulator : Simulator} {m : Mapping} {α : Type}
  {notes : List (Option FileSystem)} {w : World Funnel} {i : Nat} {gs gs' : FileSystem}

/-! ## One step of a worker -/

/-- All rows that were sent fit the row log, so that the funnel takes the next one. -/
def Flowing (plan : Plan) (w : World Funnel) : Prop :=
  ∃ sent, (∀ row ∈ sent, plan.rowLog.Fits row) ∧
    Funnel.Carries plan.rowLog plan.commands sent w.sink w.files

/-- The workers and what the last step of each has left.  A worker without a note has still to make
its directory. -/
structure Working (plan : Plan) (notes : List (Option FileSystem)) (w : World Funnel) : Prop where
  road : w.files.Open plan.outputDir.stations
  flowing : Flowing plan w
  own : ∀ name ∈ Plan.ownNames, name ≠ "result.csv" →
    w.files.entryAt (plan.outputDir.place ++ [name]) = none
  waiting : ∀ (i : Nat) m, plan.mappings[i]? = some m → notes[i]? = some none →
    ¬ w.files.IsFile (m.place plan.outputDir) ∧
      ∀ q, plan.InTrialOf m q → w.files.entryAt q = none
  opened : ∀ (i : Nat) m gs, plan.mappings[i]? = some m → notes[i]? = some (some gs) →
    FileSystem.Alike (m.directory plan.outputDir).stations (plan.InTrialOf m) w.files gs

theorem open_directory {fs : FileSystem} (hroad : fs.Open plan.outputDir.stations)
    (hplace : fs.entryAt (m.place plan.outputDir) = some .directory) :
    fs.Open (m.directory plan.outputDir).stations := by
  intro q hq
  rw [stations_directory, List.mem_append, List.mem_singleton] at hq
  rcases hq with hq | rfl
  · exact hroad q hq
  · exact hplace

theorem place_mem_directory : m.place plan.outputDir ∈ (m.directory plan.outputDir).stations := by
  rw [stations_directory]
  exact List.mem_append_right _ (List.mem_singleton_self _)

section

variable {fs : FileSystem}
  (hsame : ∀ q, m.place plan.outputDir <+: q → fs.entryAt q = w.files.entryAt q)
include hsame

theorem Working.waiting_of_same (h : Working plan notes w) (hm : plan.mappings[i]? = some m)
    (hnote : notes[i]? = some none) : ¬ fs.IsFile (m.place plan.outputDir) ∧
      ∀ q, plan.InTrialOf m q → fs.entryAt q = none := by
  obtain ⟨hfile, hempty⟩ := h.waiting i m hm hnote
  refine ⟨?_, fun q hq => (hsame q hq.prefix).trans (hempty q hq)⟩
  rwa [FileSystem.IsFile, hsame _ (List.prefix_refl _)]

theorem Working.opened_of_same (h : Working plan notes w) (hm : plan.mappings[i]? = some m)
    (hnote : notes[i]? = some (some gs)) (hroad : fs.Open plan.outputDir.stations) :
    FileSystem.Alike (m.directory plan.outputDir).stations (plan.InTrialOf m) fs gs := by
  obtain ⟨hleft, hright, halike⟩ := h.opened i m gs hm hnote
  refine ⟨open_directory hroad ?_, hright, fun q hq => (hsame q hq.prefix).trans (halike q hq)⟩
  rw [hsame _ (List.prefix_refl _)]
  exact hleft _ place_mem_directory

end

/-- The mapping of a worker is the only one that a step of the worker touches. -/
theorem Working.step (h : Working plan notes w) (hvalid : plan.validate = .ok ())
    (hfree : plan.Unobstructed) (hm : plan.mappings[i]? = some m) {fs : FileSystem}
    (hfar : ∀ q, q ≠ m.place plan.outputDir → ¬ plan.InTrialOf m q →
      fs.entryAt q = w.files.entryAt q)
    (hplace : fs.entryAt (m.place plan.outputDir) = some .directory) :
    Working plan (notes.set i (some fs)) { w with files := fs } := by
  have hmem : m ∈ plan.mappings := List.mem_of_getElem? hm
  have hown : ∀ name ∈ Plan.ownNames, fs.entryAt (plan.outputDir.place ++ [name]) =
      w.files.entryAt (plan.outputDir.place ++ [name]) :=
    fun name hname => hfar _ (hfree.place_ne hmem hname) (Plan.not_inTrialOf_of_output m name)
  -- the directories of two mappings have no place in common
  have hother : ∀ {j : Nat} {n : Mapping}, j ≠ i → plan.mappings[j]? = some n → ∀ q,
      n.place plan.outputDir <+: q → fs.entryAt q = w.files.entryAt q := by
    intro j n hj hn q hq
    have hapart : ¬ m.place plan.outputDir <+: q := fun hprefix =>
      hj (Plan.index_eq_of_name hvalid hn hm (Mapping.name_eq_of_place hq hprefix))
    exact hfar q (fun heq => hapart (heq ▸ List.prefix_refl _)) fun hin => hapart hin.prefix
  have hroad : fs.Open plan.outputDir.stations := by
    intro q hq
    by_cases heq : q = m.place plan.outputDir
    · rw [heq]
      exact hplace
    · rw [hfar q heq (hfree.not_inTrialOf hmem hq)]
      exact h.road q hq
  refine ⟨hroad, ?_, ?_, ?_, ?_⟩
  · obtain ⟨sent, hfits, hcarries⟩ := h.flowing
    refine ⟨sent, hfits, hcarries.of_entryAt_eq ?_⟩
    rw [Plan.rowLog, plan.place_rowSinkPath]
    exact hown _ List.mem_cons_self
  · intro name hname hne
    rw [hown name hname]
    exact h.own name hname hne
  · intro j n hn hnote
    rcases getElem?_set_cases hnote with ⟨-, hnone⟩ | ⟨hj, hnote⟩
    · cases hnone
    · exact h.waiting_of_same (hother hj hn) hn hnote
  · intro j n gs hn hnote
    rcases getElem?_set_cases hnote with ⟨rfl, hlast⟩ | ⟨hj, hnote⟩
    · cases hlast
      cases hm.symm.trans hn
      exact ⟨open_directory hroad hplace, open_directory hroad hplace, fun _ _ => rfl⟩
    · exact h.opened_of_same (hother hj hn) hn hnote hroad

/-- What one worker left is left by everyone but the trials of the given patterns. -/
def SameBeside (plan : Plan) (m : Mapping) (patterns : List Pattern) (gs gs' : FileSystem) :
    Prop :=
  ∀ q, q ∈ (m.directory plan.outputDir).stations ∨ plan.InTrialOf m q →
    (∀ p ∈ patterns, ¬ Trial.Inside ⟨m, p⟩ plan.outputDir q) → gs'.entryAt q = gs.entryAt q

/-- An action of a trial that succeeds by itself succeeds in the sweep. -/
theorem keeps_achieving (hvalid : plan.validate = .ok ()) (hfree : plan.Unobstructed)
    (hm : plan.mappings[i]? = some m) {p : Pattern} (hp : p ∈ plan.patterns)
    {a : Action SweepError FileSystem α} {before : FileSystem → Prop}
    {after : α → FileSystem → Prop} (hsees : Trial.Sees ⟨m, p⟩ plan.outputDir before)
    (ha : Trial.Achieves ⟨m, p⟩ plan.outputDir before after a) (hgs : before gs) :
    Task.Keeps (Working plan) i
      (fun last x => ∃ gs', last = some gs' ∧ after x gs' ∧ SameBeside plan m [p] gs gs')
      (fun _ _ => False) (some gs) (World.onFiles a) := by
  have hin : ∀ q, Trial.Inside ⟨m, p⟩ plan.outputDir q → plan.InTrialOf m q :=
    fun q hq => ⟨p, hp, hq⟩
  have hachieves : ∀ notes w, notes[i]? = some (some gs) → Working plan notes w →
      ∃ x fs, a w.files = (.ok x, fs) ∧ after x fs ∧
        ∀ q, ¬ Trial.Inside ⟨m, p⟩ plan.outputDir q → fs.entryAt q = w.files.entryAt q := by
    intro notes w hnote h
    have halike := h.opened i m gs hm hnote
    exact ha w.files (hsees _ _ (fun q hq => halike.entryAt_eq (hq.imp_right (hin q))) hgs)
  apply Action.keeps_task fun w => some (a w.files).2
  · intro notes w hnote h
    obtain ⟨x, fs, hrun, -, hout⟩ := hachieves notes w hnote h
    simp only [Action.within, hrun]
    apply h.step hvalid hfree hm
    · exact fun q _ hq => hout q fun hinside => hq (hin q hinside)
    · rw [hout]
      · exact (h.opened i m gs hm hnote).left _ place_mem_directory
      · exact Trial.not_prefix_output ⟨m, p⟩ plan.outputDir m.name
  · intro notes w hnote h
    obtain ⟨x, fs, hrun, hafter, hout⟩ := hachieves notes w hnote h
    simp only [Action.within, hrun]
    refine ⟨fs, rfl, hafter, fun q hq hbeside => ?_⟩
    rw [hout q (hbeside p (List.mem_singleton_self p))]
    exact (h.opened i m gs hm hnote).entryAt_eq hq

theorem keeps_sending {row : Row} (hrow : plan.rowLog.Fits row) (note : Option FileSystem) :
    Task.Keeps (Working plan) i (fun last _ => last = note) (fun _ _ => False) note
      (World.onSink (.change (funnelSink.append row))) := by
  have hsend : ∀ w : World Funnel, Flowing plan w →
      funnelSink.append row w.sink = .ok { w.sink with queue := w.sink.queue ++ [row] } := by
    rintro w ⟨sent, hfits, hcarries⟩
    exact hcarries.send_eq_ok hfits row
  apply Action.keeps_task_of_same
  · intro notes w _ h
    have hok := hsend w h.flowing
    obtain ⟨sent, hfits, hcarries⟩ := h.flowing
    simp only [Action.within, Action.change, hok]
    refine ⟨h.road, ⟨sent ++ [row], ?_, hcarries.send hok⟩, h.own, h.waiting, h.opened⟩
    simpa [or_imp, forall_and] using ⟨hfits, hrow⟩
  · intro notes w _ h
    simp only [Action.within, Action.change, hsend w h.flowing]

theorem SameBeside.refl (plan : Plan) (m : Mapping) (patterns : List Pattern) (gs : FileSystem) :
    SameBeside plan m patterns gs gs :=
  fun _ _ _ => rfl

theorem SameBeside.trans {gs₁ gs₂ : FileSystem} {patterns : List Pattern}
    (h : SameBeside plan m patterns gs gs₁) (h' : SameBeside plan m patterns gs₁ gs₂) :
    SameBeside plan m patterns gs gs₂ :=
  fun q hq hbeside => (h' q hq hbeside).trans (h q hq hbeside)

theorem keeps_freshDirectory_of_vacant (hvalid : plan.validate = .ok ())
    (hfree : plan.Unobstructed) (hm : plan.mappings[i]? = some m) {p : Pattern}
    (hp : p ∈ plan.patterns) (hfits : Trial.Fits ⟨m, p⟩ plan.outputDir)
    (hgs : Trial.Vacant ⟨m, p⟩ plan.outputDir gs) :
    Task.Keeps (Working plan) i
      (fun last _ => ∃ gs', last = some gs' ∧ Trial.Fresh ⟨m, p⟩ plan.outputDir gs' ∧
        SameBeside plan m [p] gs gs')
      (fun _ _ => False) (some gs)
      (Trial.freshDirectory (TrialPaths.ofTrial plan.outputDir ⟨m, p⟩).dir) := by
  unfold Trial.freshDirectory
  refine Task.Keeps.bind (keeps_achieving hvalid hfree hm hp Trial.sees_vacant
    Trial.achieves_exists hgs) ?_
  rintro _ _ ⟨gs₁, rfl, ⟨rfl, hgs₁⟩, hsame₁⟩
  have hcreate := keeps_achieving hvalid hfree hm hp Trial.sees_vacant
    (Trial.achieves_createDirectories hfits
      fun e => .io (TrialPaths.ofTrial plan.outputDir ⟨m, p⟩).dir (.os e)) hgs₁
  refine Thread.Keeps.mono hcreate ?_
  rintro last (e | x) h
  · exact h
  · obtain ⟨gs₂, rfl, hgs₂, hsame₂⟩ := h
    exact ⟨gs₂, rfl, hgs₂, hsame₁.trans hsame₂⟩

/-- A trial in a place of its own succeeds, and has no directory in its own in the end. -/
theorem keeps_task_of_vacant (hvalid : plan.validate = .ok ()) (hfree : plan.Unobstructed)
    (hhealthy : simulator.Healthy plan template) (hm : plan.mappings[i]? = some m) {p : Pattern}
    (hp : p ∈ plan.patterns) (hfits : Trial.Fits ⟨m, p⟩ plan.outputDir)
    (hgs : Trial.Vacant ⟨m, p⟩ plan.outputDir gs) :
    Task.Keeps (Working plan) i
      (fun last _ => ∃ gs', last = some gs' ∧ Trial.Tidy ⟨m, p⟩ plan.outputDir gs' ∧
        SameBeside plan m [p] gs gs')
      (fun _ _ => False) (some gs) (Trial.task plan template simulator funnelSink ⟨m, p⟩) := by
  have ht : ⟨m, p⟩ ∈ plan.trials := Plan.mem_trials (List.mem_of_getElem? hm) hp
  unfold Trial.task
  refine Task.Keeps.bind ((keeps_freshDirectory_of_vacant hvalid hfree hm hp hfits hgs).mapError
    fun _ _ => id) ?_
  rintro _ _ ⟨gs₁, rfl, hfresh, hsame₁⟩
  refine Task.Keeps.bind ((keeps_achieving hvalid hfree hm hp Trial.sees_fresh
    (Trial.achieves_writeConfig hfits) hfresh).mapError fun _ _ => id) ?_
  rintro _ _ ⟨gs₂, rfl, hprepared, hsame₂⟩
  refine Task.Keeps.bind ((keeps_achieving hvalid hfree hm hp Trial.sees_prepared
    (Trial.achieves_simulator hhealthy ht) hprepared).mapError fun _ _ => id) ?_
  rintro _ _ ⟨gs₃, rfl, hsimulated, hsame₃⟩
  refine Task.Keeps.bind ((keeps_achieving hvalid hfree hm hp Trial.sees_simulated
    (Trial.achieves_readRow hfits) hsimulated).mapError fun _ _ => id) ?_
  rintro _ row ⟨gs₄, rfl, ⟨hrow, hread⟩, hsame₄⟩
  refine Task.Keeps.bind ((keeps_sending hrow.length_record (some gs₄)).mapError fun _ _ => id) ?_
  rintro _ _ rfl
  exact Task.keeps_pure
    ⟨gs₄, rfl, hread.tidy, ((hsame₁.trans hsame₂).trans hsame₃).trans hsame₄⟩

/-- The paths of all trials are within the limits. -/
def TrialsFit (plan : Plan) : Prop :=
  ∀ t ∈ plan.trials, t.Fits plan.outputDir

theorem not_inside_other {patterns : List Pattern} {p p' : Pattern} {outputDir : Path} {q : Place}
    (hnodup : ((p :: patterns).map (·.name)).Nodup) (hp' : p' ∈ patterns)
    (hq : Trial.Inside ⟨m, p⟩ outputDir q) : ¬ Trial.Inside ⟨m, p'⟩ outputDir q := by
  have hne : p.name ≠ p'.name := by
    rintro heq
    rw [List.map_cons, List.nodup_cons] at hnodup
    exact hnodup.1 (heq ▸ List.mem_map_of_mem hp')
  exact Trial.not_prefix_of_ne (fun heq => hne (Trial.name_inj.mp heq).2) hq

/-- The next trials are as vacant as before a trial. -/
theorem vacant_of_sameBeside (hfree : plan.Unobstructed) (hm : m ∈ plan.mappings)
    {p : Pattern} {rest : List Pattern} (hpatterns : p :: rest ⊆ plan.patterns)
    (hnodup : ((p :: rest).map (·.name)).Nodup) (hsame : SameBeside plan m [p] gs gs')
    {next : Pattern} (hnext : next ∈ rest) (h : Trial.Vacant ⟨m, next⟩ plan.outputDir gs) :
    Trial.Vacant ⟨m, next⟩ plan.outputDir gs' := by
  have hp : p ∈ plan.patterns := hpatterns List.mem_cons_self
  constructor
  · intro q hq
    rw [hsame q (.inl hq)]
    · exact h.road q hq
    · intro p' hp'
      rw [List.mem_singleton.mp hp']
      exact hfree.not_inside_road hm hp hq
  · intro q hq
    rw [hsame q (.inr ⟨next, hpatterns (List.mem_cons_of_mem p hnext), hq⟩)]
    · exact h.empty q hq
    · intro p' hp'
      rw [List.mem_singleton.mp hp']
      exact fun hin => not_inside_other hnodup hnext hin hq

theorem keeps_patternsThread_of_vacant (hvalid : plan.validate = .ok ())
    (hfree : plan.Unobstructed) (hhealthy : simulator.Healthy plan template)
    (hfits : TrialsFit plan) (hm : plan.mappings[i]? = some m) {patterns : List Pattern}
    (hpatterns : patterns ⊆ plan.patterns) (hnodup : (patterns.map (·.name)).Nodup)
    (hgs : ∀ p ∈ patterns, Trial.Vacant ⟨m, p⟩ plan.outputDir gs) :
    Thread.Keeps (Working plan) i
      (fun last report => report.failure = none ∧ ∃ gs', last = some gs' ∧
        (∀ p ∈ patterns, Trial.Tidy ⟨m, p⟩ plan.outputDir gs') ∧
        SameBeside plan m patterns gs gs')
      (some gs) (patternsThread plan template simulator funnelSink m patterns) := by
  induction patterns generalizing gs with
  | nil => exact .ended ⟨rfl, gs, rfl, by simp, .refl plan m [] gs⟩
  | cons p rest ih =>
    have hp : p ∈ plan.patterns := hpatterns List.mem_cons_self
    have htrial := keeps_task_of_vacant hvalid hfree hhealthy hm hp
      (hfits _ (Plan.mem_trials (List.mem_of_getElem? hm) hp)) (hgs p List.mem_cons_self)
    apply Thread.Keeps.andThen htrial
    intro last result hresult
    cases result with
    | error e => exact absurd hresult id
    | ok row =>
      obtain ⟨gs₁, rfl, htidy, hsame₁⟩ := hresult
      have hvacant : ∀ p' ∈ rest, Trial.Vacant ⟨m, p'⟩ plan.outputDir gs₁ := fun p' hp' =>
        vacant_of_sameBeside hfree (List.mem_of_getElem? hm) hpatterns hnodup hsame₁ hp'
          (hgs p' (List.mem_cons_of_mem p hp'))
      apply Thread.Keeps.andThen (ih (fun p' hp' => hpatterns (List.mem_cons_of_mem p hp'))
        (List.nodup_cons.mp hnodup).2 hvacant)
      rintro last report ⟨hfailure, gs₂, rfl, htidy₂, hsame₂⟩
      refine .ended ⟨hfailure, gs₂, rfl, ?_, ?_⟩
      · intro p' hp'
        rcases List.mem_cons.mp hp' with rfl | hp'
        · intro q hq hne
          rw [hsame₂ q (.inr ⟨p', hp, hq⟩) fun p'' hp'' => not_inside_other hnodup hp'' hq]
          exact htidy q hq hne
        · exact htidy₂ p' hp'
      · intro q hq hbeside
        rw [hsame₂ q hq fun p' hp' => hbeside p' (List.mem_cons_of_mem p hp')]
        apply hsame₁ q hq
        intro p' hp'
        rw [List.mem_singleton.mp hp']
        exact hbeside p List.mem_cons_self

/-- The directory of a mapping that waits can be made, whether or not it is there already. -/
theorem Working.exists_opened (h : Working plan notes w) (hvalid : plan.validate = .ok ())
    (hfits : TrialsFit plan) (hm : plan.mappings[i]? = some m) (hnote : notes[i]? = some none) :
    ∃ fs, openMapping plan m w.files = (.ok (), fs) ∧
      fs.entryAt (m.place plan.outputDir) = some .directory ∧
      ∀ q, q ≠ m.place plan.outputDir → fs.entryAt q = w.files.entryAt q := by
  obtain ⟨p, hp⟩ := List.exists_mem_of_ne_nil _ (Plan.lists_of_validate hvalid).2
  have hfit := hfits _ (Plan.mem_trials (List.mem_of_getElem? hm) hp)
  have hlocate := FileSystem.locate_join h.road m.isName (nul_not_mem_of_nameFault m.safe)
    hfit.free (hfit.short_dir.of_join p.isName)
  have hrun : ∀ fs, w.files.createDirectories (m.directory plan.outputDir) = (.ok (), fs) →
      openMapping plan m w.files = (.ok (), fs) := by
    intro fs hmade
    simp only [openMapping, Action.mapError, hmade]
    rfl
  cases hentry : w.files.entryAt (m.place plan.outputDir) with
  | none =>
    refine ⟨_, hrun _ (FileSystem.createDirectories_of_missing hlocate ?_), ?_, fun q hne => ?_⟩
    · exact m.place_directory plan.outputDir ▸ hentry
    · rw [m.place_directory]
      exact FileSystem.entryAt_set_self _ _ (FileSystem.isRoot_eq_false_of_none hentry)
    · rw [m.place_directory]
      exact FileSystem.entryAt_set_of_ne _ _ (Ne.symm hne)
  | some entry =>
    cases entry with
    | file content x => exact absurd ⟨content, x, hentry⟩ (h.waiting i m hm hnote).1
    | directory =>
      refine ⟨_, hrun _ (FileSystem.createDirectories_of_directory hlocate ?_), hentry,
        fun q _ => rfl⟩
      exact m.place_directory plan.outputDir ▸ hentry

theorem keeps_openMapping_of_waiting (hvalid : plan.validate = .ok ())
    (hfree : plan.Unobstructed) (hfits : TrialsFit plan) (hm : plan.mappings[i]? = some m) :
    Task.Keeps (Working plan) i
      (fun last _ => ∃ gs, last = some gs ∧
        ∀ p ∈ plan.patterns, Trial.Vacant ⟨m, p⟩ plan.outputDir gs)
      (fun _ _ => False) none (World.onFiles (openMapping plan m)) := by
  apply Action.keeps_task fun w => some (openMapping plan m w.files).2
  · intro notes w hnote h
    obtain ⟨fs, hrun, hplace, hsame⟩ := h.exists_opened hvalid hfits hm hnote
    simp only [Action.within, hrun]
    exact h.step hvalid hfree hm (fun q hne _ => hsame q hne) hplace
  · intro notes w hnote h
    obtain ⟨fs, hrun, hplace, hsame⟩ := h.exists_opened hvalid hfits hm hnote
    simp only [Action.within, hrun]
    have hstep := h.step hvalid hfree hm (fun q hne _ => hsame q hne) hplace
    refine ⟨fs, rfl, fun p hp => ⟨open_directory hstep.road hplace, fun q hq => ?_⟩⟩
    rw [hsame q]
    · exact (h.waiting i m hm hnote).2 q ⟨p, hp, hq⟩
    · rintro rfl
      exact Trial.not_prefix_output ⟨m, p⟩ plan.outputDir m.name hq

theorem keeps_worker_of_waiting (hvalid : plan.validate = .ok ()) (hfree : plan.Unobstructed)
    (hhealthy : simulator.Healthy plan template) (hfits : TrialsFit plan)
    (hm : plan.mappings[i]? = some m) :
    Thread.Keeps (Working plan) i
      (fun last report => report.failure = none ∧ ∃ gs, last = some gs ∧
        ∀ p ∈ plan.patterns, Trial.Tidy ⟨m, p⟩ plan.outputDir gs)
      none (worker plan template simulator funnelSink m) := by
  unfold worker
  apply Thread.Keeps.andThen (keeps_openMapping_of_waiting hvalid hfree hfits hm)
  intro last result hresult
  cases result with
  | error e => exact absurd hresult id
  | ok _ =>
    obtain ⟨gs, rfl, hvacant⟩ := hresult
    apply (keeps_patternsThread_of_vacant hvalid hfree hhealthy hfits hm (fun _ => id)
      (Plan.nodup_names hvalid).2 hvacant).mono
    rintro last report ⟨hfailure, gs', hlast, htidy, -⟩
    exact ⟨hfailure, gs', hlast, htidy⟩

/-! ## Whole sweeps -/

theorem Flowing.take (h : Flowing plan w) : Flowing plan (writerStep w) := by
  obtain ⟨sent, hfits, hcarries⟩ := h
  exact ⟨sent, hfits, hcarries.take⟩

theorem Flowing.place (h : Flowing plan w) :
    w.sink.log.place = plan.outputDir.place ++ ["result.csv"] := by
  obtain ⟨sent, -, hcarries⟩ := h
  rw [hcarries.log_eq, Plan.rowLog, plan.place_rowSinkPath]

theorem Working.writerStep (h : Working plan notes w) (hfree : plan.Unobstructed) :
    Working plan notes (writerStep w) := by
  have hsame : ∀ q, q ≠ plan.outputDir.place ++ ["result.csv"] →
      (Sweep.writerStep w).files.entryAt q = w.files.entryAt q := by
    intro q hq
    exact w.sink.entryAt_take w.files (h.flowing.place ▸ hq)
  have hroad : (Sweep.writerStep w).files.Open plan.outputDir.stations := by
    intro q hq
    rw [hsame q fun heq => hfree.own _ List.mem_cons_self (heq ▸ hq)]
    exact h.road q hq
  have hbelow : ∀ {i : Nat} {n : Mapping}, plan.mappings[i]? = some n → ∀ q,
      n.place plan.outputDir <+: q →
        (Sweep.writerStep w).files.entryAt q = w.files.entryAt q := by
    intro i n hn q hq
    apply hsame
    rintro rfl
    exact hfree.not_prefix_own (List.mem_of_getElem? hn) List.mem_cons_self hq
  refine ⟨hroad, h.flowing.take, ?_, ?_, ?_⟩
  · intro name hname hne
    rw [hsame _ (by simpa using hne)]
    exact h.own name hname hne
  · intro i n hn hnote
    exact h.waiting_of_same (hbelow hn) hn hnote
  · intro i n gs hn hnote
    exact h.opened_of_same (hbelow hn) hn hnote hroad

end Sweep

namespace Run

variable {plan : Plan} {template : Template} {simulator : Simulator} {fs : FileSystem}

/-- The files after a sweep that succeeded. -/
structure Worked (plan : Plan) (fs : FileSystem) : Prop where
  road : fs.Open plan.outputDir.stations
  own : ∀ name ∈ Plan.ownNames, name ≠ "result.csv" →
    fs.entryAt (plan.outputDir.place ++ [name]) = none
  tidy : ∀ t ∈ plan.trials, t.Tidy plan.outputDir fs

theorem sound_of_working (hvalid : plan.validate = .ok ()) (hfree : plan.Unobstructed)
    (hhealthy : simulator.Healthy plan template) (hfits : Sweep.TrialsFit plan)
    {w : World Funnel} (hstart : Sweep.Working plan (plan.mappings.map fun _ => none) w) :
    Pool.Sound (Sweep.Working plan)
      (fun i last report => ∀ m, plan.mappings[i]? = some m → report.failure = none ∧
        ∃ gs, last = some gs ∧ ∀ p ∈ plan.patterns, Trial.Tidy ⟨m, p⟩ plan.outputDir gs)
      (plan.mappings.map fun _ => none)
      ⟨w, plan.mappings.map (Sweep.worker plan template simulator Sweep.funnelSink)⟩ := by
  apply Sweep.sound_of_keeps hstart
  intro i m hm
  apply (Sweep.keeps_worker_of_waiting hvalid hfree hhealthy hfits hm).mono
  intro last report hreport m' hm'
  cases hm.symm.trans hm'
  exact hreport

/-- In no order of turns does a trial of a healthy simulator fail. -/
theorem worked_drainUnder (hvalid : plan.validate = .ok ()) (hfree : plan.Unobstructed)
    (hhealthy : simulator.Healthy plan template) (hfits : Sweep.TrialsFit plan)
    (hstart : Sweep.Working plan (plan.mappings.map fun _ => none)
      ⟨fs, { log := plan.rowLog }⟩) (turns : List Turn) :
    (drainUnder turns plan template simulator plan.rowLog fs).1.outcome.error = none ∧
      Worked plan (drainUnder turns plan template simulator plan.rowLog fs).2 := by
  obtain ⟨reports, notes, w, hworking, hlength, hcount, hpost, hdrain⟩ :=
    exists_drained (sound_of_working hvalid hfree hhealthy hfits hstart)
      (fun _ _ h => h.writerStep hfree) turns
  have hends : ∀ (i : Nat) m, plan.mappings[i]? = some m → ∃ report gs,
      reports[i]? = some report ∧ notes[i]? = some (some gs) ∧ report.failure = none ∧
        ∀ p ∈ plan.patterns, Trial.Tidy ⟨m, p⟩ plan.outputDir gs := by
    intro i m hm
    obtain ⟨hi, -⟩ := List.getElem?_eq_some_iff.mp hm
    have hreport : reports[i]? = some reports[i] := List.getElem?_eq_getElem (by omega)
    have hnote : notes[i]? = some notes[i] := List.getElem?_eq_getElem (by omega)
    obtain ⟨hfailure, gs, hgs, htidy⟩ := hpost i _ _ hnote hreport m hm
    exact ⟨_, gs, hreport, hgs ▸ hnote, hfailure, htidy⟩
  let keeps : Funnel → FileSystem → Prop := fun f fs => Sweep.Working plan notes ⟨fs, f⟩
  have hdrained : keeps (w.sink.drain w.files).1 (w.sink.drain w.files).2 :=
    @Funnel.drain_keeps keeps (fun f fs h => Sweep.Working.writerStep h hfree) w.sink w.files
      hworking
  rw [hdrain, Funnel.finish_eq]
  refine ⟨?_, hdrained.road, hdrained.own, ?_⟩
  · refine List.findSome?_eq_none_iff.mpr fun report hmem => ?_
    obtain ⟨i, hi, rfl⟩ := List.mem_iff_getElem.mp hmem
    obtain ⟨m, hm⟩ : ∃ m, plan.mappings[i]? = some m :=
      ⟨_, List.getElem?_eq_getElem (hcount ▸ hi)⟩
    obtain ⟨report, gs, hreport, -, hfailure, -⟩ := hends i m hm
    rw [List.getElem?_eq_getElem hi, Option.some_inj] at hreport
    rw [hreport, hfailure]
    rfl
  · intro t ht q hq hne
    obtain ⟨m, hmem, hpattern⟩ := List.mem_flatMap.mp ht
    obtain ⟨p, hp, rfl⟩ := List.mem_map.mp hpattern
    obtain ⟨i, hm⟩ := List.mem_iff_getElem?.mp hmem
    obtain ⟨report, gs, -, hnote, -, htidy⟩ := hends i m hm
    rw [(hdrained.opened i m gs hm hnote).same q ⟨p, hp, hq⟩]
    exact htidy p hp q hq hne

end Run
end MappingSweep
