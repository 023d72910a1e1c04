import Mathlib.Data.List.Perm.Basic
import MappingSweep.Proofs.Sweep.Rows
import MappingSweep.Proofs.Sweep.Standing

/-!
# Sweeps whatever the order

Workers that do not meet report what each reports by itself, whatever turns they take.  So the
outcome of a sweep depends on its plan and its files alone.
-/

namespace MappingSweep
namespace Sweep

variable {σ : Type} {plan : Plan} {template : Template} {simulator : Simulator} {sink : Sink σ}
  {m n : Mapping} {i : Nat}

/-- The report of a mapping by itself. -/
def reportAlone (plan : Plan) (template : Template) (simulator : Simulator) (sink : Sink σ)
    (w : World σ) (m : Mapping) : WorkerReport where
  finished := (finishedAlone plan template simulator sink w m).map (Trial.mk m · |>.name)
  failure := failureAlone plan template simulator sink w m

theorem keeps_worker_alone (hvalid : plan.validate = .ok ()) {start : World σ}
    (h : Undisturbed plan simulator sink start.files) (template : Template)
    (hm : plan.mappings[i]? = some m) :
    Thread.Keeps (Standing plan start.files) i
      (fun _ report => report = reportAlone plan template simulator sink start m) none
      (worker plan template simulator sink m) := by
  have hmem : m ∈ plan.mappings := List.mem_of_getElem? hm
  unfold worker
  refine Thread.Keeps.andThen (keeps_openMapping hvalid h.steady hm) ?_
  intro note result hresult
  cases result with
  | error e =>
    obtain ⟨o, hfailed, rfl⟩ := hresult
    refine .ended ?_
    simp only [reportAlone, finishedAlone, failureAlone, hfailed]
    rfl
  | ok _ =>
    obtain ⟨hok, rfl⟩ := hresult
    have hopen := FileSystem.open_of_createDirectories (text_directory m _) hok
    have hself := run_patternsThread h template hmem (List.Subset.refl _)
      (Plan.nodup_names hvalid).2 (v := opened plan start m) ⟨hopen, hopen, fun _ _ => rfl⟩
    have hthread := isolated_patternsThread h template hmem (List.Subset.refl plan.patterns)
    apply (hthread.keeps some ?_ ?_ (opened plan start m)).mono
    · rintro _ report rfl
      rw [hself]
      simp only [reportAlone, finishedAlone, failureAlone, hok]
    · intro notes w v hnote hstanding
      exact hstanding.opened i m v hm hnote
    · intro notes w v w' v' _ hstanding hmoves hlike
      refine hstanding.step hvalid h.steady hm (some v') ?_ ?_ ?_
      · exact fun q hq => .inl (hmoves q hq)
      · intro hnone
        cases hnone
      · intro v'' hv
        cases hv
        exact hlike

/-- Whatever turns the workers take, each reports what it reports by itself. -/
theorem reports_of_turns (hvalid : plan.validate = .ok ()) {start : World σ}
    (h : Undisturbed plan simulator sink start.files) (template : Template) (turns : List Turn) :
    (Pool.finish id turns ⟨start, plan.mappings.map (worker plan template simulator sink)⟩).1 =
      plan.mappings.map (reportAlone plan template simulator sink start) := by
  have hsound : Pool.Sound (Standing plan start.files)
      (fun i _ report => ∀ m, plan.mappings[i]? = some m →
        report = reportAlone plan template simulator sink start m)
      (plan.mappings.map fun _ => none)
      ⟨start, plan.mappings.map (worker plan template simulator sink)⟩ := by
    refine ⟨⟨.refl _ _, fun _ _ _ _ _ _ => rfl, ?_⟩, by simp, ?_⟩
    · intro i m v _ hnote
      rw [List.getElem?_map, Option.map_eq_some_iff] at hnote
      obtain ⟨_, -, hnone⟩ := hnote
      cases hnone
    · intro i note t hnote ht
      rw [List.getElem?_map, Option.map_eq_some_iff] at hnote ht
      obtain ⟨_, -, rfl⟩ := hnote
      obtain ⟨m, hm, rfl⟩ := ht
      apply (keeps_worker_alone hvalid h template hm).mono
      intro _ report hreport m' hm'
      rw [hm] at hm'
      cases hm'
      exact hreport
  obtain ⟨notes, -, hlength, hpost⟩ := hsound.finish (fun _ _ hs => hs) turns
  have hcount := Pool.length_finish id
    ⟨start, plan.mappings.map (worker plan template simulator sink)⟩ turns
  apply List.ext_getElem?
  intro i
  rw [List.getElem?_map]
  cases hm : plan.mappings[i]? with
  | none =>
    rw [Option.map_none, List.getElem?_eq_none_iff, hcount, List.length_map]
    exact List.getElem?_eq_none_iff.mp hm
  | some m =>
    have hlt : i < (Pool.finish id turns
        ⟨start, plan.mappings.map (worker plan template simulator sink)⟩).1.length := by
      rw [hcount, List.length_map]
      exact (List.getElem?_eq_some_iff.mp hm).1
    rw [List.getElem?_eq_getElem hlt, Option.map_some]
    refine congrArg some (hpost i _ _ (List.getElem?_eq_getElem (hlength ▸ hlt)) ?_ m hm)
    exact List.getElem?_eq_getElem hlt

/-- A name in the report of a mapping. -/
def NameOf (m : Mapping) (name : String) : Prop :=
  name = m.name ∨ ∃ p : Pattern, name = (Trial.mk m p).name

theorem NameOf.mapping_eq {name : String} (hm : NameOf m name) (hn : NameOf n name) :
    m.name = n.name := by
  rcases hm with rfl | ⟨p, rfl⟩
  · rcases hn with hname | ⟨p', hname⟩
    · exact hname
    · exact absurd hname.symm (Trial.name_ne_mapping ⟨n, p'⟩ m)
  · rcases hn with hname | ⟨p', hname⟩
    · exact absurd hname (Trial.name_ne_mapping ⟨m, p⟩ n)
    · exact (Trial.name_inj.mp hname).1

/-- The names up to the first failure, with that of the failure itself. -/
theorem names_sublist (f : Pattern → Except SweepError Row) (name : Pattern → String)
    (patterns : List Pattern) :
    ((patterns.takeWhile fun p => (f p).isOk).map name ++
      ((patterns.findSome? fun p => failureUnder (name p) (f p)).map (·.1)).toList).Sublist
        (patterns.map name) := by
  induction patterns with
  | nil => exact List.Sublist.refl _
  | cons p rest ih =>
    rw [List.takeWhile_cons, List.findSome?_cons, List.map_cons]
    cases f p with
    | ok x => exact ih.cons_cons (name p)
    | error e => exact (List.nil_sublist _).cons_cons (name p)

theorem nodup_reportAlone (hvalid : plan.validate = .ok ()) (start : World σ)
    (m : Mapping) :
    let report := reportAlone plan template simulator sink start m
    (report.finished ++ (report.failure.map (·.1)).toList).Nodup ∧
      ∀ name ∈ report.finished ++ (report.failure.map (·.1)).toList, NameOf m name := by
  simp only [reportAlone, finishedAlone, failureAlone]
  cases (start.files.createDirectories (m.directory plan.outputDir)).1 with
  | error e =>
    refine ⟨by simp, ?_⟩
    intro name hname
    exact .inl (by simpa using hname)
  | ok made =>
    cases made
    dsimp only
    have hsublist := names_sublist (fun p => attempt plan template simulator sink start ⟨m, p⟩)
      (Trial.mk m · |>.name) plan.patterns
    have hnames : (plan.patterns.map (Trial.mk m · |>.name)).Nodup := by
      have hpatterns := (Plan.nodup_names hvalid).2
      rw [List.Nodup, List.pairwise_map] at hpatterns ⊢
      exact hpatterns.imp fun hne heq => hne (Trial.name_inj.mp heq).2
    refine ⟨hsublist.nodup hnames, ?_⟩
    intro name hname
    obtain ⟨p, -, rfl⟩ := List.mem_map.mp (hsublist.subset hname)
    exact .inr ⟨p, rfl⟩

theorem nodup_outcomeOf (hvalid : plan.validate = .ok ()) (start : World σ) :
    let outcome := outcomeOf (plan.mappings.map (reportAlone plan template simulator sink start))
    (outcome.summary.finished ++ outcome.summary.failed).Nodup := by
  simp only [outcomeOf, List.filterMap_eq_flatMap_toList]
  rw [(List.flatMap_append_perm _ _ _).nodup_iff, List.flatMap_map, List.Nodup,
    List.pairwise_flatMap]
  constructor
  · intro m _
    exact (nodup_reportAlone hvalid start m).1
  · have hmappings := (Plan.nodup_names hvalid).1
    rw [List.Nodup, List.pairwise_map] at hmappings
    refine hmappings.imp ?_
    rintro m n hne name hm _ hn rfl
    exact hne (((nodup_reportAlone hvalid start m).2 name hm).mapping_eq
      ((nodup_reportAlone hvalid start n).2 name hn))

theorem error_eq_none_iff (reports : List WorkerReport) :
    (outcomeOf reports).error = none ↔ (outcomeOf reports).summary.failed = [] := by
  simp only [outcomeOf, List.findSome?_eq_none_iff, List.filterMap_eq_nil_iff,
    Option.map_eq_none_iff]

/-- Whatever turns the workers take, the sweep comes to the same: of every mapping the trials before
its first failure have finished, and every mapping that failed is listed once, under the name of the
trial or its own, in the order of the plan. -/
theorem outcome_of_turns (start : World σ) (hvalid : plan.validate = .ok ())
    (hsteady : plan.Steady start.files) (hconfined : simulator.Confined)
    (hlocal : simulator.Local) (haccepts : sink.Accepts)
    (template : Template) (turns : List Turn) :
    let outcome := (run plan template simulator sink id turns start).1
    let finished := finishedAlone plan template simulator sink start
    let failure := failureAlone plan template simulator sink start
    (∀ others, (run plan template simulator sink id others start).1 = outcome) ∧
      outcome.summary.finished =
        plan.mappings.flatMap (fun m => (finished m).map fun p => (Trial.mk m p).name) ∧
      outcome.summary.failed = plan.mappings.filterMap (fun m => (failure m).map (·.1)) ∧
      outcome.error = plan.mappings.findSome? (fun m => (failure m).map (·.2)) ∧
      (outcome.error = none ↔ outcome.summary.failed = []) ∧
      (outcome.summary.finished ++ outcome.summary.failed).Nodup := by
  intro outcome finished failure
  have hreports : ∀ others, (run plan template simulator sink id others start).1 =
      outcomeOf (plan.mappings.map (reportAlone plan template simulator sink start)) :=
    fun others => congrArg outcomeOf
      (reports_of_turns hvalid ⟨hsteady, hconfined, hlocal, haccepts⟩ template others)
  have houtcome : outcome = _ := hreports turns
  rw [houtcome]
  refine ⟨hreports, ?_, ?_, ?_, error_eq_none_iff _, nodup_outcomeOf hvalid start⟩
  · exact List.flatMap_map _ _ _
  · exact List.filterMap_map
  · exact List.findSome?_map

open FileSystem (rooted_empty)
open Run (samplePlan goodPattern badPattern sampleSimulator confined_sampleSimulator
  local_sampleSimulator)

def acceptingSink : Sink Unit where
  append _ _ := .ok ()

theorem accepts_acceptingSink : acceptingSink.Accepts :=
  fun _ _ => ⟨(), rfl⟩

def pairOfMappings : List Mapping :=
  [⟨"a", by decide⟩, ⟨"b", by decide⟩]

def pairPlan : Plan :=
  { samplePlan [goodPattern, badPattern] with mappings := pairOfMappings }

def pairSweep (turns : List Turn) : SweepOutcome :=
  (run pairPlan (.ofConfig (.mapOf [])) sampleSimulator acceptingSink id turns ⟨{}, ()⟩).1

theorem steady_pairPlan : pairPlan.Steady {} :=
  Plan.steady_of_plain (by decide) rooted_empty

set_option maxRecDepth 100000 in
theorem outcome_of_turns_pairPlan :
    pairPlan.validate = .ok () ∧ pairPlan.Steady {} ∧ sampleSimulator.Confined ∧
      sampleSimulator.Local ∧ acceptingSink.Accepts ∧
      (pairSweep [.thread 1, .thread 0, .thread 1]).summary.finished = ["a/good", "b/good"] ∧
      (pairSweep [.thread 1, .thread 0, .thread 1]).summary.failed = ["a/bad", "b/bad"] ∧
      pairSweep [.thread 0] = pairSweep [.thread 1, .thread 0, .thread 1] := by
  have hvalid : pairPlan.validate = .ok () := rfl
  obtain ⟨hsame, hfinished, hfailed, -⟩ := outcome_of_turns ⟨{}, ()⟩ hvalid
    steady_pairPlan confined_sampleSimulator local_sampleSimulator accepts_acceptingSink
    (.ofConfig (.mapOf [])) [.thread 1, .thread 0, .thread 1]
  exact ⟨hvalid, steady_pairPlan, confined_sampleSimulator, local_sampleSimulator,
    accepts_acceptingSink, hfinished.trans (by decide +kernel), hfailed.trans (by decide +kernel),
    hsame [.thread 0]⟩

/-! ## Ways that do not stay -/

/-- The way to the output directory leads through the directory of the trial of `a`. -/
def crossingPlan : Plan :=
  { samplePlan [goodPattern] with
    outputDir := ⟨"log/a/good/q/../../.."⟩
    mappings := pairOfMappings }

/-- A simulator that puts a file into the way and fails when it runs the mapping `a`. -/
def blockingSimulator : Simulator where
  run config log := fun fs =>
    let dir := config.place.dropLast
    if dir.dropLast.getLastD "" = "a" then
      let q := dir ++ ["q"]
      (.error (.simulatorExit (.exited 3) log), (fs.removeTree q).set q (.file .empty false))
    else sampleSimulator.run config log fs

def crossingSweep (turns : List Turn) : SweepOutcome :=
  (run crossingPlan (.ofConfig (.mapOf [])) blockingSimulator acceptingSink id turns ⟨{}, ()⟩).1

theorem confined_blockingSimulator : blockingSimulator.Confined := by
  intro outputDir t fs q hq
  have hconfined := confined_sampleSimulator outputDir t fs q hq
  have hbelow : ¬ t.place outputDir ++ ["q"] <+: q := by
    intro h
    exact hq ((List.prefix_append _ _).trans h)
  simp only [blockingSimulator]
  split
  · rw [Trial.place_config, List.dropLast_concat]
    rw [FileSystem.entryAt_set_of_ne, FileSystem.entryAt_removeTree_of_outside hbelow]
    rintro rfl
    exact hbelow (List.prefix_refl _)
  · exact hconfined

theorem local_blockingSimulator : blockingSimulator.Local := by
  intro outputDir t fs gs hroad hinside
  have hlocal := local_sampleSimulator outputDir t fs gs hroad hinside
  simp only [blockingSimulator]
  split
  · refine ⟨rfl, fun q hq => ?_⟩
    apply FileSystem.entryAt_set_congr
    exact FileSystem.entryAt_removeTree_congr _ (hinside q hq)
  · exact hlocal

/-- On the way to the output directory a file stands behind a missing place. -/
def coveredPlan : Plan :=
  { samplePlan [goodPattern] with
    outputDir := ⟨"missing/../file"⟩
    mappings := pairOfMappings }

def coveredSweep (turns : List Turn) : SweepOutcome :=
  (run coveredPlan (.ofConfig (.mapOf [])) sampleSimulator acceptingSink id turns
    ⟨⟨[(["file"], .file .empty false)]⟩, ()⟩).1

set_option maxRecDepth 100000 in
/-- In the first sweep the trial of `b` finishes only if it is run before that of `a`.  In the
second both mappings fail, and which obstacle `a` meets depends on who comes first. -/
theorem turns_matter :
    (crossingPlan.validate = .ok () ∧ blockingSimulator.Confined ∧ blockingSimulator.Local ∧
      acceptingSink.Accepts ∧
      (crossingSweep []).summary.finished = [] ∧
      (crossingSweep (List.replicate 7 (.thread 1))).summary.finished = ["b/good"]) ∧
    (coveredPlan.validate = .ok () ∧ sampleSimulator.Confined ∧ sampleSimulator.Local ∧
      (coveredSweep []).error = some (.io ⟨"missing/../file/a"⟩ (.os .fileExists)) ∧
      (coveredSweep [.thread 1]).error =
        some (.io ⟨"missing/../file/a"⟩ (.os .notADirectory))) := by
  constructor
  · exact ⟨rfl, confined_blockingSimulator, local_blockingSimulator, accepts_acceptingSink,
      by decide +kernel, by decide +kernel⟩
  · exact ⟨rfl, confined_sampleSimulator, local_sampleSimulator, by decide +kernel,
      by decide +kernel⟩

end Sweep
end MappingSweep
