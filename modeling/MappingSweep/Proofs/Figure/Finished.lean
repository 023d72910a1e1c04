import MappingSweep.Proofs.Figure.Job

/-!
# Finished trials

A finished trial has the figures of its good logs and no other ones.  Whatever goes wrong with one
figure changes nothing for the others, and nothing but the figures and the logs behind them is
touched.  A log that is to be taken away is taken away even if its figure could not be drawn.
-/

namespace MappingSweep
namespace Figure

open Run (goodPattern badPattern)

variable {plan : Plan} {outputDir : Path} {fs : FileSystem} {m m' : Motif} {t u : Trial} {job : Job}

def motifsOf (t : Trial) : List Motif :=
  [⟨t, .latencies⟩, ⟨t, .intervals⟩]

/-- What can be drawn of all trials. -/
def motifs (plan : Plan) : List Motif :=
  plan.trials.flatMap motifsOf

def jobsOf (plan : Plan) (t : Trial) : List Job :=
  (if plan.plot then (motifsOf t).map .draw else []) ++
    (if plan.autoClean then (motifsOf t).map .clean else [])

def jobs (plan : Plan) : List Job :=
  plan.trials.flatMap (jobsOf plan)

theorem mem_motifsOf : m ∈ motifsOf t ↔ m.trial = t := by
  obtain ⟨u, kind⟩ := m
  cases kind <;> simp [motifsOf]

theorem mem_motifs : m ∈ motifs plan ↔ m.trial ∈ plan.trials := by
  simp [motifs, List.mem_flatMap, mem_motifsOf]

theorem draw_mem_jobsOf : .draw m ∈ jobsOf plan t ↔ plan.plot = true ∧ m.trial = t := by
  cases hplot : plan.plot <;> cases hclean : plan.autoClean <;>
    simp [jobsOf, hplot, hclean, mem_motifsOf]

theorem clean_mem_jobsOf : .clean m ∈ jobsOf plan t ↔ plan.autoClean = true ∧ m.trial = t := by
  cases hplot : plan.plot <;> cases hclean : plan.autoClean <;>
    simp [jobsOf, hplot, hclean, mem_motifsOf]

theorem draw_mem_jobs : .draw m ∈ jobs plan ↔ plan.plot = true ∧ m ∈ motifs plan := by
  simp only [jobs, List.mem_flatMap, draw_mem_jobsOf, mem_motifs]
  constructor
  · rintro ⟨t, ht, hswitch, rfl⟩
    exact ⟨hswitch, ht⟩
  · rintro ⟨hswitch, ht⟩
    exact ⟨_, ht, hswitch, rfl⟩

theorem clean_mem_jobs : .clean m ∈ jobs plan ↔ plan.autoClean = true ∧ m ∈ motifs plan := by
  simp only [jobs, List.mem_flatMap, clean_mem_jobsOf, mem_motifs]
  constructor
  · rintro ⟨t, ht, hswitch, rfl⟩
    exact ⟨hswitch, ht⟩
  · rintro ⟨hswitch, ht⟩
    exact ⟨_, ht, hswitch, rfl⟩

theorem trialSteps_eq (plan : Plan) (t : Trial) :
    trialSteps plan t = (jobsOf plan t).flatMap (Job.steps plan.outputDir) := by
  unfold trialSteps jobsOf
  cases plan.plot <;> cases plan.autoClean <;> rfl

theorem steps_eq (plan : Plan) :
    plan.trials.flatMap (trialSteps plan) = (jobs plan).flatMap (Job.steps plan.outputDir) := by
  rw [jobs, List.flatMap_assoc]
  exact List.flatMap_congr fun t _ => trialSteps_eq plan t

/-- The count of failures is that of the motifs that cannot be drawn. -/
theorem countP_fails (plan : Plan) (fs : FileSystem) :
    (jobs plan).countP (·.fails plan.outputDir fs) =
      if plan.plot then (motifs plan).countP fun m => !decide (m.Drawable plan.outputDir fs)
      else 0 := by
  have htrial : ∀ t, (jobsOf plan t).countP (·.fails plan.outputDir fs) =
      if plan.plot then (motifsOf t).countP fun m => !decide (m.Drawable plan.outputDir fs)
      else 0 := by
    intro t
    cases hplot : plan.plot <;> cases hclean : plan.autoClean <;>
      simp [jobsOf, hplot, hclean, List.countP_map, Function.comp_def, Job.fails]
  simp only [jobs, motifs, List.countP_flatMap, Function.comp_def, htrial]
  cases plan.plot <;> simp

/-- If everything is drawn that there is to draw, the missing and malformed logs are counted. -/
theorem countP_fails_of_drawable (h : ∀ m ∈ motifs plan,
    (m.picture? plan.outputDir fs).isSome = true → m.Drawable plan.outputDir fs) :
    (jobs plan).countP (·.fails plan.outputDir fs) =
      if plan.plot then (motifs plan).countP fun m => (m.picture? plan.outputDir fs).isNone
      else 0 := by
  rw [countP_fails]
  split
  · apply List.countP_congr
    intro m hm
    have hiff : m.Drawable plan.outputDir fs ↔ (m.picture? plan.outputDir fs).isSome = true :=
      ⟨And.left, h m hm⟩
    cases hpicture : m.picture? plan.outputDir fs <;> simp [hiff, hpicture]
  · rfl

namespace Job

def motif : Job → Motif
  | draw m => m
  | clean m => m

theorem motif_of_mem (h : job ∈ jobsOf plan t) : job.motif.trial = t := by
  cases job with
  | draw m => exact (draw_mem_jobsOf.mp h).2
  | clean m => exact (clean_mem_jobsOf.mp h).2

theorem reads_nothing {place : Place} (m' : Motif) :
    ∀ m, clean m' = draw m → place ≠ (m.log outputDir).place := by
  intro m h
  cases h

/-- Only the cleaning of a motif is in the way of drawing it. -/
theorem precedes_of_ne {first second : Job}
    (h : ¬ (first.motif.trial.name = second.motif.trial.name ∧
      first.motif.kind = second.motif.kind)) : first.Precedes outputDir second := by
  have hfigure : ∀ m m' : Motif, ¬ (m.trial.name = m'.trial.name ∧ m.kind = m'.kind) →
      (m.figure outputDir).place ≠ (m'.figure outputDir).place :=
    fun m m' hne heq => hne (Motif.same_of_figure heq)
  have hlog : ∀ m m' : Motif, ¬ (m.trial.name = m'.trial.name ∧ m.kind = m'.kind) →
      (m.log outputDir).place ≠ (m'.log outputDir).place :=
    fun m m' hne heq => hne (Motif.same_of_log heq)
  cases first with
  | draw m =>
    refine ⟨?_, fun m' _ => m.place_figure_ne_log m' outputDir⟩
    cases second with
    | draw m' => exact hfigure m m' h
    | clean m' => exact m.place_figure_ne_log m' outputDir
  | clean m =>
    cases second with
    | draw m' =>
      refine ⟨(m'.place_figure_ne_log m outputDir).symm, ?_⟩
      rintro m'' heq
      cases heq
      exact hlog m m' h
    | clean m' => exact ⟨hlog m m' h, reads_nothing m'⟩

theorem draw_precedes_clean (m m' : Motif) : (draw m).Precedes outputDir (clean m') :=
  ⟨m.place_figure_ne_log m' outputDir, reads_nothing m'⟩

end Job

theorem pairwise_motifsOf (t : Trial) :
    (motifsOf t).Pairwise fun m m' => ¬ (m.trial.name = m'.trial.name ∧ m.kind = m'.kind) := by
  simp [motifsOf]

theorem pairwise_jobsOf (plan : Plan) (t : Trial) :
    (jobsOf plan t).Pairwise (Job.Precedes outputDir) := by
  have hmotifs : ∀ (job : Motif → Job), (∀ m, (job m).motif = m) →
      ((motifsOf t).map job).Pairwise (Job.Precedes outputDir) := by
    intro job hjob
    rw [List.pairwise_map]
    refine (pairwise_motifsOf t).imp ?_
    intro m m' hne
    apply Job.precedes_of_ne
    rwa [hjob, hjob]
  rw [jobsOf, List.pairwise_append]
  refine ⟨?_, ?_, ?_⟩
  · split
    · exact hmotifs .draw fun _ => rfl
    · exact .nil
  · split
    · exact hmotifs .clean fun _ => rfl
    · exact .nil
  · intro first hfirst second hsecond
    split at hfirst
    · obtain ⟨m, -, rfl⟩ := List.mem_map.mp hfirst
      split at hsecond
      · obtain ⟨m', -, rfl⟩ := List.mem_map.mp hsecond
        exact Job.draw_precedes_clean m m'
      · cases hsecond
    · cases hfirst

/-- Nothing is cleaned before it is drawn, and trials leave each other alone. -/
theorem pairwise_jobs (h : plan.validate = .ok ()) :
    (jobs plan).Pairwise (Job.Precedes outputDir) := by
  have htrials := Plan.nodup_trials h
  rw [List.Nodup, List.pairwise_map] at htrials
  rw [jobs, List.pairwise_flatMap]
  refine ⟨fun t _ => pairwise_jobsOf plan t, htrials.imp ?_⟩
  intro t u hne first hfirst second hsecond
  apply Job.precedes_of_ne
  rw [Job.motif_of_mem hfirst, Job.motif_of_mem hsecond]
  exact fun hsame => hne hsame.1

/-! ## Finishing -/

/-- Jobs are done in their order, and all of them unless one fails. -/
theorem exists_ran (plan : Plan) (fs : FileSystem) :
    ∃ ran left p, jobs plan = ran ++ left ∧ Ran plan.outputDir ran ⟨fs, 0⟩ p ∧
      (finishTrials plan fs).2 = p.files ∧
      ∀ failed, (finishTrials plan fs).1 = .ok failed → left = [] ∧ failed = p.failed := by
  obtain ⟨ran, left, heq, hran, hall⟩ := Ran.exists_prefix plan.outputDir (jobs plan) ⟨fs, 0⟩
  have hsame : Action.all (plan.trials.flatMap (trialSteps plan)) ⟨fs, 0⟩ =
      Action.all ((jobs plan).map (·.run plan.outputDir)) ⟨fs, 0⟩ := by
    rw [steps_eq]
    exact Action.all_flatMap (Job.steps plan.outputDir) (jobs plan) ⟨fs, 0⟩
  refine ⟨ran, left, _, heq, hran, ?_, ?_⟩
  · rw [finishTrials, hsame]
  · intro failed hfailed
    rw [finishTrials, hsame] at hfailed
    generalize Action.all ((jobs plan).map (·.run plan.outputDir)) ⟨fs, 0⟩ = r at *
    obtain ⟨result, p⟩ := r
    cases result with
    | error e => cases hfailed
    | ok _ => exact ⟨hall rfl, (Except.ok.inj hfailed).symm⟩

theorem handled_iff {q : Place} : Handled plan q ↔ ∃ m ∈ motifs plan,
    q = (m.figure plan.outputDir).place ∨ q = (m.log plan.outputDir).place := by
  simp only [Motif.place_figure, Motif.place_log]
  constructor
  · rintro ⟨t, ht, name, hname, rfl⟩
    simp only [handledNames, List.mem_cons, List.not_mem_nil, or_false] at hname
    rcases hname with rfl | rfl | rfl | rfl
    · exact ⟨⟨t, .latencies⟩, mem_motifs.mpr ht, .inl rfl⟩
    · exact ⟨⟨t, .intervals⟩, mem_motifs.mpr ht, .inl rfl⟩
    · exact ⟨⟨t, .latencies⟩, mem_motifs.mpr ht, .inr rfl⟩
    · exact ⟨⟨t, .intervals⟩, mem_motifs.mpr ht, .inr rfl⟩
  · rintro ⟨m, hm, rfl | rfl⟩
    · exact ⟨m.trial, mem_motifs.mp hm, m.figureName, m.figureName_mem, rfl⟩
    · exact ⟨m.trial, mem_motifs.mp hm, m.logName, m.logName_mem, rfl⟩

theorem not_handled_of_motifs {q : Place} (h : ∀ m ∈ motifs plan,
    q ≠ (m.figure plan.outputDir).place ∧ q ≠ (m.log plan.outputDir).place) :
    ¬ Handled plan q := by
  intro hhandled
  obtain ⟨m, hm, rfl | rfl⟩ := handled_iff.mp hhandled
  · exact (h m hm).1 rfl
  · exact (h m hm).2 rfl

theorem plain_of_motifs (h : ∀ m ∈ motifs plan,
    fs.entryAt (m.figure plan.outputDir).place ≠ some .directory ∧
      fs.entryAt (m.log plan.outputDir).place ≠ some .directory) : Plain (Handled plan) fs := by
  intro q hq
  obtain ⟨m, hm, rfl | rfl⟩ := handled_iff.mp hq
  · exact (h m hm).1
  · exact (h m hm).2

/-- The motifs of a valid plan differ by the names of their trials or by their kinds. -/
theorem motif_unique (h : plan.validate = .ok ()) (hm : m ∈ motifs plan) (hm' : m' ∈ motifs plan)
    (hname : m.trial.name = m'.trial.name) (hkind : m.kind = m'.kind) : m = m' := by
  have htrial : m.trial = m'.trial := List.inj_on_of_nodup_map (Plan.nodup_trials h)
    (mem_motifs.mp hm) (mem_motifs.mp hm') hname
  obtain ⟨t, kind⟩ := m
  obtain ⟨u, other⟩ := m'
  exact congrArg₂ Motif.mk htrial hkind

/-- What is left of a motif when all trials are finished. -/
structure Finished (plan : Plan) (fs fs' : FileSystem) (m : Motif) : Prop where
  drawn : plan.plot = true → ∀ picture, m.picture? plan.outputDir fs = some picture →
    fs'.readBytes (m.figure plan.outputDir) = .ok picture.text.toUTF8
  blank : plan.plot = true → m.picture? plan.outputDir fs = none →
    fs'.pathExists (m.figure plan.outputDir) = false
  figure_kept : plan.plot = false →
    fs'.entryAt (m.figure plan.outputDir).place = fs.entryAt (m.figure plan.outputDir).place
  cleaned : plan.autoClean = true → fs'.pathExists (m.log plan.outputDir) = false
  log_kept : plan.autoClean = false →
    fs'.entryAt (m.log plan.outputDir).place = fs.entryAt (m.log plan.outputDir).place

/-- A figure is left alone unless it is drawn. -/
theorem figure_not_touched (h : plan.plot = false) (m : Motif) :
    ¬ ∃ job ∈ jobs plan, (m.figure outputDir).place = (job.file outputDir).place := by
  rintro ⟨job, hjob, heq⟩
  cases job with
  | draw m' => exact Bool.false_ne_true (h.symm.trans (draw_mem_jobs.mp hjob).1)
  | clean m' => exact m.place_figure_ne_log m' outputDir heq

theorem log_not_touched (h : plan.autoClean = false) (m : Motif) :
    ¬ ∃ job ∈ jobs plan, (m.log outputDir).place = (job.file outputDir).place := by
  rintro ⟨job, hjob, heq⟩
  cases job with
  | draw m' => exact m'.place_figure_ne_log m outputDir heq.symm
  | clean m' => exact Bool.false_ne_true (h.symm.trans (clean_mem_jobs.mp hjob).1)

/-- Nothing but its own cleaning touches a log. -/
theorem eq_clean_of_place (hvalid : plan.validate = .ok ()) (hm : m ∈ motifs plan)
    (hjob : job ∈ jobs plan) (h : (m.log outputDir).place = (job.file outputDir).place) :
    job = .clean m := by
  cases job with
  | draw m' => exact absurd h.symm (m'.place_figure_ne_log m outputDir)
  | clean m' =>
    obtain ⟨hname, hkind⟩ := Motif.same_of_log h
    rw [motif_unique hvalid hm (clean_mem_jobs.mp hjob).2 hname hkind]

theorem finished_of_ran {p : Progress} (hvalid : plan.validate = .ok ())
    (hran : Ran plan.outputDir (jobs plan) ⟨fs, 0⟩ p) (hm : m ∈ motifs plan)
    (hdraw : (m.picture? plan.outputDir fs).isSome = true → m.Drawable plan.outputDir fs) :
    Finished plan fs p.files m where
  drawn := by
    intro hplot picture hpicture
    have hsettled := hran.settled (pairwise_jobs hvalid) (draw_mem_jobs.mpr ⟨hplot, hm⟩)
    obtain ⟨other, hother, hread⟩ := hsettled.drawn_iff.mpr (hdraw (by rw [hpicture]; rfl))
    cases hpicture.symm.trans hother
    exact hread
  blank := by
    intro hplot hnone
    have hsettled := hran.settled (pairwise_jobs hvalid) (draw_mem_jobs.mpr ⟨hplot, hm⟩)
    have hnot : ¬ m.Drawable plan.outputDir fs := by
      intro hdrawable
      rw [Motif.Drawable, hnone] at hdrawable
      cases hdrawable.1
    rwa [Motif.Settled, if_neg hnot] at hsettled
  figure_kept := fun hplot => hran.changes.forth.same _ (figure_not_touched hplot m)
  cleaned := fun hclean => hran.gone (pairwise_jobs hvalid) (clean_mem_jobs.mpr ⟨hclean, hm⟩)
  log_kept := fun hclean => hran.changes.forth.same _ (log_not_touched hclean m)

/-- Unless a directory is in the place of a figure or a log, all trials are finished, and the
figures whose logs are missing, unreadable or malformed are counted.  Nothing but figures and logs
changes.  What there is to draw is taken to be drawn without fail. -/
theorem finished_finishTrials (hvalid : plan.validate = .ok ())
    (hplain : ∀ m ∈ motifs plan,
      fs.entryAt (m.figure plan.outputDir).place ≠ some .directory ∧
        fs.entryAt (m.log plan.outputDir).place ≠ some .directory)
    (hdraw : ∀ m ∈ motifs plan, (m.picture? plan.outputDir fs).isSome = true →
      ∃ drawn, m.draw plan.outputDir fs = .ok drawn) :
    ∃ fs', finishTrials plan fs = (.ok (if plan.plot then
          (motifs plan).countP fun m => (m.picture? plan.outputDir fs).isNone else 0), fs') ∧
      (∀ q, (∀ m ∈ motifs plan, q ≠ (m.figure plan.outputDir).place ∧
        q ≠ (m.log plan.outputDir).place) → fs'.entryAt q = fs.entryAt q) ∧
      ∀ m ∈ motifs plan, Finished plan fs fs' m := by
  have hdrawable : ∀ m ∈ motifs plan,
      (m.picture? plan.outputDir fs).isSome = true → m.Drawable plan.outputDir fs := by
    intro m hm hsome
    obtain ⟨drawn, hdrawn⟩ := hdraw m hm hsome
    exact Motif.drawable_of_draw hdrawn
  obtain ⟨failed, fs', hok⟩ := exists_finishTrials_of_plain (plain_of_motifs hplain)
  obtain ⟨ran, left, p, heq, hran, hlast, hall⟩ := exists_ran plan fs
  obtain ⟨rfl, rfl⟩ := hall failed (by rw [hok])
  rw [hok] at hlast
  obtain rfl : fs' = p.files := hlast
  rw [List.append_nil] at heq
  subst heq
  refine ⟨p.files, ?_, fun q hq => ?_,
    fun m hm => finished_of_ran hvalid hran hm (hdrawable m hm)⟩
  · rw [hok, hran.failed (pairwise_jobs hvalid), Nat.zero_add, countP_fails_of_drawable hdrawable]
  · have hkept := preserves_handled plan fs
    rw [hok] at hkept
    exact hkept.same q (not_handled_of_motifs hq)

/-- The logs of one trial can be drawn, the other one has an old figure and a malformed trace. -/
def mixedFiles : FileSystem :=
  ⟨[(["log"], .directory), (["log", "m"], .directory), (["log", "m", "good"], .directory),
    (["log", "m", "bad"], .directory),
    (["log", "m", "good", "good.csv"], .file "process\n10\n".toUTF8 false),
    (["log", "m", "good", "good_issue_log_ch0.log"], .file "10, ACT\n14, RD\n".toUTF8 false),
    (["log", "m", "bad", "bad_issue_log_ch0.log"], .file "ACT\n".toUTF8 false),
    (["log", "m", "bad", "bad_cmd_interval.png"], .file "old".toUTF8 false)]⟩

/-- A plan that draws, and cleans up behind itself. -/
def drawingPlan (patterns : List Pattern) : Plan :=
  { Run.samplePlan patterns with plot := true, autoClean := true }

theorem finished_finishTrials_mixedFiles :
    ∃ fs', finishTrials (drawingPlan [goodPattern, badPattern]) mixedFiles = (.ok 2, fs') ∧
      ∀ m ∈ motifs (drawingPlan [goodPattern, badPattern]),
        Finished (drawingPlan [goodPattern, badPattern]) mixedFiles fs' m := by
  have hplain : ∀ m ∈ motifs (drawingPlan [goodPattern, badPattern]),
      mixedFiles.entryAt (m.figure ⟨"log"⟩).place ≠ some .directory ∧
        mixedFiles.entryAt (m.log ⟨"log"⟩).place ≠ some .directory := by
    decide +kernel
  have hopen : ∀ m ∈ motifs (drawingPlan [goodPattern, badPattern]),
      (m.picture? ⟨"log"⟩ mixedFiles).isSome = true →
        mixedFiles.pathExists (m.figure ⟨"log"⟩) = false ∧
          mixedFiles.locate (m.figure ⟨"log"⟩) = .ok (m.figure ⟨"log"⟩).place := by
    decide +kernel
  have hcount : (motifs (drawingPlan [goodPattern, badPattern])).countP
      (fun m => (m.picture? ⟨"log"⟩ mixedFiles).isNone) = 2 := by
    decide +kernel
  obtain ⟨fs', hfinish, -, hfinished⟩ := finished_finishTrials
    (rfl : (drawingPlan [goodPattern, badPattern]).validate = .ok ()) hplain fun m hm hsome =>
      (Motif.exists_draw_iff (hopen m hm hsome).1).mpr ⟨hsome, (hopen m hm hsome).2⟩
  refine ⟨fs', ?_, hfinished⟩
  rw [hfinish, ← hcount]
  rfl

section Gone

variable {ran left : List Job} {p : Progress} (hvalid : plan.validate = .ok ())
  (heq : jobs plan = ran ++ left)

include hvalid heq

/-- A log that is no longer there was cleaned. -/
theorem clean_mem_of_gone (hran : Ran plan.outputDir ran ⟨fs, 0⟩ p) (hm : m ∈ motifs plan)
    (hbefore : fs.pathExists (m.log plan.outputDir) = true)
    (hafter : p.files.pathExists (m.log plan.outputDir) = false) : .clean m ∈ ran := by
  by_contra hnot
  refine Bool.false_ne_true (hafter.symm.trans ((hran.changes.pathExists_eq ?_).trans hbefore))
  rintro ⟨job, hjob, hplace⟩
  have hmem : job ∈ jobs plan := heq ▸ List.mem_append_left left hjob
  exact hnot (eq_clean_of_place hvalid hm hmem hplace ▸ hjob)

/-- What was cleaned was to be drawn before. -/
theorem draw_mem_of_clean_mem (hplot : plan.plot = true) (hm : m ∈ motifs plan)
    (hcleaned : .clean m ∈ ran) : .draw m ∈ ran := by
  have hmem : .draw m ∈ ran ++ left := heq ▸ draw_mem_jobs.mpr ⟨hplot, hm⟩
  refine (List.mem_append.mp hmem).resolve_right fun hleft => ?_
  -- a drawing that was left would come behind the cleaning of the log that it reads
  have horder : (jobs plan).Pairwise (Job.Precedes plan.outputDir) := pairwise_jobs hvalid
  rw [heq, List.pairwise_append] at horder
  exact (horder.2.2 _ hcleaned _ hleft).2 m rfl rfl

theorem drawn_iff_of_gone (hplot : plan.plot = true) (hran : Ran plan.outputDir ran ⟨fs, 0⟩ p)
    (hm : m ∈ motifs plan) (hbefore : fs.pathExists (m.log plan.outputDir) = true)
    (hafter : p.files.pathExists (m.log plan.outputDir) = false) :
    m.Drawn plan.outputDir fs p.files ↔ m.Drawable plan.outputDir fs := by
  have hcleaned := clean_mem_of_gone hvalid heq hran hm hbefore hafter
  have horder : (jobs plan).Pairwise (Job.Precedes plan.outputDir) := pairwise_jobs hvalid
  rw [heq] at horder
  exact (hran.settled (List.pairwise_append.mp horder).1
    (draw_mem_of_clean_mem hvalid heq hplot hm hcleaned)).drawn_iff

end Gone

/-- With both switches on, a log that was taken away was drawn exactly if it could be.  When all
trials are finished all logs are gone, so nothing but drawn logs was taken away exactly if all logs
that there were could be drawn. -/
theorem drawn_of_cleaned (hvalid : plan.validate = .ok ()) (hplot : plan.plot = true)
    (hclean : plan.autoClean = true) (fs : FileSystem) :
    let after := (finishTrials plan fs).2
    (∀ m ∈ motifs plan, fs.pathExists (m.log plan.outputDir) = true →
      after.pathExists (m.log plan.outputDir) = false →
        (m.Drawn plan.outputDir fs after ↔ m.Drawable plan.outputDir fs)) ∧
    ∀ failed, (finishTrials plan fs).1 = .ok failed →
      (∀ m ∈ motifs plan, after.pathExists (m.log plan.outputDir) = false) ∧
      ((∀ m ∈ motifs plan, fs.pathExists (m.log plan.outputDir) = true →
        after.pathExists (m.log plan.outputDir) = false → m.Drawn plan.outputDir fs after) ↔
        ∀ m ∈ motifs plan, fs.pathExists (m.log plan.outputDir) = true →
          m.Drawable plan.outputDir fs) := by
  intro after
  obtain ⟨ran, left, p, heq, hran, hlast, hall⟩ := exists_ran plan fs
  rw [show after = p.files from hlast]
  have hdrawn : ∀ m ∈ motifs plan, fs.pathExists (m.log plan.outputDir) = true →
      p.files.pathExists (m.log plan.outputDir) = false →
        (m.Drawn plan.outputDir fs p.files ↔ m.Drawable plan.outputDir fs) :=
    fun m hm hbefore hafter => drawn_iff_of_gone hvalid heq hplot hran hm hbefore hafter
  refine ⟨hdrawn, fun failed hfailed => ?_⟩
  obtain ⟨rfl, -⟩ := hall failed hfailed
  rw [List.append_nil] at heq
  subst heq
  have hgone : ∀ m ∈ motifs plan, p.files.pathExists (m.log plan.outputDir) = false :=
    fun m hm => hran.gone (pairwise_jobs hvalid) (clean_mem_jobs.mpr ⟨hclean, hm⟩)
  refine ⟨hgone, fun h m hm hbefore => ?_, fun h m hm hbefore hafter => ?_⟩
  · exact (hdrawn m hm hbefore (hgone m hm)).mp (h m hm hbefore (hgone m hm))
  · exact (hdrawn m hm hbefore hafter).mpr (h m hm hbefore)

theorem drawn_of_cleaned_mixedFiles :
    ∃ failed fs', finishTrials (drawingPlan [goodPattern]) mixedFiles = (.ok failed, fs') ∧
      ∀ m ∈ motifs (drawingPlan [goodPattern]), mixedFiles.pathExists (m.log ⟨"log"⟩) = true ∧
        fs'.pathExists (m.log ⟨"log"⟩) = false ∧ m.Drawn ⟨"log"⟩ mixedFiles fs' := by
  have hplain : ∀ m ∈ motifs (drawingPlan [goodPattern]),
      mixedFiles.entryAt (m.figure ⟨"log"⟩).place ≠ some .directory ∧
        mixedFiles.entryAt (m.log ⟨"log"⟩).place ≠ some .directory := by
    decide +kernel
  have hlogs : ∀ m ∈ motifs (drawingPlan [goodPattern]),
      mixedFiles.pathExists (m.log ⟨"log"⟩) = true ∧ m.Drawable ⟨"log"⟩ mixedFiles := by
    decide +kernel
  obtain ⟨failed, fs', hfinish⟩ := exists_finishTrials_of_plain (plain_of_motifs hplain)
  have hcleaned := drawn_of_cleaned (rfl : (drawingPlan [goodPattern]).validate = .ok ()) rfl rfl
    mixedFiles
  rw [hfinish] at hcleaned
  obtain ⟨hgone, -⟩ := hcleaned.2 failed rfl
  refine ⟨failed, fs', hfinish, fun m hm => ⟨(hlogs m hm).1, hgone m hm, ?_⟩⟩
  exact (hcleaned.1 m hm (hlogs m hm).1 (hgone m hm)).mpr (hlogs m hm).2

/-- The only log of a trial is malformed. -/
def malformedFiles : FileSystem :=
  ⟨[(["log"], .directory), (["log", "m"], .directory), (["log", "m", "bad"], .directory),
    (["log", "m", "bad", "bad_issue_log_ch0.log"], .file "ACT\n".toUTF8 false)]⟩

theorem safe_m : nameFault? "m" = none := by
  decide

def malformedTrace : Motif :=
  ⟨⟨⟨"m", safe_m⟩, badPattern⟩, .intervals⟩

/-- A malformed trace is taken away, and there is no figure of it. -/
theorem undrawn_log_lost :
    (drawingPlan [badPattern]).validate = .ok () ∧
      malformedTrace ∈ motifs (drawingPlan [badPattern]) ∧
      ∃ fs', finishTrials (drawingPlan [badPattern]) malformedFiles = (.ok 2, fs') ∧
        malformedFiles.pathExists (malformedTrace.log ⟨"log"⟩) = true ∧
        fs'.pathExists (malformedTrace.log ⟨"log"⟩) = false ∧
        ¬ malformedTrace.Drawn ⟨"log"⟩ malformedFiles fs' := by
  have hresult : (finishTrials (drawingPlan [badPattern]) malformedFiles).1 = .ok 2 := by
    decide +kernel
  have hgone : (finishTrials (drawingPlan [badPattern]) malformedFiles).2.pathExists
      (malformedTrace.log ⟨"log"⟩) = false := by
    decide +kernel
  have hnone : malformedTrace.picture? ⟨"log"⟩ malformedFiles = none := by
    decide +kernel
  refine ⟨rfl, mem_motifs.mpr List.mem_cons_self, ?_⟩
  generalize finishTrials (drawingPlan [badPattern]) malformedFiles = done at *
  obtain ⟨result, fs'⟩ := done
  obtain rfl : result = .ok 2 := hresult
  refine ⟨fs', rfl, by decide +kernel, hgone, ?_⟩
  rintro ⟨picture, hpicture, -⟩
  cases hpicture.symm.trans hnone

end Figure
end MappingSweep
