import MappingSweep.Proofs.Sweep.Beside
import MappingSweep.Proofs.Sweep.Order

/-!
# Sweeps mapping by mapping

What a sweep leaves of one mapping are its entries in the summary, its rows, and what is in its
directory.  All this is as if the worker of the mapping had been alone, so it does not depend on
which other mappings are in the plan, or on what becomes of them.
-/

namespace MappingSweep

/-- The entries of a summary that are about the mapping: its own name, and those of its trials. -/
def Mapping.entriesIn (m : Mapping) (names : List String) : List String :=
  names.filter fun name => (Text.splitOn '/' name.toList).head? = some m.name.toList

namespace Sweep

variable {σ : Type} {plan : Plan} {template : Template} {simulator : Simulator} {sink : Sink σ}
  {contents : σ → List Row} {m n : Mapping}

/-- The names that a worker reports. -/
def reported (report : WorkerReport) : List String :=
  report.finished ++ (report.failure.map (·.1)).toList

theorem reported_patternsThread (patterns : List Pattern) (v : World σ) :
    ∀ name ∈ reported ((patternsThread plan template simulator sink m patterns).run v).1,
      ∃ p : Pattern, name = (Trial.mk m p).name := by
  induction patterns generalizing v with
  | nil =>
    intro name hname
    cases hname
  | cons p rest ih =>
    intro name hname
    rw [run_patternsThread_cons] at hname
    split at hname
    · rcases List.mem_cons.mp hname with rfl | hname
      · exact ⟨p, rfl⟩
      · exact ih _ name hname
    · exact ⟨p, List.mem_singleton.mp hname⟩

theorem run_worker (m : Mapping) (start : World σ) :
    (worker plan template simulator sink m).run start =
      (afterOpening plan template simulator sink m
        (start.files.createDirectories (m.directory plan.outputDir)).1).run
          (opened plan start m) := by
  rw [worker_eq]
  rfl

theorem nameOf_worker (m : Mapping) (start : World σ) :
    ∀ name ∈ reported ((worker plan template simulator sink m).run start).1, NameOf m name := by
  rw [run_worker]
  cases (start.files.createDirectories (m.directory plan.outputDir)).1 with
  | ok _ => exact fun name hname => .inr (reported_patternsThread _ _ name hname)
  | error e => exact fun name hname => .inl (List.mem_singleton.mp hname)

theorem head_splitOn_of_nameOf {name : String} (h : NameOf n name) :
    (Text.splitOn '/' name.toList).head? = some n.name.toList := by
  rcases h with rfl | ⟨p, rfl⟩
  · rw [Text.splitOn_of_not_mem n.isName.2.2.2]
    rfl
  · rw [Trial.splitOn_name]
    rfl

theorem entriesIn_of_nameOf {names : List String} (h : ∀ name ∈ names, NameOf n name) :
    m.entriesIn names = if n.name = m.name then names else [] := by
  split
  · rename_i heq
    refine List.filter_eq_self.mpr fun name hname => ?_
    simpa [heq] using head_splitOn_of_nameOf (h name hname)
  · rename_i hne
    refine List.filter_eq_nil_iff.mpr fun name hname hhead => ?_
    rw [decide_eq_true_eq, head_splitOn_of_nameOf (h name hname), Option.some.injEq,
      String.toList_inj] at hhead
    exact hne hhead

theorem entriesIn_append (m : Mapping) (names more : List String) :
    m.entriesIn (names ++ more) = m.entriesIn names ++ m.entriesIn more :=
  List.filter_append ..

section Reports

variable {P : Mapping → WorkerReport → Prop} {mappings : List Mapping}
  {reports : List WorkerReport}

/-- Workers of other mappings report nothing about the mapping. -/
theorem entriesIn_of_others {names : WorkerReport → List String}
    (h : List.Forall₂ P mappings reports)
    (hnames : ∀ n x, P n x → ∀ name ∈ names x, NameOf n name)
    (hnew : m.name ∉ mappings.map (·.name)) : m.entriesIn (reports.flatMap names) = [] := by
  induction h with
  | nil => rfl
  | cons hx _ ih =>
    rw [List.map_cons, List.mem_cons, not_or] at hnew
    rw [List.flatMap_cons, entriesIn_append, entriesIn_of_nameOf (hnames _ _ hx),
      if_neg (Ne.symm hnew.1), ih hnew.2]
    rfl

/-- The entries of a mapping are those that its own worker reports. -/
theorem exists_report (h : List.Forall₂ P mappings reports)
    (hnodup : (mappings.map (·.name)).Nodup) (hm : m ∈ mappings) :
    ∃ report, P m report ∧ ∀ names : WorkerReport → List String,
      (∀ n x, P n x → ∀ name ∈ names x, NameOf n name) →
        m.entriesIn (reports.flatMap names) = names report := by
  induction h with
  | nil => cases hm
  | @cons n x _ _ hx hrest ih =>
    rw [List.map_cons, List.nodup_cons] at hnodup
    rcases List.mem_cons.mp hm with rfl | hm
    · refine ⟨x, hx, fun names hnames => ?_⟩
      rw [List.flatMap_cons, entriesIn_append, entriesIn_of_nameOf (hnames _ _ hx), if_pos rfl,
        entriesIn_of_others hrest hnames hnodup.1, List.append_nil]
    · obtain ⟨report, hreport, hentries⟩ := ih hnodup.2 hm
      refine ⟨report, hreport, fun names hnames => ?_⟩
      have hne : n.name ≠ m.name := by
        intro heq
        exact hnodup.1 (heq ▸ List.mem_map_of_mem hm)
      rw [List.flatMap_cons, entriesIn_append, entriesIn_of_nameOf (hnames _ _ hx), if_neg hne,
        hentries names hnames, List.nil_append]

end Reports

/-- Of each mapping a sweep leaves what the worker of the mapping leaves by itself. -/
theorem exists_agrees (hvalid : plan.validate = .ok ())
    (h : Separate plan simulator sink contents) (template : Template) (turns : List Turn)
    (start : World σ) (hm : m ∈ plan.mappings) :
    let swept := run plan template simulator sink id turns start
    ∃ report, Agrees plan contents m (report, swept.2)
        ((worker plan template simulator sink m).run start) ∧
      m.entriesIn swept.1.summary.finished = report.finished ∧
      m.entriesIn swept.1.summary.failed = (report.failure.map (·.1)).toList := by
  intro swept
  have hagree := Pool.finish_mirrors (apart_mappings hvalid)
    (fun m _ => ⟨.refl _ _, ⟨fun _ _ => rfl, rfl⟩, rfl⟩)
    (fun m hm => mirrors_worker h template hm start) turns
  obtain ⟨report, hreport, hentries⟩ := exists_report hagree (Plan.nodup_names hvalid).1 hm
  have hnames : ∀ n x, Agrees plan contents n (x, swept.2)
      ((worker plan template simulator sink n).run start) →
        ∀ name ∈ reported x, NameOf n name := by
    intro n x hx name hname
    rw [reported, hx.finished, hx.failure] at hname
    exact nameOf_worker n start name hname
  refine ⟨report, hreport, ?_, ?_⟩
  · exact hentries (·.finished) fun n x hx name hname =>
      hnames n x hx name (List.mem_append_left _ hname)
  · have hfailed := hentries (fun r => (r.failure.map (·.1)).toList) fun n x hx name hname =>
      hnames n x hx name (List.mem_append_right _ hname)
    rw [← List.filterMap_eq_flatMap_toList] at hfailed
    exact hfailed

/-- The way to a mapping whose directory can be made is open in the end. -/
theorem open_of_made (hvalid : plan.validate = .ok ())
    (h : Separate plan simulator sink contents) (template : Template) (turns : List Turn)
    (start : World σ) (hm : m ∈ plan.mappings)
    (hmade : (start.files.createDirectories (m.directory plan.outputDir)).1 = .ok ()) :
    (run plan template simulator sink id turns start).2.files.Open
      (m.directory plan.outputDir).stations := by
  obtain ⟨report, hagrees, -⟩ := exists_agrees hvalid h template turns start hm
  refine (hagrees.way fun hname => ?_).1
  rw [run_worker, hmade] at hname
  obtain ⟨p, hp⟩ := reported_patternsThread _ _ m.name
    (List.mem_append_right _ (Option.mem_toList.mpr hname))
  exact Trial.name_ne_mapping ⟨m, p⟩ m hp.symm

/-! ## Other mappings -/

variable {others : List Mapping}

theorem patternsThread_mappings (m : Mapping) (patterns : List Pattern) :
    patternsThread { plan with mappings := others } template simulator sink m patterns =
      patternsThread plan template simulator sink m patterns := by
  induction patterns with
  | nil => rfl
  | cons p rest ih =>
    have htask : Trial.task { plan with mappings := others } template simulator sink ⟨m, p⟩ =
        Trial.task plan template simulator sink ⟨m, p⟩ := rfl
    rw [patternsThread, patternsThread, ih, htask]

/-- A worker does not look at the other mappings of the plan. -/
theorem worker_mappings (m : Mapping) :
    worker { plan with mappings := others } template simulator sink m =
      worker plan template simulator sink m := by
  have hopen : openMapping { plan with mappings := others } m = openMapping plan m := rfl
  unfold worker
  rw [patternsThread_mappings, hopen]

/-- Sweeps of two plans that differ in their mappings alone come to the same for each mapping that
is in both: the same entries in the summary, the same rows, and the same in its directory.  Places
on the way to the output directory count as well, unless the directory of the mapping could not be
made. -/
theorem same_for_mapping {other : Plan} (template : Template) (start : World σ)
    (turns turns' : List Turn) (hother : other = { plan with mappings := other.mappings })
    (hvalid : plan.validate = .ok ()) (hvalid' : other.validate = .ok ())
    (haside : plan.Aside) (haside' : other.Aside)
    (hconfined : simulator.Confined) (hlocal : simulator.Local)
    (haccepts : sink.Accepts) (hrecords : sink.Records contents)
    (hm : m ∈ plan.mappings) (hm' : m ∈ other.mappings) :
    let first := run plan template simulator sink id turns start
    let second := run other template simulator sink id turns' start
    m.entriesIn first.1.summary.finished = m.entriesIn second.1.summary.finished ∧
      m.entriesIn first.1.summary.failed = m.entriesIn second.1.summary.failed ∧
      m.rowsIn (contents first.2.sink) = m.rowsIn (contents second.2.sink) ∧
      ∀ q, m.place plan.outputDir <+: q →
        (q ∈ plan.outputDir.stations → m.name ∉ first.1.summary.failed) →
          first.2.files.entryAt q = second.2.files.entryAt q := by
  obtain ⟨others, rfl⟩ : ∃ others, other = { plan with mappings := others } := ⟨_, hother⟩
  intro first second
  obtain ⟨report, hfirst, hfinished, hfailed⟩ :=
    exists_agrees hvalid ⟨haside, hconfined, hlocal, haccepts, hrecords⟩ template turns start hm
  obtain ⟨report', hsecond, hfinished', hfailed'⟩ :=
    exists_agrees hvalid' ⟨haside', hconfined, hlocal, haccepts, hrecords⟩ template turns' start hm'
  rw [worker_mappings] at hsecond
  have hfailure := hfirst.failure.trans hsecond.failure.symm
  have hsame := hfirst.same.trans (World.SameFor.symm hsecond.same)
  refine ⟨?_, ?_, hsame.rows, ?_⟩
  · exact hfinished.trans ((hfirst.finished.trans hsecond.finished.symm).trans hfinished'.symm)
  · exact hfailed.trans ((congrArg Option.toList hfailure).trans hfailed'.symm)
  · intro q hq hway
    by_cases hstation : q ∈ plan.outputDir.stations
    · have hopen : report.failure.map (·.1) ≠ some m.name := by
        intro heq
        apply hway hstation
        have hentry : m.name ∈ m.entriesIn first.1.summary.failed := by
          rw [hfailed, heq]
          exact List.mem_singleton_self _
        exact (List.mem_filter.mp hentry).1
      have hroad : q ∈ (m.directory plan.outputDir).stations := by
        rw [stations_directory]
        exact List.mem_append_left _ hstation
      have hleft := (hfirst.way (hfirst.failure ▸ hopen)).1 q hroad
      have hright := (hsecond.way (hsecond.failure ▸ hfailure ▸ hopen)).1 q hroad
      exact hleft.trans hright.symm
    · exact hsame.entries q ⟨hq, hstation⟩

open FileSystem (rooted_empty)
open Run (samplePlan goodPattern badPattern sampleSimulator confined_sampleSimulator
  local_sampleSimulator listSink records_listSink)

theorem accepts_listSink : listSink.Accepts :=
  fun row rows => ⟨rows ++ [row], rfl⟩

theorem nameFault_b : nameFault? "b" = none := by
  decide

def mappingB : Mapping :=
  ⟨"b", nameFault_b⟩

def soloPlan : Plan :=
  { pairPlan with mappings := [mappingB] }

def listSweep (plan : Plan) (simulator : Simulator) (turns : List Turn) :
    SweepOutcome × World (List Row) :=
  run plan (.ofConfig (.mapOf [])) simulator listSink id turns ⟨{}, []⟩

set_option maxRecDepth 100000 in
theorem same_for_mapping_soloPlan :
    soloPlan = { pairPlan with mappings := soloPlan.mappings } ∧
      pairPlan.validate = .ok () ∧ soloPlan.validate = .ok () ∧
      pairPlan.Aside ∧ soloPlan.Aside ∧ sampleSimulator.Confined ∧ sampleSimulator.Local ∧
      listSink.Accepts ∧ listSink.Records (fun rows => rows) ∧
      mappingB.entriesIn
        (listSweep pairPlan sampleSimulator [.thread 1, .thread 0]).1.summary.finished =
          ["b/good"] ∧
      mappingB.rowsIn (listSweep pairPlan sampleSimulator [.thread 1, .thread 0]).2.sink =
        mappingB.rowsIn (listSweep soloPlan sampleSimulator []).2.sink := by
  have hother : soloPlan = { pairPlan with mappings := soloPlan.mappings } := rfl
  have hvalid : pairPlan.validate = .ok () := rfl
  have hvalid' : soloPlan.validate = .ok () := rfl
  have haside : pairPlan.Aside := steady_pairPlan.apart
  have haside' : soloPlan.Aside := (Plan.steady_of_plain (by decide) rooted_empty).apart
  obtain ⟨hfinished, -, hrows, -⟩ := same_for_mapping (m := mappingB)
    (.ofConfig (.mapOf [])) ⟨{}, []⟩ [.thread 1, .thread 0] [] hother hvalid hvalid' haside haside'
    confined_sampleSimulator local_sampleSimulator accepts_listSink records_listSink
    (by decide) (by decide)
  refine ⟨hother, hvalid, hvalid', haside, haside', confined_sampleSimulator,
    local_sampleSimulator, accepts_listSink, records_listSink, ?_, ?_⟩
  · unfold listSweep
    rw [hfinished]
    decide +kernel
  · unfold listSweep
    exact hrows

/-! ## Mappings that meet -/

/-- The way leads through the directory of the mapping `mm`, and often enough nowhere for the path
of that directory to be too long. -/
def windingText : Nat → String
  | 0 => "mm/.."
  | k + 1 => "./" ++ windingText k

def winding (k : Nat) : Path :=
  ⟨windingText k⟩

theorem utf8ByteSize_windingText (k : Nat) : (windingText k).utf8ByteSize = 2 * k + 5 := by
  induction k with
  | zero => rfl
  | succ k ih =>
    have hdot : "./".utf8ByteSize = 2 := rfl
    rw [windingText, String.utf8ByteSize_append, ih, hdot]
    omega

theorem components_winding (k : Nat) : (winding k).components = ["mm", ".."] := by
  induction k with
  | zero => rfl
  | succ k ih =>
    have hdot : "./".toList = ['.', '/'] := rfl
    have hwritten := Path.written_append_slash ['.'] (windingText k).toList
    rw [Path.components, winding, windingText, String.toList_append, hdot]
    exact (congrArg (fun cs => (cs.filter (· != ['.'])).map String.ofList) hwritten).trans ih

theorem isAbsolute_winding (k : Nat) : (winding k).isAbsolute = false := by
  cases k <;> simp [Path.isAbsolute, winding, windingText]

theorem stations_winding (k : Nat) : (winding k).stations = [[], ["mm"], []] := by
  rw [Path.stations, Path.start, isAbsolute_winding, components_winding]
  decide

theorem noNul_windingText (k : Nat) : '\x00' ∉ (windingText k).toList := by
  induction k with
  | zero => decide
  | succ k ih =>
    rw [windingText, String.toList_append, List.mem_append]
    exact not_or.mpr ⟨by decide, ih⟩

theorem endsWithSlash_winding (k : Nat) : (winding k).endsWithSlash = false := by
  have hlast : (windingText k).toList.getLast? = some '.' := by
    induction k with
    | zero => decide
    | succ k ih => rw [windingText, String.toList_append, List.getLast?_append, ih, Option.some_or]
  rw [Path.endsWithSlash, winding, hlast]
  decide

theorem text_directory_winding (m : Mapping) (k : Nat) :
    (m.directory (winding k)).text = windingText k ++ "/" ++ m.name := by
  have hne : (winding k).text ≠ "" := by
    intro hempty
    have hsize := utf8ByteSize_windingText k
    have hzero : (windingText k).utf8ByteSize = 0 := congrArg String.utf8ByteSize hempty
    omega
  rw [Mapping.directory, Path.text_join m.isName, if_neg hne, endsWithSlash_winding]
  rfl

theorem size_directory_winding (m : Mapping) (k : Nat) :
    (m.directory (winding k)).text.utf8ByteSize = 2 * k + 6 + m.name.utf8ByteSize := by
  have hslash : "/".utf8ByteSize = 1 := rfl
  rw [text_directory_winding, String.utf8ByteSize_append, String.utf8ByteSize_append,
    utf8ByteSize_windingText, hslash]

theorem aside_winding {k : Nat} (h : plan.outputDir = winding k) : plan.Aside := by
  intro t _ q hq hinside
  rw [h, stations_winding] at hq
  have hlength := hinside.length_le
  rw [Trial.length_place] at hlength
  have hshort : q.length ≤ 1 := by
    simp only [List.mem_cons, List.not_mem_nil, or_false] at hq
    rcases hq with rfl | rfl | rfl <;> decide
  omega

/-- The directory of a mapping with a short name can be made. -/
theorem made_winding {k : Nat} (hname : m.name = "n") (hk : 2 * k + 7 ≤ FileSystem.pathBound) :
    (FileSystem.createDirectories {} (m.directory (winding k))).1 = .ok () := by
  have hsize : "n".utf8ByteSize = 1 := rfl
  have hfit : (m.directory (winding k)).Fit := by
    refine ⟨text_directory m _, ?_, ?_⟩
    · rw [text_directory_winding, hname, ← Bool.not_eq_true, List.contains_iff_mem,
        String.toList_append, String.toList_append, List.mem_append, List.mem_append, not_or,
        not_or]
      exact ⟨⟨noNul_windingText k, by decide⟩, by decide⟩
    · rw [size_directory_winding, hname, hsize]
      omega
  have hdot : (m.directory (winding k)).endsWithDot = false := Path.endsWithDot_join m.isName
  rw [FileSystem.createDirectories_eq_ok_iff hfit hdot, Mapping.directory, Path.start_join m.isName,
    Path.components_join m.isName, components_winding, Path.start, isAbsolute_winding, hname]
  decide

/-- That of a mapping with a longer name cannot, and nothing else is made. -/
theorem unmade_winding {k : Nat} (hname : m.name = "mm")
    (hk : FileSystem.pathBound < 2 * k + 8) (fs : FileSystem) :
    ∃ e, fs.createDirectories (m.directory (winding k)) = (.error e, fs) := by
  have hsize : "mm".utf8ByteSize = 2 := rfl
  have hunfit : ¬ (m.directory (winding k)).Fit := by
    intro hfit
    have hshort := hfit.short
    rw [size_directory_winding, hname, hsize] at hshort
    omega
  obtain ⟨result, hempty, hresult⟩ := FileSystem.createDirectories_of_not_fit hunfit
  cases result with
  | error e => exact ⟨e, hresult fs⟩
  | ok made =>
    have hnonempty := text_directory m (winding k)
    rw [hempty rfl] at hnonempty
    cases hnonempty

/-- A sweep of one mapping without turns is its worker. -/
theorem run_single (h : plan.mappings = [m]) (template : Template) (w : World σ) :
    (run plan template simulator sink id [] w).2 =
      ((worker plan template simulator sink m).run w).2 := by
  unfold run
  rw [h]
  rfl

def windingPlan (k : Nat) : Plan :=
  { samplePlan [goodPattern] with
    outputDir := winding k
    mappings := [⟨"mm", by decide⟩, ⟨"n", by decide⟩] }

def soloWinding (k : Nat) : Plan :=
  { windingPlan k with mappings := [⟨"mm", by decide⟩] }

theorem entryAt_windingPlan {k : Nat} (hk : 2 * k + 7 ≤ FileSystem.pathBound) :
    (listSweep (windingPlan k) sampleSimulator []).2.files.entryAt ["mm"] = some .directory := by
  have hseparate : Separate (windingPlan k) sampleSimulator listSink fun rows => rows :=
    ⟨aside_winding rfl, confined_sampleSimulator, local_sampleSimulator, accepts_listSink,
      records_listSink⟩
  have hmem : ["mm"] ∈ (Mapping.directory ⟨"n", by decide⟩ (windingPlan k).outputDir).stations := by
    have hway : (windingPlan k).outputDir.stations = [[], ["mm"], []] := stations_winding k
    rw [stations_directory, hway]
    simp
  exact open_of_made (m := ⟨"n", by decide⟩) rfl hseparate (.ofConfig (.mapOf [])) [] ⟨{}, []⟩
    (by simp [windingPlan]) (made_winding rfl hk) _ hmem

theorem entryAt_soloWinding {k : Nat} (hk : FileSystem.pathBound < 2 * k + 8) :
    (listSweep (soloWinding k) sampleSimulator []).2.files.entryAt ["mm"] = none := by
  obtain ⟨e, he⟩ := unmade_winding (m := ⟨"mm", by decide⟩) rfl hk {}
  have hdir : (soloWinding k).outputDir = winding k := rfl
  unfold listSweep
  rw [run_single (m := ⟨"mm", by decide⟩) rfl, run_worker, hdir]
  simp only [opened, hdir, he]
  rfl

def soloCrossing : Plan :=
  { crossingPlan with mappings := [mappingB] }

set_option maxRecDepth 100000 in
/-- In the first two sweeps the trial of `b` finishes only where `a` does not block the way.  In the
last two the directory of `mm` cannot be made, and only `n` makes the way that leads through it. -/
theorem mappings_meet :
    (crossingPlan.validate = .ok () ∧ soloCrossing.validate = .ok () ∧
      blockingSimulator.Confined ∧ blockingSimulator.Local ∧
      listSink.Accepts ∧ listSink.Records (fun rows => rows) ∧
      mappingB ∈ crossingPlan.mappings ∧ mappingB ∈ soloCrossing.mappings ∧
      mappingB.entriesIn (listSweep crossingPlan blockingSimulator []).1.summary.finished = [] ∧
      mappingB.entriesIn (listSweep soloCrossing blockingSimulator []).1.summary.finished =
        ["b/good"]) ∧
    ((windingPlan 2044).validate = .ok () ∧ (soloWinding 2044).validate = .ok () ∧
      (windingPlan 2044).Aside ∧ (soloWinding 2044).Aside ∧
      sampleSimulator.Confined ∧ sampleSimulator.Local ∧
      (listSweep (windingPlan 2044) sampleSimulator []).2.files.entryAt ["mm"] =
        some .directory ∧
      (listSweep (soloWinding 2044) sampleSimulator []).2.files.entryAt ["mm"] = none) := by
  constructor
  · exact ⟨rfl, rfl, confined_blockingSimulator, local_blockingSimulator, accepts_listSink,
      records_listSink, by decide, by decide, by decide +kernel, by decide +kernel⟩
  · exact ⟨rfl, rfl, aside_winding rfl, aside_winding rfl, confined_sampleSimulator,
      local_sampleSimulator, entryAt_windingPlan (by decide), entryAt_soloWinding (by decide)⟩

end Sweep
end MappingSweep
