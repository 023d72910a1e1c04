import MappingSweep.Proofs.Keyed
import MappingSweep.Proofs.Log.Counters
import MappingSweep.Proofs.Log.Latency
import MappingSweep.Proofs.Trial.Effects

/-!
# What a row needs

The artifacts of a trial give a row exactly if they meet all of its needs.  The needs have an order,
and of those that are not met the first one gives the error.
-/

namespace MappingSweep

section Checks

variable {ε α β ι : Type} {met : ι → Prop} {unmet : ι → ε → Prop} {needs later : List ι}

/-- The result has gone through the needs in their order: it is good and all are met, or it is the
error of the first one that is not. -/
def Checks (met : ι → Prop) (unmet : ι → ε → Prop) (needs : List ι) (good : α → Prop) :
    Except ε α → Prop
  | .ok x => (∀ need ∈ needs, met need) ∧ good x
  | .error e => ∃ before need after, needs = before ++ need :: after ∧
      (∀ n ∈ before, met n) ∧ unmet need e

variable {good : α → Prop} {fine : β → Prop}

theorem Checks.bind {r : Except ε α} {f : α → Except ε β} (h : Checks met unmet needs good r)
    (hf : ∀ x, good x → Checks met unmet later fine (f x)) :
    Checks met unmet (needs ++ later) fine (r >>= f) := by
  cases r with
  | error e =>
    obtain ⟨before, need, after, rfl, hbefore, hneed⟩ := h
    exact ⟨before, need, after ++ later, by simp, hbefore, hneed⟩
  | ok x =>
    obtain ⟨hmet, hgood⟩ := h
    have hrest := hf x hgood
    rw [show (Except.ok x >>= f) = f x from rfl]
    cases hresult : f x with
    | ok y =>
      rw [hresult] at hrest
      exact ⟨List.forall_mem_append.mpr ⟨hmet, hrest.1⟩, hrest.2⟩
    | error e =>
      rw [hresult] at hrest
      obtain ⟨before, need, after, rfl, hbefore, hneed⟩ := hrest
      exact ⟨needs ++ before, need, after, by simp,
        List.forall_mem_append.mpr ⟨hmet, hbefore⟩, hneed⟩

/-- A continuation that cannot fail needs nothing more. -/
theorem Checks.bind_ok {r : Except ε α} {f : α → Except ε β} (h : Checks met unmet needs good r)
    (hf : ∀ x, good x → ∃ y, f x = .ok y ∧ fine y) : Checks met unmet needs fine (r >>= f) := by
  cases r with
  | error e => exact h
  | ok x =>
    obtain ⟨y, hy, hfine⟩ := hf x h.2
    rw [show (Except.ok x >>= f) = f x from rfl, hy]
    exact ⟨h.1, hfine⟩

theorem Checks.mono {good' : α → Prop} {r : Except ε α} (h : Checks met unmet needs good r)
    (hgood : ∀ x, good x → good' x) : Checks met unmet needs good' r := by
  cases r with
  | error e => exact h
  | ok x => exact ⟨h.1, hgood x h.2⟩

theorem Checks.of_ok {r : Except ε α} (h : Checks met unmet needs (fun _ => True) r)
    (hgood : ∀ x, r = .ok x → good x) : Checks met unmet needs good r := by
  cases r with
  | error e => exact h
  | ok x => exact ⟨h.1, hgood x rfl⟩

theorem checks_one {need : ι} {r : Except ε α} (hok : ∀ x, r = .ok x → met need ∧ good x)
    (herror : ∀ e, r = .error e → unmet need e) : Checks met unmet [need] good r := by
  cases r with
  | ok x => exact ⟨by simpa using (hok x rfl).1, (hok x rfl).2⟩
  | error e => exact ⟨[], need, [], rfl, by simp, herror e rfl⟩

theorem checks_mapM {γ : Type} {xs : List γ} {f : γ → Except ε α} {need : γ → ι}
    {fits : γ → α → Prop} (h : ∀ x, Checks met unmet [need x] (fits x) (f x)) :
    Checks met unmet (xs.map need) (List.Forall₂ fits xs) (xs.mapM f) := by
  induction xs with
  | nil => exact ⟨by simp, .nil⟩
  | cons x xs ih =>
    rw [List.mapM_cons]
    exact (h x).bind fun y hy => ih.bind_ok fun ys hys => ⟨y :: ys, rfl, .cons hy hys⟩

end Checks

section Reading

variable {α : Type} {fs : FileSystem} {p : Path} {parse : String → Except LogFault α}

/-- A log that has been read and parsed. -/
theorem parsed_eq_ok {x : α}
    (h : (do (parse (← fs.loadText p)).mapError (.malformedLog p)) = .ok x) :
    ∃ text, fs.readText p = .ok text ∧ parse text = .ok x := by
  cases htext : fs.readText p with
  | error f => rw [FileSystem.loadText, htext] at h; cases h
  | ok text =>
    rw [FileSystem.loadText, htext] at h
    exact ⟨text, rfl, mapError_eq_ok h⟩

theorem parsed_eq_error {e : SweepError}
    (h : (do (parse (← fs.loadText p)).mapError (.malformedLog p)) = .error e) :
    (∃ f, fs.readText p = .error f ∧ e = .io p f) ∨
      ∃ text f, fs.readText p = .ok text ∧ parse text = .error f ∧ e = .malformedLog p f := by
  cases htext : fs.readText p with
  | error f =>
    rw [FileSystem.loadText, htext] at h
    cases h
    exact .inl ⟨f, rfl, rfl⟩
  | ok text =>
    rw [FileSystem.loadText, htext] at h
    obtain ⟨f, hf, he⟩ := mapError_eq_error h
    exact .inr ⟨text, f, rfl, hf, he⟩

end Reading

namespace Trial

/-- What the artifacts of a trial have to show. -/
inductive Need where
  | accessLog
  | processColumn
  | countLog
  | output
  | count (command : String)
  | counter (name : String)

namespace Need

/-- Logs come first, then the commands in their order, and the counters last. -/
def all (commands : List String) : List Need :=
  [accessLog, processColumn, countLog, output] ++ commands.map count ++
    [counter Counters.memoryCycles, counter Counters.readRequests, counter Counters.writeRequests]

variable (paths : TrialPaths) (fs : FileSystem)

def Met : Need → Prop
  | accessLog => ∃ text stats, fs.readText paths.accessLog = .ok text ∧
      AccessLog.stats text = .ok stats
  | processColumn => ∃ text columns, fs.readText paths.accessLog = .ok text ∧
      AccessLog.columns text = .ok columns ∧ MappingSweep.processColumn ∈ Keyed.keys columns
  | countLog => ∃ text counts, fs.readText paths.commandCountLog = .ok text ∧
      CommandCounts.parse text = .ok counts
  | output => ∃ text, fs.readText paths.stdoutLog = .ok text
  | count command => ∃ text counts, fs.readText paths.commandCountLog = .ok text ∧
      CommandCounts.parse text = .ok counts ∧ command ∈ Keyed.keys counts
  | counter name => ∃ text, fs.readText paths.stdoutLog = .ok text ∧
      name ∈ Keyed.keys (Counters.recognised text)

/-- The error names the file at fault, or what has not been counted. -/
inductive Unmet : Need → SweepError → Prop where
  | unreadableAccessLog {e} (h : fs.readText paths.accessLog = .error e) :
      Unmet accessLog (.io paths.accessLog e)
  | malformedAccessLog {text f} (htext : fs.readText paths.accessLog = .ok text)
      (h : AccessLog.stats text = .error f) : Unmet accessLog (.malformedLog paths.accessLog f)
  | noProcessColumn {text columns} (htext : fs.readText paths.accessLog = .ok text)
      (hcolumns : AccessLog.columns text = .ok columns)
      (h : MappingSweep.processColumn ∉ Keyed.keys columns) :
      Unmet processColumn (.malformedLog paths.accessLog (.noColumn MappingSweep.processColumn))
  | unreadableCountLog {e} (h : fs.readText paths.commandCountLog = .error e) :
      Unmet countLog (.io paths.commandCountLog e)
  | malformedCountLog {text f} (htext : fs.readText paths.commandCountLog = .ok text)
      (h : CommandCounts.parse text = .error f) :
      Unmet countLog (.malformedLog paths.commandCountLog f)
  | unreadableOutput {e} (h : fs.readText paths.stdoutLog = .error e) :
      Unmet output (.io paths.stdoutLog e)
  | noCount {text counts command} (htext : fs.readText paths.commandCountLog = .ok text)
      (hcounts : CommandCounts.parse text = .ok counts) (h : command ∉ Keyed.keys counts) :
      Unmet (count command) (.missingCounter command)
  | noCounter {text name} (htext : fs.readText paths.stdoutLog = .ok text)
      (h : name ∉ Keyed.keys (Counters.recognised text)) :
      Unmet (counter name) (.missingCounter name)

variable {paths fs} {need : Need} {e : SweepError}

theorem Met.not_unmet (h : need.Met paths fs) : ¬ need.Unmet paths fs e := by
  rintro (hbad | ⟨htext, hbad⟩ | ⟨htext, hcolumns, hbad⟩ | hbad | ⟨htext, hbad⟩ | hbad |
    ⟨htext, hcounts, hbad⟩ | ⟨htext, hbad⟩)
  · obtain ⟨text, stats, hgood, -⟩ := h
    cases hbad.symm.trans hgood
  · obtain ⟨text, stats, hgood, hstats⟩ := h
    cases htext.symm.trans hgood
    cases hbad.symm.trans hstats
  · obtain ⟨text, columns, hgood, hstats, hmem⟩ := h
    cases htext.symm.trans hgood
    cases hcolumns.symm.trans hstats
    exact hbad hmem
  · obtain ⟨text, counts, hgood, -⟩ := h
    cases hbad.symm.trans hgood
  · obtain ⟨text, counts, hgood, hcounts⟩ := h
    cases htext.symm.trans hgood
    cases hbad.symm.trans hcounts
  · obtain ⟨text, hgood⟩ := h
    cases hbad.symm.trans hgood
  · obtain ⟨text, counts, hgood, hparse, hmem⟩ := h
    cases htext.symm.trans hgood
    cases hcounts.symm.trans hparse
    exact hbad hmem
  · obtain ⟨text, hgood, hmem⟩ := h
    cases htext.symm.trans hgood
    exact hbad hmem

end Need

/-! ## Reading the artifacts -/

section Reading

variable {paths : TrialPaths} {fs : FileSystem}

theorem checks_readProcess :
    Checks (Need.Met paths fs) (Need.Unmet paths fs) [.accessLog, .processColumn]
      (fun s => ∃ text columns values, fs.readText paths.accessLog = .ok text ∧
        AccessLog.columns text = .ok columns ∧ Keyed.LastUnder processColumn values columns ∧
        LatencyStats.FromValues values s)
      (TrialResult.readProcess fs paths.accessLog) := by
  have hlog : Checks (Need.Met paths fs) (Need.Unmet paths fs) [.accessLog]
      (fun found => ∃ text, fs.readText paths.accessLog = .ok text ∧
        AccessLog.stats text = .ok found) (AccessLog.readStats fs paths.accessLog) := by
    refine checks_one (fun found h => ?_) fun e h => ?_
    · obtain ⟨text, htext, hstats⟩ := parsed_eq_ok h
      exact ⟨⟨text, found, htext, hstats⟩, text, htext, hstats⟩
    · rcases parsed_eq_error h with ⟨f, hf, rfl⟩ | ⟨text, f, htext, hf, rfl⟩
      · exact .unreadableAccessLog hf
      · exact .malformedAccessLog htext hf
  refine hlog.bind fun found hfound => ?_
  obtain ⟨text, htext, hstats⟩ := hfound
  obtain ⟨columns, entries, hcolumns, rfl, hall⟩ := AccessLog.stats_eq_ok_iff.mp hstats
  cases hget : Keyed.get? processColumn (Keyed.ofList entries) with
  | none =>
    refine checks_one (fun _ h => by cases h) fun e h => ?_
    cases h
    refine .noProcessColumn htext hcolumns ?_
    rw [Keyed.keys_eq_of_forall₂ _ hall]
    exact Keyed.get?_ofList_eq_none_iff.mp hget
  | some s =>
    obtain ⟨values, hlast, hvalues⟩ := (Keyed.get?_ofList_eq_some_iff.mp hget).of_forall₂ _ hall
    refine checks_one (fun _ h => ?_) fun e h => by cases h
    cases h
    exact ⟨⟨text, columns, htext, hcolumns, hlast.mem_keys⟩, text, columns, values, htext,
      hcolumns, hlast, hvalues⟩

theorem checks_readCounts :
    Checks (Need.Met paths fs) (Need.Unmet paths fs) [.countLog]
      (fun counts => ∃ text, fs.readText paths.commandCountLog = .ok text ∧
        CommandCounts.parse text = .ok counts)
      (CommandCounts.read fs paths.commandCountLog) := by
  refine checks_one (fun counts h => ?_) fun e h => ?_
  · obtain ⟨text, htext, hcounts⟩ := parsed_eq_ok h
    exact ⟨⟨text, counts, htext, hcounts⟩, text, htext, hcounts⟩
  · rcases parsed_eq_error h with ⟨f, hf, rfl⟩ | ⟨text, f, htext, hf, rfl⟩
    · exact .unreadableCountLog hf
    · exact .malformedCountLog htext hf

theorem checks_readCounters :
    Checks (Need.Met paths fs) (Need.Unmet paths fs) [.output]
      (fun counters => ∃ text, fs.readText paths.stdoutLog = .ok text ∧
        counters = Counters.parse text)
      (Counters.read fs paths.stdoutLog) := by
  unfold Counters.read FileSystem.loadText
  cases htext : fs.readText paths.stdoutLog with
  | error e =>
    refine checks_one (fun _ h => by cases h) fun e h => ?_
    cases h
    exact .unreadableOutput htext
  | ok text =>
    refine checks_one (fun _ h => ?_) fun e h => by cases h
    cases h
    exact ⟨⟨text, htext⟩, text, rfl, rfl⟩

variable {r : TrialResult} {text : String}

theorem checks_countOf (htext : fs.readText paths.commandCountLog = .ok text)
    (hcounts : CommandCounts.parse text = .ok r.commands) (command : String) :
    Checks (Need.Met paths fs) (Need.Unmet paths fs) [.count command]
      (fun n => Keyed.get? command r.commands = some n) (r.countOf command) := by
  unfold TrialResult.countOf
  cases hget : Keyed.get? command r.commands with
  | none =>
    refine checks_one (fun _ h => by cases h) fun e h => ?_
    cases h
    exact .noCount htext hcounts (Keyed.get?_eq_none_iff.mp hget)
  | some n =>
    refine checks_one (fun _ h => ?_) fun e h => by cases h
    cases h
    exact ⟨⟨text, r.commands, htext, hcounts,
      Keyed.mem_keys_of_mem (Keyed.mem_of_get?_eq_some hget)⟩, rfl⟩

theorem checks_find (htext : fs.readText paths.stdoutLog = .ok text)
    (hcounters : r.counters = Counters.parse text) (name : String) :
    Checks (Need.Met paths fs) (Need.Unmet paths fs) [.counter name]
      (fun n => r.counters.find name = .ok n) (r.counters.find name) := by
  rw [hcounters]
  refine checks_one (fun n h => ⟨⟨text, htext, ?_⟩, h⟩) fun e h => ?_
  · exact (Counters.find_eq_ok_iff.mp h).mem_keys
  · unfold Counters.find at h
    split at h
    · cases h
    · rename_i hnone
      cases h
      exact .noCounter htext (Keyed.get?_ofList_eq_none_iff.mp hnone)

theorem checks_bandwidth (htext : fs.readText paths.stdoutLog = .ok text)
    (hcounters : r.counters = Counters.parse text) {cycles : UInt64}
    (hcycles : r.counters.find Counters.memoryCycles = .ok cycles) (burstWidth : UInt64) :
    Checks (Need.Met paths fs) (Need.Unmet paths fs)
      [.counter Counters.readRequests, .counter Counters.writeRequests]
      (fun _ => ∃ reads writes, r.counters.find Counters.readRequests = .ok reads ∧
        r.counters.find Counters.writeRequests = .ok writes)
      (r.bandwidth burstWidth) := by
  unfold TrialResult.bandwidth
  rw [hcycles]
  refine (checks_find htext hcounters _).bind fun reads hreads => ?_
  exact (checks_find htext hcounters _).bind_ok fun writes hwrites =>
    ⟨_, rfl, reads, writes, hreads, hwrites⟩

/-- Each part of the result is what an artifact says. -/
structure Collected (paths : TrialPaths) (fs : FileSystem) (r : TrialResult) : Prop where
  process : ∃ text columns values, fs.readText paths.accessLog = .ok text ∧
    AccessLog.columns text = .ok columns ∧ Keyed.LastUnder processColumn values columns ∧
    LatencyStats.FromValues values r.process
  commands : ∃ text, fs.readText paths.commandCountLog = .ok text ∧
    CommandCounts.parse text = .ok r.commands
  counters : ∃ text, fs.readText paths.stdoutLog = .ok text ∧ r.counters = Counters.parse text

theorem checks_collect :
    Checks (Need.Met paths fs) (Need.Unmet paths fs)
      [.accessLog, .processColumn, .countLog, .output] (Collected paths fs)
      (TrialResult.collect paths fs) := by
  refine checks_readProcess.bind fun process hprocess => ?_
  refine checks_readCounts.bind fun commands hcommands => ?_
  exact checks_readCounters.bind_ok fun counters hcounters =>
    ⟨_, rfl, hprocess, hcommands, hcounters⟩

/-- The reads and writes that make the bandwidth are found again for the row itself. -/
theorem checks_row (t : Trial) (plan : Plan) (h : Collected paths fs r) :
    Checks (Need.Met paths fs) (Need.Unmet paths fs)
      (plan.commands.map .count ++ [.counter Counters.memoryCycles,
        .counter Counters.readRequests, .counter Counters.writeRequests])
      (r.Fills t plan) (r.row t plan) := by
  obtain ⟨countText, hcountText, hcounts⟩ := h.commands
  obtain ⟨text, htext, hcounters⟩ := h.counters
  refine Checks.of_ok ?_ fun row hrow => TrialResult.fills_of_row hrow
  refine (checks_mapM fun command => checks_countOf hcountText hcounts command).bind fun _ _ => ?_
  refine (checks_find htext hcounters _).bind fun cycles hcycles => ?_
  refine (checks_bandwidth htext hcounters hcycles plan.burstWidth).bind_ok fun usage h => ?_
  obtain ⟨reads, writes, hreads, hwrites⟩ := h
  rw [hreads, hwrites]
  exact ⟨_, rfl, trivial⟩

end Reading

/-- The row says what the artifacts say: the statistics of the last process column, the counts in
the order of the plan, and of each counter the value that was told last. -/
structure Tells (paths : TrialPaths) (fs : FileSystem) (t : Trial) (plan : Plan) (row : Row) :
    Prop where
  pattern : row.pattern = t.pattern.name
  trace : row.trace = t.pattern.path.text
  mapping : row.mapping = t.mapping.name
  latencies : ∃ text columns values s, fs.readText paths.accessLog = .ok text ∧
    AccessLog.columns text = .ok columns ∧ Keyed.LastUnder processColumn values columns ∧
    LatencyStats.FromValues values s ∧ row.averageLatency = s.mean ∧ row.medianLatency = s.median
  commands : ∃ text counts, fs.readText paths.commandCountLog = .ok text ∧
    CommandCounts.parse text = .ok counts ∧
    List.Forall₂ (fun command n => Keyed.get? command counts = some n) plan.commands row.commands
  counters : ∃ text, fs.readText paths.stdoutLog = .ok text ∧
    Keyed.LastUnder Counters.memoryCycles row.totalLatency (Counters.recognised text) ∧
    Keyed.LastUnder Counters.readRequests row.reads (Counters.recognised text) ∧
    Keyed.LastUnder Counters.writeRequests row.writes (Counters.recognised text)
  bandwidth : row.bandwidthUsage =
    bandwidthUtilization row.reads row.writes row.totalLatency plan.burstWidth
  bandwidth_eq_none_iff : row.bandwidthUsage = none ↔ row.totalLatency = 0

theorem bandwidthUtilization_eq_none_iff {reads writes cycles burstWidth : UInt64} :
    bandwidthUtilization reads writes cycles burstWidth = none ↔ cycles = 0 := by
  unfold bandwidthUtilization
  split <;> simp_all

theorem countOf_eq_ok_iff {r : TrialResult} {command : String} {n : UInt64} :
    r.countOf command = .ok n ↔ Keyed.get? command r.commands = some n := by
  unfold TrialResult.countOf
  cases Keyed.get? command r.commands <;> simp

theorem Collected.tells {paths : TrialPaths} {fs : FileSystem} {r : TrialResult} {t : Trial}
    {plan : Plan} {row : Row} (h : Collected paths fs r) (hrow : r.Fills t plan row) :
    Tells paths fs t plan row := by
  obtain ⟨accessText, columns, values, haccess, hcolumns, hlast, hvalues⟩ := h.process
  obtain ⟨countText, hcountText, hcounts⟩ := h.commands
  obtain ⟨text, htext, hcounters⟩ := h.counters
  have hcycles := hrow.totalLatency
  have hreads := hrow.reads
  have hwrites := hrow.writes
  have husage : row.bandwidthUsage =
      bandwidthUtilization row.reads row.writes row.totalLatency plan.burstWidth := by
    have husage := hrow.bandwidth
    simp only [TrialResult.bandwidth, hcycles, hreads, hwrites, bind, Except.bind] at husage
    exact (Except.ok.inj husage).symm
  rw [hcounters] at hcycles hreads hwrites
  refine ⟨hrow.pattern, hrow.trace, hrow.mapping, ?_, ?_, ?_, husage, ?_⟩
  · exact ⟨accessText, columns, values, r.process, haccess, hcolumns, hlast, hvalues,
      hrow.latencies⟩
  · exact ⟨countText, r.commands, hcountText, hcounts,
      (mapM_eq_ok_iff.mp hrow.commands).imp fun _ _ => countOf_eq_ok_iff.mp⟩
  · exact ⟨text, htext, Counters.find_eq_ok_iff.mp hcycles, Counters.find_eq_ok_iff.mp hreads,
      Counters.find_eq_ok_iff.mp hwrites⟩
  · rw [husage]
    exact bandwidthUtilization_eq_none_iff

theorem checks_readRow (t : Trial) (plan : Plan) (paths : TrialPaths) (fs : FileSystem) :
    Checks (Need.Met paths fs) (Need.Unmet paths fs) (Need.all plan.commands)
      (Tells paths fs t plan) (t.readRow plan paths fs).1 := by
  refine checks_collect.bind fun r hr => ?_
  exact (checks_row t plan hr).mono fun row hrow => hr.tells hrow

/-- Whatever there is in place of the artifacts, they give a row exactly if all needs are met.  The
row says what they say, and the error is that of the first need that is not met. -/
theorem row_of_needs (t : Trial) (plan : Plan) (paths : TrialPaths) (fs : FileSystem) :
    ((∃ row, (t.readRow plan paths fs).1 = .ok row) ↔
      ∀ need ∈ Need.all plan.commands, need.Met paths fs) ∧
    (∀ row, (t.readRow plan paths fs).1 = .ok row → Tells paths fs t plan row) ∧
    ∀ e, (t.readRow plan paths fs).1 = .error e →
      ∃ before need after, Need.all plan.commands = before ++ need :: after ∧
        (∀ n ∈ before, n.Met paths fs) ∧ need.Unmet paths fs e := by
  have hchecks := checks_readRow t plan paths fs
  cases hresult : (t.readRow plan paths fs).1 with
  | ok row =>
    rw [hresult] at hchecks
    obtain ⟨hmet, htells⟩ := hchecks
    refine ⟨⟨fun _ => hmet, fun _ => ⟨row, rfl⟩⟩, fun other h => ?_, nofun⟩
    cases h
    exact htells
  | error e =>
    rw [hresult] at hchecks
    obtain ⟨before, need, after, hall, hbefore, hneed⟩ := hchecks
    refine ⟨⟨fun ⟨_, h⟩ => (nomatch h), fun hmet => ?_⟩, nofun, fun other h => ?_⟩
    · have hmem : need ∈ Need.all plan.commands := by simp [hall]
      exact absurd hneed (hmet need hmem).not_unmet
    · cases h
      exact ⟨before, need, after, hall, hbefore, hneed⟩

open Run (samplePlan goodPattern)

def twoCommandPlan : Plan :=
  { samplePlan [goodPattern] with commands := ["WR", "RD"] }

def goodPaths : TrialPaths :=
  .ofTrial twoCommandPlan.outputDir goodTrial

def artifactsWith (counts output : String) : FileSystem :=
  let made := (({} : FileSystem).createDirectories goodPaths.dir).2
  ((made.set goodPaths.accessLog.place (.file "process,process\n1,2\n".toUTF8 false)).set
    goodPaths.commandCountLog.place (.file counts.toUTF8 false)).set
    goodPaths.stdoutLog.place (.file output.toUTF8 false)

/-- Reads are counted twice, and so are the cycles. -/
def repeatingArtifacts : FileSystem :=
  artifactsWith "RD: 1\nWR: 2\nRD: 5\n"
    ("memory_system_cycles: 7\ntotal_num_read_requests: 5\n" ++
      "total_num_write_requests: 2\nmemory_system_cycles: 0\n")

/-- Writes are not counted, and the output tells nothing. -/
def lackingArtifacts : FileSystem :=
  artifactsWith "RD: 1\n" ""

theorem row_of_needs_goodTrial :
    (∃ row, (goodTrial.readRow twoCommandPlan goodPaths repeatingArtifacts).1 = .ok row ∧
      row.commands = [2, 5] ∧ row.totalLatency = 0 ∧ row.bandwidthUsage = none ∧
      ∀ need ∈ Need.all ["WR", "RD"], need.Met goodPaths repeatingArtifacts) ∧
    (goodTrial.readRow twoCommandPlan goodPaths lackingArtifacts).1 =
      .error (.missingCounter "WR") ∧
    ∃ before need after, Need.all ["WR", "RD"] = before ++ need :: after ∧
      (∀ n ∈ before, n.Met goodPaths lackingArtifacts) ∧
      need.Unmet goodPaths lackingArtifacts (.missingCounter "WR") := by
  obtain ⟨hneeds, htells, -⟩ :=
    row_of_needs goodTrial twoCommandPlan goodPaths repeatingArtifacts
  obtain ⟨-, -, hfirst⟩ := row_of_needs goodTrial twoCommandPlan goodPaths lackingArtifacts
  have hshown : ((goodTrial.readRow twoCommandPlan goodPaths repeatingArtifacts).1.map
      fun row => (row.commands, row.totalLatency)) = .ok ([2, 5], 0) := by
    decide +kernel
  have herror : (goodTrial.readRow twoCommandPlan goodPaths lackingArtifacts).1 =
      .error (.missingCounter "WR") := by
    decide +kernel
  refine ⟨?_, herror, hfirst _ herror⟩
  cases hrow : (goodTrial.readRow twoCommandPlan goodPaths repeatingArtifacts).1 with
  | error e => rw [hrow] at hshown; cases hshown
  | ok row =>
    rw [hrow] at hshown
    obtain ⟨hcommands, hcycles⟩ := Prod.mk.inj (Except.ok.inj hshown)
    exact ⟨row, rfl, hcommands, hcycles, (htells row hrow).bandwidth_eq_none_iff.mpr hcycles,
      hneeds.mp ⟨row, hrow⟩⟩

end Trial
end MappingSweep
