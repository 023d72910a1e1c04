import Mathlib.Data.List.Nodup
import MappingSweep.Proofs.Number.Numeral
import MappingSweep.Proofs.Trial.Effects

/-!
# The files of trials

All files of a trial lie in its directory, each under a name of its own.  The directories of two
trials of a valid plan lie beside each other, so no path of one trial leads to a path of the other.
-/

namespace MappingSweep

namespace Path

/-- The path goes on from `dir`, by at least one component and never up. -/
def Below (p dir : Path) : Prop :=
  p.isAbsolute = dir.isAbsolute ∧
    ∃ rest, rest ≠ [] ∧ ".." ∉ rest ∧ p.components = dir.components ++ rest

/-- The path is `dir` or goes on from it, as the two are written or by where they lead. -/
def Enters (p dir : Path) : Prop :=
  (p.isAbsolute = dir.isAbsolute ∧ dir.components <+: p.components) ∨ dir.place <+: p.place

variable {p dir top : Path} {name ending : String}

theorem below_join (p : Path) (h : IsName name) : (p.join name).Below p :=
  ⟨isAbsolute_join h, [name], List.cons_ne_nil _ _, by simpa using h.2.2.1.symm,
    components_join h⟩

theorem Below.trans (h : p.Below dir) (h' : dir.Below top) : p.Below top := by
  obtain ⟨habsolute, rest, hne, hdown, hcomponents⟩ := h
  obtain ⟨habsolute', rest', hne', hdown', hcomponents'⟩ := h'
  refine ⟨habsolute.trans habsolute', rest' ++ rest, by simp [hne], ?_, ?_⟩
  · simp [hdown, hdown']
  · rw [hcomponents, hcomponents', List.append_assoc]

theorem foldl_enter_of_down (here : Place) {cs : List String} (h : ".." ∉ cs) :
    cs.foldl Place.enter here = here ++ cs := by
  induction cs generalizing here with
  | nil => simp
  | cons c cs ih =>
    rw [List.mem_cons, not_or] at h
    rw [List.foldl_cons, ih _ h.2, Place.enter, if_neg (Ne.symm h.1), List.append_assoc]
    rfl

/-- A path that never goes up from a directory leads below it. -/
theorem Below.place (h : p.Below dir) :
    ∃ rest, rest ≠ [] ∧ p.components = dir.components ++ rest ∧ p.place = dir.place ++ rest := by
  obtain ⟨habsolute, rest, hne, hdown, hcomponents⟩ := h
  refine ⟨rest, hne, hcomponents, ?_⟩
  have hstart : p.start = dir.start := by rw [start, start, habsolute]
  rw [Path.place, hcomponents, hstart, List.foldl_append]
  exact foldl_enter_of_down _ hdown

theorem Enters.of_below (h : p.Enters dir) (hdir : dir.Below top) : p.Enters top := by
  obtain ⟨rest, -, hcomponents, hplace⟩ := hdir.place
  rcases h with ⟨habsolute, hprefix⟩ | hprefix
  · rw [hcomponents] at hprefix
    exact .inl ⟨habsolute.trans hdir.1, (List.prefix_append _ _).trans hprefix⟩
  · rw [hplace] at hprefix
    exact .inr ((List.prefix_append _ _).trans hprefix)

end Path

/-- A file that a trial reads or writes in its directory. -/
inductive TrialFile where
  | config
  | accessLog
  | commandCountLog
  | stdoutLog
  | commandTrace (channel : Nat)
deriving DecidableEq, Repr

namespace TrialFile

def path (paths : TrialPaths) : TrialFile → Path
  | config => paths.config
  | accessLog => paths.accessLog
  | commandCountLog => paths.commandCountLog
  | stdoutLog => paths.stdoutLog
  | commandTrace channel => paths.commandTrace channel

/-- What follows the name of the pattern.  The simulator's output alone is not named after it. -/
def ending? : TrialFile → Option String
  | config => some ".yaml"
  | accessLog => some ".csv"
  | commandCountLog => some "_cmd_cnt.log"
  | stdoutLog => none
  | commandTrace channel => some ("_issue_log" ++ ("_ch" ++ Number.decimal channel ++ ".log"))

def name (p : Pattern) (f : TrialFile) : String :=
  match f.ending? with
  | some ending => p.name ++ ending
  | none => "stdout.log"

theorem ending_of_channel (channel : Nat) :
    2 ≤ ("_ch" ++ Number.decimal channel ++ ".log").length ∧
      '/' ∉ ("_ch" ++ Number.decimal channel ++ ".log").toList := by
  constructor
  · have hlength : "_ch".length = 3 := rfl
    rw [String.length_append, String.length_append]
    omega
  · simp only [String.toList_append, List.mem_append, not_or]
    exact ⟨⟨by decide, Number.not_mem_decimal rfl channel⟩, by decide⟩

theorem isName_name (p : Pattern) (f : TrialFile) : IsName (f.name p) := by
  cases f with
  | config => exact p.isName.append (by decide) (by decide)
  | accessLog => exact p.isName.append (by decide) (by decide)
  | commandCountLog => exact p.isName.append (by decide) (by decide)
  | stdoutLog =>
    have houtput : IsName "stdout.log" := by decide
    exact houtput
  | commandTrace channel =>
    obtain ⟨hlong, hslash⟩ := ending_of_channel channel
    have hname : IsName (p.name ++ "_issue_log") := p.isName.append (by decide) (by decide)
    have happend := hname.append hlong hslash
    rwa [String.append_assoc] at happend

theorem path_eq_join (outputDir : Path) (t : Trial) (f : TrialFile) :
    f.path (TrialPaths.ofTrial outputDir t) =
      (TrialPaths.ofTrial outputDir t).dir.join (f.name t.pattern) := by
  cases f with
  | commandTrace channel =>
    have hname : IsName (t.pattern.name ++ "_issue_log") :=
      t.pattern.isName.append (by decide) (by decide)
    have hlong : IsName (t.pattern.name ++ "_issue_log" ++
        ("_ch" ++ Number.decimal channel ++ ".log")) := by
      rw [String.append_assoc]
      exact isName_name t.pattern (commandTrace channel)
    have hjoin : _ = (TrialPaths.ofTrial outputDir t).dir.join _ :=
      Path.text_join_append hname hlong
    simp only [← String.append_assoc] at hjoin
    simp only [name, ending?, ← String.append_assoc]
    exact hjoin
  | _ => rfl

theorem ending?_injective : Function.Injective ending? := by
  intro f g h
  -- the first two letters tell the endings of different kinds apart
  have hstart := congrArg (Option.map fun ending => ending.toList.take 2) h
  cases f <;> cases g
  case commandTrace.commandTrace channel channel' =>
    have hlist := congrArg String.toList (Option.some.inj h)
    simp only [String.toList_append, List.append_cancel_left_eq,
      List.append_cancel_right_eq] at hlist
    rw [Number.decimal_injective (String.toList_inj.mp hlist)]
  all_goals first
    | rfl
    | simp [ending?, String.toList_append] at hstart

/-- The name of a pattern with the ending of a file is never that of the simulator's output. -/
theorem append_ending_ne (p : Pattern) {f : TrialFile} {ending : String}
    (hf : f.ending? = some ending) : p.name ++ ending ≠ "stdout.log" := by
  intro h
  have hlast := congrArg (·.toList.getLast?) h
  have hlength := congrArg String.length h
  have hpos : 0 < p.name.length := by
    rw [Nat.pos_iff_ne_zero]
    simpa using p.isName.1
  rw [String.length_append] at hlength
  cases f <;> cases hf
  case config => simp [String.toList_append] at hlast
  case accessLog => simp [String.toList_append] at hlast
  case commandCountLog =>
    have htext : "_cmd_cnt.log".length = 12 := rfl
    have houtput : "stdout.log".length = 10 := rfl
    omega
  case commandTrace channel =>
    have htext : "_issue_log".length = 10 := rfl
    have houtput : "stdout.log".length = 10 := rfl
    rw [String.length_append] at hlength
    omega

theorem name_injective (p : Pattern) : Function.Injective (name p) := by
  intro f g h
  apply ending?_injective
  unfold name at h
  cases hf : f.ending? with
  | none =>
    cases hg : g.ending? with
    | none => rfl
    | some ending =>
      rw [hf, hg] at h
      exact absurd h.symm (append_ending_ne p hg)
  | some ending =>
    cases hg : g.ending? with
    | none =>
      rw [hf, hg] at h
      exact absurd h (append_ending_ne p hf)
    | some ending' =>
      rw [hf, hg] at h
      have hlist := congrArg String.toList h
      rw [String.toList_append, String.toList_append, List.append_cancel_left_eq] at hlist
      rw [String.toList_inj.mp hlist]

end TrialFile

/-! ## Paths of trials -/

namespace Trial

variable (t u : Trial) (outputDir : Path)

/-- The path of the trial's directory or of a file of the trial. -/
def Owns (p : Path) : Prop :=
  p = (TrialPaths.ofTrial outputDir t).dir ∨
    ∃ f : TrialFile, p = f.path (TrialPaths.ofTrial outputDir t)

theorem below_of_file (f : TrialFile) : (f.path (TrialPaths.ofTrial outputDir t)).Below
    (TrialPaths.ofTrial outputDir t).dir := by
  rw [f.path_eq_join]
  exact Path.below_join _ (f.isName_name t.pattern)

theorem place_file (f : TrialFile) :
    (f.path (TrialPaths.ofTrial outputDir t)).place =
      t.place outputDir ++ [f.name t.pattern] := by
  rw [f.path_eq_join, ← t.place_dir]
  exact Path.place_join (f.isName_name t.pattern)

theorem inside_file (f : TrialFile) :
    t.Inside outputDir (f.path (TrialPaths.ofTrial outputDir t)).place := by
  rw [place_file]
  exact List.prefix_append _ _

theorem place_file_ne_place (f : TrialFile) :
    (f.path (TrialPaths.ofTrial outputDir t)).place ≠ t.place outputDir := by
  rw [place_file]
  intro h
  have hlength := congrArg List.length h
  rw [List.length_append, List.length_singleton] at hlength
  omega

theorem below_of_owns {p : Path} (h : t.Owns outputDir p) :
    p.Below (t.mapping.directory outputDir) := by
  have hdir : (TrialPaths.ofTrial outputDir t).dir.Below (t.mapping.directory outputDir) :=
    Path.below_join _ t.pattern.isName
  rcases h with rfl | ⟨f, rfl⟩
  · exact hdir
  · exact (t.below_of_file outputDir f).trans hdir

theorem below_mapping_directory : (t.mapping.directory outputDir).Below outputDir :=
  Path.below_join _ t.mapping.isName

theorem components_dir : (TrialPaths.ofTrial outputDir t).dir.components =
    outputDir.components ++ [t.mapping.name, t.pattern.name] := by
  have hdir : (TrialPaths.ofTrial outputDir t).dir.components = _ :=
    Path.components_join t.pattern.isName
  have hmapping : (t.mapping.directory outputDir).components = _ :=
    Path.components_join t.mapping.isName
  rw [hdir, hmapping, List.append_assoc]
  rfl

/-- All paths of a trial lead into its directory, as they are written and by where they lead. -/
theorem prefix_of_owns {p : Path} (h : t.Owns outputDir p) :
    (TrialPaths.ofTrial outputDir t).dir.components <+: p.components ∧
      t.place outputDir <+: p.place := by
  rw [← t.place_dir]
  rcases h with rfl | ⟨f, rfl⟩
  · exact ⟨List.prefix_refl _, List.prefix_refl _⟩
  · obtain ⟨rest, -, hcomponents, hplace⟩ := (t.below_of_file outputDir f).place
    rw [hcomponents, hplace]
    exact ⟨List.prefix_append _ _, List.prefix_append _ _⟩

/-- Directories of trials with different names have no component in common behind the output
directory. -/
theorem not_components_prefix {t u : Trial} (h : t.name ≠ u.name) {outputDir : Path}
    {cs : List String} (ht : (TrialPaths.ofTrial outputDir t).dir.components <+: cs) :
    ¬ (TrialPaths.ofTrial outputDir u).dir.components <+: cs := by
  intro hu
  apply h
  rw [components_dir] at ht hu
  have hbelow := List.prefix_of_prefix_length_le ht hu (by simp)
  have heq := List.append_cancel_left (hbelow.eq_of_length (by simp))
  simp only [List.cons.injEq, and_true] at heq
  exact name_inj.mpr heq

theorem not_enters_of_ne {t u : Trial} (h : t.name ≠ u.name) {outputDir p q : Path}
    (hp : t.Owns outputDir p) (hq : u.Owns outputDir q) : ¬ p.Enters q := by
  intro henters
  obtain ⟨hcomponents, hplace⟩ := t.prefix_of_owns outputDir hp
  have hdir : p.Enters (TrialPaths.ofTrial outputDir u).dir := by
    rcases hq with rfl | ⟨f, rfl⟩
    · exact henters
    · exact henters.of_below (u.below_of_file outputDir f)
  rcases hdir with ⟨-, hprefix⟩ | hprefix
  · exact not_components_prefix h hcomponents hprefix
  · rw [u.place_dir] at hprefix
    exact not_prefix_of_ne h hplace hprefix

theorem place_injective :
    Function.Injective fun f : TrialFile => (f.path (TrialPaths.ofTrial outputDir t)).place := by
  intro f g h
  apply TrialFile.name_injective t.pattern
  simp only [TrialFile.path_eq_join, Path.place_join (TrialFile.isName_name _ _)] at h
  exact List.singleton_inj.mp (List.append_cancel_left h)

end Trial

/-- All paths of a valid plan's trials lie below the directories of their mappings and never lead
up from the output directory.  No path of one trial is one of another trial or goes on from one,
and the files of one trial, with the command traces of all channels, are at different places. -/
theorem Plan.trials_apart {plan : Plan} (hvalid : plan.validate = .ok ()) :
    (∀ t ∈ plan.trials, ∀ p, t.Owns plan.outputDir p →
      p.Below (t.mapping.directory plan.outputDir) ∧ p.Below plan.outputDir) ∧
    (∀ t ∈ plan.trials, ∀ u ∈ plan.trials, t ≠ u → ∀ p, t.Owns plan.outputDir p →
      ∀ q, u.Owns plan.outputDir q → ¬ p.Enters q) ∧
    ∀ t ∈ plan.trials,
      Function.Injective fun f : TrialFile => (f.path (.ofTrial plan.outputDir t)).place := by
  refine ⟨?_, ?_, fun t _ => t.place_injective plan.outputDir⟩
  · intro t _ p hp
    have hbelow := t.below_of_owns plan.outputDir hp
    exact ⟨hbelow, hbelow.trans (t.below_mapping_directory plan.outputDir)⟩
  · intro t ht u hu hne p hp q hq
    apply Trial.not_enters_of_ne _ hp hq
    intro hname
    exact hne (List.inj_on_of_nodup_map (Plan.nodup_trials hvalid) ht hu hname)

/-- A plan whose names look like ways up and like names of files. -/
def oddPlan : Plan where
  simulator := ⟨"sim"⟩
  baseConfig := ⟨"base.yaml"⟩
  outputDir := ⟨"../log//."⟩
  mappings := [⟨"...", by decide⟩]
  patterns := [⟨"stdout", ⟨""⟩, by decide⟩, ⟨"stdout.log", ⟨""⟩, by decide⟩]
  commands := []
  burstWidth := 4
  maxWorkers := 1
  autoClean := false
  plot := false
  verbose := false

def oddTrials : Trial × Trial :=
  (⟨⟨"...", by decide⟩, ⟨"stdout", ⟨""⟩, by decide⟩⟩,
    ⟨⟨"...", by decide⟩, ⟨"stdout.log", ⟨""⟩, by decide⟩⟩)

theorem Plan.trials_apart_oddPlan :
    oddPlan.validate = .ok () ∧ oddTrials.1 ∈ oddPlan.trials ∧ oddTrials.2 ∈ oddPlan.trials ∧
      oddTrials.1 ≠ oddTrials.2 ∧
      (⟨"../log//./.../stdout/stdout.log"⟩ : Path).Below ⟨"../log//./..."⟩ ∧
      ¬ (⟨"../log//./.../stdout/stdout.log"⟩ : Path).Enters ⟨"../log//./.../stdout.log"⟩ ∧
      ((TrialPaths.ofTrial oddPlan.outputDir oddTrials.1).commandTrace 1).place ≠
        ((TrialPaths.ofTrial oddPlan.outputDir oddTrials.1).commandTrace 11).place := by
  have hvalid : oddPlan.validate = .ok () := rfl
  have hfirst : oddTrials.1 ∈ oddPlan.trials := by decide
  have hsecond : oddTrials.2 ∈ oddPlan.trials := by decide
  have hne : oddTrials.1 ≠ oddTrials.2 := by decide
  obtain ⟨hbelow, hapart, hinjective⟩ := trials_apart hvalid
  have hfile : oddTrials.1.Owns oddPlan.outputDir ⟨"../log//./.../stdout/stdout.log"⟩ :=
    .inr ⟨.stdoutLog, by decide⟩
  have hdir : oddTrials.2.Owns oddPlan.outputDir ⟨"../log//./.../stdout.log"⟩ :=
    .inl (by decide)
  refine ⟨hvalid, hfirst, hsecond, hne, (hbelow _ hfirst _ hfile).1,
    hapart _ hfirst _ hsecond hne _ hfile _ hdir, ?_⟩
  have hchannels : TrialFile.commandTrace 1 ≠ .commandTrace 11 := by decide
  exact fun h => hchannels (hinjective _ hfirst h)

end MappingSweep
