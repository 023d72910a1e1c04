import MappingSweep.Proofs.Plan
import MappingSweep.Proofs.Traversal
import MappingSweep.Settings.Basic

/-!
# Reading a plan off a table

Each parameter is read on its own, from the value under its key.  Mappings and patterns are known by
what their names and paths are, since their names are safe.
-/

namespace MappingSweep

theorem bind_eq_ok_iff {ε α β : Type} {r : Except ε α} {f : α → Except ε β} {y : β} :
    (r >>= f) = .ok y ↔ ∃ x, r = .ok x ∧ f x = .ok y := by
  cases r <;> simp [bind, Except.bind]

theorem mapError_eq_ok_iff {ε ε' α : Type} {r : Except ε α} {f : ε → ε'} {x : α} :
    r.mapError f = .ok x ↔ r = .ok x := by
  cases r <;> simp [Except.mapError]

theorem toOption_eq_some_iff {ε α : Type} {r : Except ε α} {x : α} :
    r.toOption = some x ↔ r = .ok x := by
  cases r <;> simp [Except.toOption]

theorem Mapping.ofName_eq_ok_iff {name : String} {m : Mapping} :
    Mapping.ofName name = .ok m ↔ m.name = name := by
  unfold Mapping.ofName
  split
  · rename_i hsafe
    exact ⟨fun h => Except.ok.inj h ▸ rfl, fun h => by subst h; rfl⟩
  · rename_i f hfault
    refine ⟨nofun, fun h => ?_⟩
    subst h
    cases m.safe.symm.trans hfault

theorem Pattern.ofName_eq_ok_iff {name : String} {path : Path} {p : Pattern} :
    Pattern.ofName name path = .ok p ↔ p.name = name ∧ p.path = path := by
  unfold Pattern.ofName
  split
  · rename_i hsafe
    exact ⟨fun h => Except.ok.inj h ▸ ⟨rfl, rfl⟩, fun ⟨hname, hpath⟩ => by subst hname hpath; rfl⟩
  · rename_i f hfault
    refine ⟨nofun, fun ⟨hname, _⟩ => ?_⟩
    subst hname
    cases p.safe.symm.trans hfault

/-- What it is to read a value under a key, with a reader and a default. -/
abbrev Reading : Type 1 :=
  ∀ α : Type, String → (Setting → Option α) → Option α → α → Prop

open SettingsTable in
/-- Every parameter of the plan is read under its key, and all but two have a default. -/
structure Plan.ReadBy (p : Plan) (reads : Reading) : Prop where
  simulator : reads _ "simulator" toPath? (some ⟨"./build/ramulator2"⟩) p.simulator
  baseConfig : reads _ "base_config" toPath? (some ⟨"ddr4.yaml"⟩) p.baseConfig
  outputDir : reads _ "output_dir" toPath? (some ⟨"./log"⟩) p.outputDir
  mappings : reads _ "mappings" toTexts? none p.mappingNames
  patterns : reads _ "traces" toTraces? none (p.patterns.map fun q => (q.name, q.path))
  commands : reads _ "commands" toTexts? (some defaultCommands) p.commands
  burstWidth : reads _ "burst_width" Setting.toWord? (some 4) p.burstWidth
  maxWorkers : reads _ "max_workers" Setting.toWord? (some 8) p.maxWorkers
  autoClean : reads _ "auto_clean" Setting.toBool? (some false) p.autoClean
  plot : reads _ "plot" Setting.toBool? (some true) p.plot
  verbose : reads _ "verbose" Setting.toBool? (some false) p.verbose

/-- No parameter is a table. -/
theorem Plan.ReadBy.imp {p : Plan} {reads reads' : Reading}
    (h : ∀ α, ∀ key ∈ SettingsTable.planKeys, ∀ read : Setting → Option α,
      (∀ es, read (.table es) = none) → ∀ default x, reads α key read default x →
        reads' α key read default x)
    (hp : p.ReadBy reads) : p.ReadBy reads' where
  simulator := h _ _ (by decide) _ (fun _ => rfl) _ _ hp.simulator
  baseConfig := h _ _ (by decide) _ (fun _ => rfl) _ _ hp.baseConfig
  outputDir := h _ _ (by decide) _ (fun _ => rfl) _ _ hp.outputDir
  mappings := h _ _ (by decide) _ (fun _ => rfl) _ _ hp.mappings
  patterns := h _ _ (by decide) _ (fun _ => rfl) _ _ hp.patterns
  commands := h _ _ (by decide) _ (fun _ => rfl) _ _ hp.commands
  burstWidth := h _ _ (by decide) _ (fun _ => rfl) _ _ hp.burstWidth
  maxWorkers := h _ _ (by decide) _ (fun _ => rfl) _ _ hp.maxWorkers
  autoClean := h _ _ (by decide) _ (fun _ => rfl) _ _ hp.autoClean
  plot := h _ _ (by decide) _ (fun _ => rfl) _ _ hp.plot
  verbose := h _ _ (by decide) _ (fun _ => rfl) _ _ hp.verbose

namespace SettingsTable

variable {α : Type} {t : SettingsTable} {key : String} {read : Setting → Option α} {x : α}

theorem converted_eq_ok_iff {v : Setting} : converted key read v = .ok x ↔ read v = some x := by
  unfold converted
  cases read v <;> simp

theorem optional_eq_ok_iff {default : α} :
    t.optional key read default = .ok x ↔ (t.lookup key).elim (some default) read = some x := by
  unfold optional
  cases t.lookup key with
  | none => simp
  | some v => exact converted_eq_ok_iff

theorem required_eq_ok_iff :
    t.required key read = .ok x ↔ (t.lookup key).elim none read = some x := by
  unfold required
  cases t.lookup key with
  | none => simp
  | some v => exact converted_eq_ok_iff

theorem mapM_mappingOf_eq_ok_iff {names : List String} {ms : List Mapping} :
    names.mapM mappingOf = .ok ms ↔ names = ms.map (·.name) := by
  simp only [mapM_eq_ok_iff, mappingOf, mapError_eq_ok_iff, Mapping.ofName_eq_ok_iff]
  rw [← List.forall₂_eq_eq_eq, List.forall₂_map_right_iff]
  simp only [eq_comm]

theorem mapM_patternOf_eq_ok_iff {traces : List (String × Path)} {ps : List Pattern} :
    traces.mapM patternOf = .ok ps ↔ traces = ps.map fun p => (p.name, p.path) := by
  simp only [mapM_eq_ok_iff, patternOf, mapError_eq_ok_iff, Pattern.ofName_eq_ok_iff]
  rw [← List.forall₂_eq_eq_eq, List.forall₂_map_right_iff]
  simp only [Prod.ext_iff, eq_comm]

theorem toPlan_eq_ok_iff {p : Plan} :
    t.toPlan = .ok p ↔ p.ReadBy fun _ key read default x =>
      (t.lookup key).elim default read = some x := by
  simp only [toPlan, bind_eq_ok_iff, optional_eq_ok_iff, required_eq_ok_iff,
    mapM_mappingOf_eq_ok_iff, mapM_patternOf_eq_ok_iff, pure, Except.pure, Except.ok.injEq]
  constructor
  · rintro ⟨simulator, hsimulator, baseConfig, hbaseConfig, outputDir, houtputDir, names, hnames,
      mappings, rfl, traces, htraces, patterns, rfl, commands, hcommands, burstWidth, hburstWidth,
      maxWorkers, hmaxWorkers, autoClean, hautoClean, plot, hplot, verbose, hverbose, rfl⟩
    exact ⟨hsimulator, hbaseConfig, houtputDir, hnames, htraces, hcommands, hburstWidth,
      hmaxWorkers, hautoClean, hplot, hverbose⟩
  · intro h
    exact ⟨_, h.simulator, _, h.baseConfig, _, h.outputDir, _, h.mappings, _, rfl, _, h.patterns,
      _, rfl, _, h.commands, _, h.burstWidth, _, h.maxWorkers, _, h.autoClean, _, h.plot, _,
      h.verbose, rfl⟩

end SettingsTable
end MappingSweep
