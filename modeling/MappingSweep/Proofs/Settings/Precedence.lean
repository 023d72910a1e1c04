import MappingSweep.Proofs.Settings.Layers
import MappingSweep.Proofs.Settings.Loading

/-!
# Where a parameter comes from

A parameter is taken from the strongest source that sets it, as it stands there: the command line,
then the environment, then the files from the last one to the first, then its default.
-/

namespace MappingSweep

open Keyed (LastUnder LastTold keys)
open SettingsTable

namespace Overrides

variable {o : Overrides} {key : String} {v : Setting}

/-- Paths that are given, and flags that are set.  A flag that is left off says nothing. -/
inductive Sets (o : Overrides) : String → Setting → Prop
  | baseConfig (path : String) (h : o.baseConfig = some path) : Sets o "base_config" (.text path)
  | outputDir (path : String) (h : o.outputDir = some path) : Sets o "output_dir" (.text path)
  | autoClean (h : o.autoClean = true) : Sets o "auto_clean" (.bool true)
  | verbose (h : o.verbose = true) : Sets o "verbose" (.bool true)
  | plot (h : o.noPlot = true) : Sets o "plot" (.bool false)

theorem mem_layer_iff : (key, v) ∈ o.layer ↔ o.Sets key v := by
  constructor
  · intro hmem
    simp only [layer, List.mem_append, List.mem_map, Option.mem_toList, Option.map_eq_some_iff,
      Prod.mk.injEq, List.mem_ite_nil_right, List.mem_singleton] at hmem
    obtain (((⟨w, ⟨path, hpath, rfl⟩, rfl, rfl⟩ | ⟨w, ⟨path, hpath, rfl⟩, rfl, rfl⟩) |
      ⟨hset, rfl, rfl⟩) | ⟨hset, rfl, rfl⟩) | ⟨hset, rfl, rfl⟩ := hmem
    · exact .baseConfig path hpath
    · exact .outputDir path hpath
    · exact .autoClean hset
    · exact .verbose hset
    · exact .plot hset
  · rintro (⟨path, h⟩ | ⟨path, h⟩ | h | h | h) <;> simp [layer, h]

theorem nodup_keys_layer (o : Overrides) : (keys o.layer).Nodup := by
  obtain ⟨baseConfig, outputDir, autoClean, verbose, noPlot⟩ := o
  cases baseConfig <;> cases outputDir <;> cases autoClean <;> cases verbose <;> cases noPlot <;>
    simp [layer]

theorem lastUnder_layer_iff : LastUnder key v o.layer ↔ o.Sets key v := by
  rw [Keyed.lastUnder_iff_mem o.nodup_keys_layer, mem_layer_iff]

theorem plain_layer (o : Overrides) : Plain o.layer := by
  rintro ⟨key, v⟩ hmem -
  cases mem_layer_iff.mp hmem <;> exact ⟨ofKey_of_mem _ (by simp [planKeys]), nofun⟩

end Overrides

namespace Environment

variable {env : Environment} {key : String} {v : Setting}

/-- The variable has the name of the key behind the prefix, in any case. -/
def Tells (x : String × String) (key : String) (v : Setting) : Prop :=
  x.1.toList.map lowered = namePrefix ++ key.toList ∧ v = valueOf key x.2

theorem settingOf?_eq_some_iff (x : String × String) (key : String) (v : Setting) :
    settingOf? x.1 x.2 = some (key, v) ↔ Tells x key v := by
  simp only [settingOf?, Tells]
  split
  · rename_i hprefix
    obtain ⟨rest, hrest⟩ := List.isPrefixOf_iff_prefix.mp hprefix
    have hkey : String.ofList rest = key ↔ rest = key.toList :=
      ⟨fun h => h ▸ String.toList_ofList.symm, fun h => h ▸ String.ofList_toList⟩
    rw [← hrest, List.drop_left, Option.some_inj, Prod.mk.injEq, List.append_cancel_left_eq, hkey]
    refine and_congr_right fun h => ?_
    rw [h, String.ofList_toList, eq_comm]
  · rename_i hprefix
    refine iff_of_false nofun fun ⟨hname, _⟩ => hprefix ?_
    rw [hname]
    exact List.isPrefixOf_iff_prefix.mpr (List.prefix_append ..)

example : settingOf? "Dse_Max_Wor\u212aers" "3" = some ("max_workers", .int 3) :=
  rfl

theorem lastUnder_layer_iff : LastUnder key v (layer env) ↔ LastTold Tells key v env :=
  Keyed.lastUnder_filterMap_iff settingOf?_eq_some_iff

end Environment

/-- What settings come from, of the files what they hold. -/
structure Sources where
  files : List SettingsTable
  env : Environment
  commandLine : Overrides

namespace Sources

variable {src : Sources} {key : String} {s : Option Setting} {α : Type}

def layers (src : Sources) : List SettingsTable :=
  src.files ++ [Environment.layer src.env] ++ [src.commandLine.layer]

/-- What the strongest source that has the key says, if there is one.  Of variables of one name, as
of files, the last one counts. -/
inductive Given (src : Sources) (key : String) : Option Setting → Prop
  | commandLine (v : Setting) (h : src.commandLine.Sets key v) : Given src key (some v)
  | environment (v : Setting) (hline : ∀ v, ¬ src.commandLine.Sets key v)
      (h : LastTold Environment.Tells key v src.env) : Given src key (some v)
  | file (v : Setting) (hline : ∀ v, ¬ src.commandLine.Sets key v)
      (henv : ∀ x ∈ src.env, ∀ v, ¬ Environment.Tells x key v)
      (h : LastValue key v src.files) : Given src key (some v)
  | nowhere (hline : ∀ v, ¬ src.commandLine.Sets key v)
      (henv : ∀ x ∈ src.env, ∀ v, ¬ Environment.Tells x key v)
      (hfiles : ∀ t ∈ src.files, key ∉ keys t) : Given src key none

theorem exists_given (src : Sources) (key : String) : ∃ s, src.Given key s := by
  by_cases hline : ∃ v, src.commandLine.Sets key v
  · obtain ⟨v, hv⟩ := hline
    exact ⟨_, .commandLine v hv⟩
  have hline : ∀ v, ¬ src.commandLine.Sets key v := not_exists.mp hline
  rcases Keyed.exists_lastTold_or Environment.Tells key src.env with ⟨v, hv⟩ | henv
  · exact ⟨_, .environment v hline hv⟩
  rcases Keyed.exists_lastTold_or (fun t key v => LastUnder key v t) key src.files with
    ⟨v, hv⟩ | hfiles
  · exact ⟨_, .file v hline henv hv⟩
  · refine ⟨_, .nowhere hline henv fun t ht hmem => ?_⟩
    obtain ⟨v, hv⟩ := Keyed.exists_lastUnder_iff.mpr hmem
    exact hfiles t ht v hv

theorem setKeys_layers (h : SetKeys (src.files ++ [Environment.layer src.env])) :
    SetKeys src.layers :=
  h.concat (src.commandLine.plain_layer.setsKeys _)

theorem silent_line (h : ∀ v, ¬ src.commandLine.Sets key v) (v : Setting) :
    ¬ LastUnder key v src.commandLine.layer :=
  fun hv => h v (Overrides.lastUnder_layer_iff.mp hv)

theorem silent_env (h : ∀ x ∈ src.env, ∀ v, ¬ Environment.Tells x key v) (v : Setting) :
    ¬ LastUnder key v (Environment.layer src.env) := by
  intro hv
  obtain ⟨before, x, after, heq, hx, -⟩ := Environment.lastUnder_layer_iff.mp hv
  exact h x (by simp [heq]) v hx

/-- The merged settings have under the key of a parameter what the strongest source says. -/
theorem Given.rel_lookup (h : src.Given key s) (hkeys : SetKeys src.layers)
    (hkey : key ∈ planKeys) :
    Option.Rel Setting.Alike s ((SettingsTable.ofLayers src.layers).lookup key) := by
  obtain ⟨hlast, hnone⟩ := lookup_ofLayers hkeys hkey
  have hsome : ∀ v, LastValue key v src.layers →
      Option.Rel Setting.Alike (some v) ((SettingsTable.ofLayers src.layers).lookup key) := by
    intro v hv
    obtain ⟨w, hw, hvw⟩ := hlast v hv
    exact hw ▸ .some hvw
  cases h with
  | commandLine v hv =>
    exact hsome v (Keyed.lastTold_concat.mpr (.inl (Overrides.lastUnder_layer_iff.mpr hv)))
  | environment v hline hv =>
    have henv : LastValue key v (src.files ++ [Environment.layer src.env]) :=
      Keyed.lastTold_concat.mpr (.inl (Environment.lastUnder_layer_iff.mpr hv))
    exact hsome v (Keyed.lastTold_concat.mpr (.inr ⟨silent_line hline, henv⟩))
  | file v hline henv hv =>
    have hfile : LastValue key v (src.files ++ [Environment.layer src.env]) :=
      Keyed.lastTold_concat.mpr (.inr ⟨silent_env henv, hv⟩)
    exact hsome v (Keyed.lastTold_concat.mpr (.inr ⟨silent_line hline, hfile⟩))
  | nowhere hline henv hfiles =>
    rw [hnone]
    · exact .none
    intro t ht hmem
    obtain ⟨v, hv⟩ := Keyed.exists_lastUnder_iff.mpr hmem
    simp only [layers, List.mem_append, List.mem_singleton] at ht
    rcases ht with (ht | rfl) | rfl
    · exact hfiles t ht hmem
    · exact silent_env henv v hv
    · exact silent_line hline v hv

/-- The reader takes the strongest value for the parameter, or the default if there is none. -/
def Reads (src : Sources) (α : Type) (key : String) (read : Setting → Option α)
    (default : Option α) (x : α) : Prop :=
  ∃ s, src.Given key s ∧ s.elim default read = some x

theorem reads_iff {read : Setting → Option α} {default : Option α} {x : α}
    (hkeys : SetKeys src.layers) (hkey : key ∈ planKeys) (htable : ∀ es, read (.table es) = none) :
    src.Reads α key read default x ↔
      ((SettingsTable.ofLayers src.layers).lookup key).elim default read = some x := by
  have helim : ∀ s, src.Given key s → s.elim default read =
      ((SettingsTable.ofLayers src.layers).lookup key).elim default read := by
    intro s hs
    have hrel := hs.rel_lookup hkeys hkey
    generalize (SettingsTable.ofLayers src.layers).lookup key = found at hrel ⊢
    cases hrel with
    | none => rfl
    | some hvw =>
      cases hvw with
      | same v => rfl
      | tables es fs => exact (htable es).trans (htable fs).symm
  constructor
  · rintro ⟨s, hs, hread⟩
    rwa [← helim s hs]
  · intro hread
    obtain ⟨s, hs⟩ := src.exists_given key
    exact ⟨s, hs, (helim s hs).trans hread⟩

theorem toPlan_eq_ok_iff {p : Plan} (hkeys : SetKeys src.layers) :
    (SettingsTable.ofLayers src.layers).toPlan = .ok p ↔ p.ReadBy src.Reads := by
  rw [SettingsTable.toPlan_eq_ok_iff]
  exact ⟨.imp fun _ _ hkey _ htable _ _ => (reads_iff hkeys hkey htable).mpr,
    .imp fun _ _ hkey _ htable _ _ => (reads_iff hkeys hkey htable).mp⟩

end Sources

/-! ## Loading -/

/-- What each of the files holds. -/
def FilesHold (fs : FileSystem) (files : List Path) (tables : List SettingsTable) : Prop :=
  List.Forall₂ (fun file t => SettingsFile.layer fs file = .ok t) files tables

variable {fs : FileSystem} {files : List Path} {env : Environment} {overrides : Overrides}

theorem settingsLayers_eq_ok_iff {layers : List SettingsTable} :
    settingsLayers fs files env overrides = .ok layers ↔ ∃ tables,
      FilesHold fs files tables ∧ layers = (Sources.mk tables env overrides).layers := by
  rw [settingsLayers, bind_eq_ok_iff]
  refine exists_congr fun tables => and_congr mapM_eq_ok_iff ?_
  rw [Sources.layers, List.append_assoc]
  exact ⟨fun h => (Except.ok.inj h).symm, fun h => h ▸ rfl⟩

namespace Plan

variable {p : Plan}

/-- A plan is loaded exactly if it is runnable and every parameter is read off the strongest source
that sets it, or is the default.  What a weaker source says of that parameter does not matter,
whatever its type, nor do lists there add anything.

The layers that files and environment make are supposed to set their keys over the ones before, as
layers of plain keys do.  That the command line does is part of what is shown. -/
theorem load_eq_ok_iff_strongest
    (hkeys : ∀ tables, FilesHold fs files tables → SetKeys (tables ++ [Environment.layer env])) :
    load fs files env overrides = .ok p ↔ ∃ tables, FilesHold fs files tables ∧
      p.ReadBy (Sources.mk tables env overrides).Reads ∧ p.Runnable := by
  have hplan : ∀ tables, FilesHold fs files tables →
      ((SettingsTable.ofLayers (Sources.mk tables env overrides).layers).toPlan = .ok p ↔
        p.ReadBy (Sources.mk tables env overrides).Reads) := fun tables htables =>
    Sources.toPlan_eq_ok_iff (Sources.setKeys_layers (hkeys tables htables))
  rw [load_eq_ok_iff]
  constructor
  · rintro ⟨layers, hlayers, htable, hrunnable⟩
    obtain ⟨tables, htables, rfl⟩ := settingsLayers_eq_ok_iff.mp hlayers
    exact ⟨tables, htables, (hplan tables htables).mp htable, hrunnable⟩
  · rintro ⟨tables, htables, hread, hrunnable⟩
    exact ⟨_, settingsLayers_eq_ok_iff.mpr ⟨tables, htables, rfl⟩,
      (hplan tables htables).mpr hread, hrunnable⟩

/-- Two files, of which the first one has values of wrong types where it is the weaker one. -/
def layeredFiles : FileSystem :=
  ⟨[(["first.json"], .file ("\x7b\"mappings\": [\"x\", \"y\"], \"max_workers\": [], " ++
      "\"base_config\": [1], \"burst_width\": 2, " ++
      "\"traces\": [[\"stream\", \"stream.trace\"]]\x7d").toUTF8 false),
    (["second.json"], .file
      "\x7b\"mappings\": [\"a\"], \"max_workers\": 3, \"verbose\": true\x7d".toUTF8 false)]⟩

def layeredVariables : Environment :=
  [("HOME", "/root"), ("dse_commands", "RD,WR"), ("DSE_BURST_WIDTH", "6"), ("DSE_PLOT", "maybe")]

def layeredLine : Overrides where
  baseConfig := some "base.yaml"
  autoClean := true
  noPlot := true

def layeredPlan : Plan where
  simulator := ⟨"./build/ramulator2"⟩
  baseConfig := ⟨"base.yaml"⟩
  outputDir := ⟨"./log"⟩
  mappings := [mappingA]
  patterns := [streamPattern]
  commands := ["RD", "WR"]
  burstWidth := 6
  maxWorkers := 3
  autoClean := true
  plot := false
  verbose := true

theorem load_eq_ok_iff_strongest_layeredPlan :
    (∀ tables, FilesHold layeredFiles [⟨"first.json"⟩, ⟨"second.json"⟩] tables →
      SetKeys (tables ++ [Environment.layer layeredVariables])) ∧
    load layeredFiles [⟨"first.json"⟩, ⟨"second.json"⟩] layeredVariables layeredLine =
      .ok layeredPlan ∧
    ∃ tables, FilesHold layeredFiles [⟨"first.json"⟩, ⟨"second.json"⟩] tables ∧
      layeredPlan.ReadBy (Sources.mk tables layeredVariables layeredLine).Reads := by
  have hplain : ∀ tables ∈ ([⟨"first.json"⟩, ⟨"second.json"⟩].mapM
      (SettingsFile.layer layeredFiles)).toOption,
      ∀ t ∈ tables ++ [Environment.layer layeredVariables], Plain t := by
    decide +kernel
  have hkeys : ∀ tables, FilesHold layeredFiles [⟨"first.json"⟩, ⟨"second.json"⟩] tables →
      SetKeys (tables ++ [Environment.layer layeredVariables]) := fun tables htables =>
    setKeys_of_plain (hplain tables (toOption_eq_some_iff.mpr (mapM_eq_ok_iff.mpr htables)))
  have hload : load layeredFiles [⟨"first.json"⟩, ⟨"second.json"⟩] layeredVariables layeredLine =
      .ok layeredPlan := toOption_eq_some_iff.mp (by decide +kernel)
  obtain ⟨tables, htables, hread, -⟩ := (load_eq_ok_iff_strongest hkeys).mp hload
  exact ⟨hkeys, hload, tables, htables, hread⟩

end Plan
end MappingSweep
