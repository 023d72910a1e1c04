import MappingSweep.Plan
import MappingSweep.Settings.Source

/-!
# From settings to a plan

Every parameter of a plan is taken from the merged settings, or has a default.  Mappings and traces
have none.  The plan that comes out is runnable.
-/

namespace MappingSweep

namespace SettingsTable

def planKeys : List String :=
  ["simulator", "base_config", "output_dir", "mappings", "traces", "commands", "burst_width",
    "max_workers", "auto_clean", "plot", "verbose"]

abbrev Result (α : Type) : Type := Except FormatFault α

variable {α : Type}

def converted (key : String) (read : Setting → Option α) (v : Setting) : Result α :=
  match read v with
  | some x => .ok x
  | none => .error (.wrongType key)

def optional (t : SettingsTable) (key : String) (read : Setting → Option α) (default : α) :
    Result α :=
  match t.lookup key with
  | some v => converted key read v
  | none => .ok default

def required (t : SettingsTable) (key : String) (read : Setting → Option α) : Result α :=
  match t.lookup key with
  | some v => converted key read v
  | none => .error (.missingKey key)

def toTexts? (v : Setting) : Option (List String) := do
  (← v.toList?).mapM Setting.toText?

def toPath? (v : Setting) : Option Path :=
  v.toText?.map Path.mk

def toTrace? (v : Setting) : Option (String × Path) := do
  let name ← (← v.part? "name" 0).toText?
  let path ← toPath? (← v.part? "path" 1)
  return (name, path)

def toTraces? (v : Setting) : Option (List (String × Path)) := do
  (← v.toList?).mapM toTrace?

def mappingOf (name : String) : Result Mapping :=
  (Mapping.ofName name).mapError fun f => .badName (Mapping.faultMessage name f)

def patternOf (trace : String × Path) : Result Pattern :=
  (Pattern.ofName trace.1 trace.2).mapError fun f => .badName (Pattern.faultMessage trace.1 f)

/-- The commands that are counted unless others are listed. -/
def defaultCommands : List String :=
  ["ACT", "PRE", "PREA", "RD", "WR", "RDA", "WRA", "REFab"]

def toPlan (t : SettingsTable) : Result Plan := do
  return {
    simulator := ← t.optional "simulator" toPath? ⟨"./build/ramulator2"⟩
    baseConfig := ← t.optional "base_config" toPath? ⟨"ddr4.yaml"⟩
    outputDir := ← t.optional "output_dir" toPath? ⟨"./log"⟩
    mappings := ← (← t.required "mappings" toTexts?).mapM mappingOf
    patterns := ← (← t.required "traces" toTraces?).mapM patternOf
    commands := ← t.optional "commands" toTexts? defaultCommands
    burstWidth := ← t.optional "burst_width" Setting.toWord? 4
    maxWorkers := ← t.optional "max_workers" Setting.toWord? 8
    autoClean := ← t.optional "auto_clean" Setting.toBool? false
    plot := ← t.optional "plot" Setting.toBool? true
    verbose := ← t.optional "verbose" Setting.toBool? false }

end SettingsTable

namespace Plan

def ofLayers (layers : List SettingsTable) : Except LoadFault Plan := do
  let plan ← (SettingsTable.ofLayers layers).toPlan.mapError .format
  plan.validate.mapError .settings
  return plan

/-- The plan that files, environment and command line describe together.  An error names the first
file. -/
def load (fs : FileSystem) (files : List Path) (env : Environment)
    (overrides : Overrides) : Except SweepError Plan :=
  let plan := do ofLayers (← settingsLayers fs files env overrides)
  plan.mapError (.configLoad (files.head?.getD ⟨""⟩))

end Plan
end MappingSweep
