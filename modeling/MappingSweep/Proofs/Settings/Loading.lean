import MappingSweep.Proofs.FileSystem.Path
import MappingSweep.Proofs.Settings.Reading

/-!
# Loading plans

A plan comes out of settings exactly if they describe a runnable one.  The first flaw of one that
is not runnable is what the error of loading tells.
-/

namespace MappingSweep
namespace Plan

variable {p : Plan} {layers : List SettingsTable} {fs : FileSystem} {files : List Path}
  {env : Environment} {overrides : Overrides} {f : SettingsFault}

theorem ofLayers_eq_ok_iff :
    ofLayers layers = .ok p ↔ (SettingsTable.ofLayers layers).toPlan = .ok p ∧ p.Runnable := by
  simp only [ofLayers, bind_eq_ok_iff, mapError_eq_ok_iff, pure, Except.pure, Except.ok.injEq]
  constructor
  · rintro ⟨plan, htable, ⟨⟩, hvalid, rfl⟩
    exact ⟨htable, validate_eq_ok_iff.mp hvalid⟩
  · rintro ⟨htable, hrunnable⟩
    exact ⟨p, htable, (), validate_eq_ok_iff.mpr hrunnable, rfl⟩

theorem load_eq_ok_iff :
    load fs files env overrides = .ok p ↔ ∃ layers,
      settingsLayers fs files env overrides = .ok layers ∧
      (SettingsTable.ofLayers layers).toPlan = .ok p ∧ p.Runnable := by
  simp only [load, mapError_eq_ok_iff, bind_eq_ok_iff, ofLayers_eq_ok_iff]

/-- The error names the first file, whichever of them is at fault. -/
theorem load_of_flaw (hlayers : settingsLayers fs files env overrides = .ok layers)
    (htable : (SettingsTable.ofLayers layers).toPlan = .ok p) (hflaw : p.Flaw f) :
    load fs files env overrides = .error (.configLoad (files.head?.getD ⟨""⟩) (.settings f)) := by
  simp only [load, ofLayers, hlayers, htable, hflaw.validate_eq, Except.mapError, bind,
    Except.bind]

theorem safeName_of_mem {name : String} (h : name ∈ p.mappingNames ++ p.patternNames) :
    SafeName name := by
  rcases List.mem_append.mp h with hmapping | hpattern
  · obtain ⟨m, -, rfl⟩ := List.mem_map.mp hmapping
    exact nameFault?_eq_none_iff.mp m.safe
  · obtain ⟨q, -, rfl⟩ := List.mem_map.mp hpattern
    exact nameFault?_eq_none_iff.mp q.safe

/-- A plan is valid, and loaded, exactly if it is runnable, and otherwise its first flaw is the
error.  A loaded plan has safe names, and a worker but neither more of them than are allowed nor
than there are mappings. -/
theorem runnable_or_first_flaw (p : Plan) :
    (p.validate = .ok () ↔ p.Runnable) ∧
    (∀ f, p.validate = .error f ↔ p.Flaw f) ∧
    (p.validate = .ok () → 1 ≤ p.workerCount ∧ p.workerCount ≤ p.maxWorkers.toNat ∧
      p.workerCount ≤ p.mappings.length) ∧
    (∀ fs files env overrides, load fs files env overrides = .ok p →
      p.Runnable ∧
      (1 ≤ p.workerCount ∧ p.workerCount ≤ p.maxWorkers.toNat ∧
        p.workerCount ≤ p.mappings.length) ∧
      ∀ name ∈ p.mappingNames ++ p.patternNames, SafeName name) ∧
    ∀ fs files env overrides layers, settingsLayers fs files env overrides = .ok layers →
      (SettingsTable.ofLayers layers).toPlan = .ok p →
      (p.Runnable → load fs files env overrides = .ok p) ∧
      ∀ f, p.Flaw f → load fs files env overrides =
        .error (.configLoad (files.head?.getD ⟨""⟩) (.settings f)) := by
  refine ⟨validate_eq_ok_iff, fun f => validate_eq_error_iff, ?_, ?_, ?_⟩
  · exact fun hvalid => (validate_eq_ok_iff.mp hvalid).workerCount_le
  · intro fs files env overrides hload
    obtain ⟨layers, -, -, hrunnable⟩ := load_eq_ok_iff.mp hload
    exact ⟨hrunnable, hrunnable.workerCount_le, fun name hname => safeName_of_mem hname⟩
  · intro fs files env overrides layers hlayers htable
    exact ⟨fun hrunnable => load_eq_ok_iff.mpr ⟨layers, hlayers, htable, hrunnable⟩,
      fun f hflaw => load_of_flaw hlayers htable hflaw⟩

/-- Settings that list mappings, with one pattern to run. -/
def settingsFile (mappings maxWorkers : String) : FileSystem :=
  ⟨[(["sweep.json"], .file ("\x7b\"mappings\": [" ++ mappings ++ "], \"max_workers\": " ++
    maxWorkers ++ ", \"traces\": [[\"stream\", \"stream.trace\"]]\x7d").toUTF8 false)]⟩

def mappingA : Mapping :=
  ⟨"a", rfl⟩

def mappingB : Mapping :=
  ⟨"b", rfl⟩

def streamPattern : Pattern :=
  ⟨"stream", ⟨"stream.trace"⟩, rfl⟩

def namedPlan (mappings : List Mapping) (maxWorkers : UInt64) : Plan where
  simulator := ⟨"./build/ramulator2"⟩
  baseConfig := ⟨"ddr4.yaml"⟩
  outputDir := ⟨"./log"⟩
  mappings := mappings
  patterns := [streamPattern]
  commands := SettingsTable.defaultCommands
  burstWidth := 4
  maxWorkers := maxWorkers
  autoClean := false
  plot := true
  verbose := false

def describedBy (mappings maxWorkers : String) : Option Plan := do
  let layers ← (settingsLayers (settingsFile mappings maxWorkers) [⟨"sweep.json"⟩] [] {}).toOption
  (SettingsTable.ofLayers layers).toPlan.toOption

theorem exists_of_describedBy {mappings maxWorkers : String}
    (h : describedBy mappings maxWorkers = some p) : ∃ layers,
      settingsLayers (settingsFile mappings maxWorkers) [⟨"sweep.json"⟩] [] {} = .ok layers ∧
      (SettingsTable.ofLayers layers).toPlan = .ok p := by
  obtain ⟨layers, hlayers, hplan⟩ := Option.bind_eq_some_iff.mp h
  exact ⟨layers, toOption_eq_some_iff.mp hlayers, toOption_eq_some_iff.mp hplan⟩

/-- Two mappings need no more than two workers.  With names that come again the first that does is
told, unless there is nobody to work. -/
theorem runnable_or_first_flaw_namedPlan :
    (load (settingsFile "\"b\", \"a\"" "8") [⟨"sweep.json"⟩] [] {} =
        .ok (namedPlan [mappingB, mappingA] 8) ∧
      (namedPlan [mappingB, mappingA] 8).workerCount = 2 ∧ SafeName "b") ∧
    load (settingsFile "\"b\", \"a\", \"a\", \"b\"" "8") [⟨"sweep.json"⟩] [] {} =
      .error (.configLoad ⟨"sweep.json"⟩ (.settings (.repeatedMapping "a"))) ∧
    load (settingsFile "\"a\", \"a\"" "0") [⟨"sweep.json"⟩] [] {} =
      .error (.configLoad ⟨"sweep.json"⟩ (.settings .noWorkers)) := by
  refine ⟨?_, ?_, ?_⟩
  · have hdescribed : describedBy "\"b\", \"a\"" "8" = some (namedPlan [mappingB, mappingA] 8) := by
      decide +kernel
    obtain ⟨layers, hlayers, hplan⟩ := exists_of_describedBy hdescribed
    obtain ⟨hvalid, -, -, hloaded, hload⟩ :=
      runnable_or_first_flaw (namedPlan [mappingB, mappingA] 8)
    have hok := (hload _ _ _ _ _ hlayers hplan).1 (hvalid.mp rfl)
    obtain ⟨-, -, hsafe⟩ := hloaded _ _ _ _ hok
    exact ⟨hok, rfl, hsafe "b" (by decide)⟩
  · have hdescribed : describedBy "\"b\", \"a\", \"a\", \"b\"" "8" =
        some (namedPlan [mappingB, mappingA, mappingA, mappingB] 8) := by
      decide +kernel
    obtain ⟨layers, hlayers, hplan⟩ := exists_of_describedBy hdescribed
    obtain ⟨-, hfault, -, -, hload⟩ :=
      runnable_or_first_flaw (namedPlan [mappingB, mappingA, mappingA, mappingB] 8)
    exact (hload _ _ _ _ _ hlayers hplan).2 _ ((hfault _).mp rfl)
  · have hdescribed : describedBy "\"a\", \"a\"" "0" =
        some (namedPlan [mappingA, mappingA] 0) := by
      decide +kernel
    obtain ⟨layers, hlayers, hplan⟩ := exists_of_describedBy hdescribed
    obtain ⟨-, hfault, -, -, hload⟩ := runnable_or_first_flaw (namedPlan [mappingA, mappingA] 0)
    exact (hload _ _ _ _ _ hlayers hplan).2 _ ((hfault _).mp rfl)

end Plan
end MappingSweep
