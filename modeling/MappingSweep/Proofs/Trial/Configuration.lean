import MappingSweep.Proofs.Config.Tree
import MappingSweep.Trial.Basic

/-!
# The configuration of a trial

Whatever the base configuration is, under the overrides of a trial it names the files of that trial
in four places, and everywhere else it is the base.
-/

namespace MappingSweep
namespace Trial

open Config (PathsPart)

/-- Where the configuration of a trial is its own. -/
def ownPaths : List (List String) :=
  [["Frontend", "path"],
    ["Frontend", "access_log"],
    ["MemorySystem", "AddrMapper", "mapping"],
    ["MemorySystem", "Controller", "plugins"]]

/-- The plugins that record the commands of a trial and count them. -/
def ownPlugins (paths : TrialPaths) (commands : List String) : Config :=
  .list [
    .map [("ControllerPlugin", .map [
      ("impl", .str "TraceRecorder"),
      ("path", .str paths.commandTracePrefix.text)])],
    .map [("ControllerPlugin", .map [
      ("commands_to_count", .list (commands.map .str)),
      ("impl", .str "CommandCounter"),
      ("path", .str paths.commandCountLog.text)])]]

theorem wellFormed_plugin {entries : List (String × Config)} (h : ∀ e ∈ entries, e.2.WellFormed) :
    (plugin entries).WellFormed :=
  Config.wellFormed_mapOf (by simpa using Config.wellFormed_mapOf h)

section Overrides

variable (t : Trial) (paths : TrialPaths) (commands : List String)

theorem overrides_eq : t.overrides paths commands =
    .map [
      ("Frontend", .map [
        ("access_log", .str paths.accessLog.text),
        ("path", .str t.pattern.path.text)]),
      ("MemorySystem", .map [
        ("AddrMapper", .map [("mapping", .str t.mapping.name)]),
        ("Controller", .map [("plugins", ownPlugins paths commands)])])] := by
  simp only [overrides, ownPlugins, recorderPlugin, counterPlugin, plugin, Config.mapOf,
    Keyed.ofList, Keyed.insert, List.foldl_cons, List.foldl_nil, String.reduceEq, String.reduceLT,
    if_true, if_false]

theorem wellFormed_overrides : (t.overrides paths commands).WellFormed := by
  have hrecorder : (recorderPlugin paths).WellFormed := wellFormed_plugin (by simp)
  have hcounter : (counterPlugin paths commands).WellFormed := wellFormed_plugin (by simp)
  have hmemory : ∀ e ∈ [
      ("AddrMapper", Config.mapOf [("mapping", .str t.mapping.name)]),
      ("Controller", Config.mapOf [
        ("plugins", .list [recorderPlugin paths, counterPlugin paths commands])])],
      e.2.WellFormed := by
    simp [Config.wellFormed_mapOf, hrecorder, hcounter]
  refine Config.wellFormed_mapOf ?_
  simp [Config.wellFormed_mapOf hmemory, Config.wellFormed_mapOf]

theorem mem_ownPaths_of_mem_leafPaths {path : List String}
    (h : path ∈ (t.overrides paths commands).leafPaths) : path ∈ ownPaths := by
  simp only [overrides_eq, ownPlugins, Config.str, Config.leafPaths, Config.entryPaths,
    List.map_cons, List.map_nil, List.append_nil, List.cons_append, List.nil_append] at h
  revert h
  simp only [ownPaths, List.mem_cons, List.not_mem_nil, or_false]
  tauto

/-- A leaf of the overrides is found by its dotted name, whatever the base is. -/
theorem lookup_merge_overrides (base : Config) {dotted : String} (path : List String) {s : Config}
    (hparts : Text.splitOn '.' dotted.toList = path.map String.toList)
    (hunder : (t.overrides paths commands).under? path = some s) (hleaf : s.isMap = false) :
    (base.merge (t.overrides paths commands)).lookup dotted = some s :=
  Config.lookup_of_under? hparts
    (Config.under?_merge_of_leaf (t.wellFormed_overrides paths commands) base hunder hleaf)

end Overrides

/-- The configuration of a trial holds the trial's own files in its own places, and whatever the
base holds at every path of keys that parts from them. -/
theorem own_files_over_base (base : Config) (outputDir : Path) (t : Trial)
    (commands : List String) :
    let paths := TrialPaths.ofTrial outputDir t
    let config := base.merge (t.overrides paths commands)
    config.lookup "Frontend.path" = some (.str t.pattern.path.text) ∧
      config.lookup "Frontend.access_log" = some (.str paths.accessLog.text) ∧
      config.lookup "MemorySystem.AddrMapper.mapping" = some (.str t.mapping.name) ∧
      config.lookup "MemorySystem.Controller.plugins" = some (ownPlugins paths commands) ∧
      ∀ path, (∀ own ∈ ownPaths, PathsPart path own) → config.under? path = base.under? path := by
  intro paths config
  have hover := t.overrides_eq paths commands
  refine ⟨?_, ?_, ?_, ?_, fun path hpart => ?_⟩
  · exact t.lookup_merge_overrides paths commands base ["Frontend", "path"] (by decide)
      (by simp [hover, Config.field?]) rfl
  · exact t.lookup_merge_overrides paths commands base ["Frontend", "access_log"] (by decide)
      (by simp [hover, Config.field?]) rfl
  · exact t.lookup_merge_overrides paths commands base ["MemorySystem", "AddrMapper", "mapping"]
      (by decide) (by simp [hover, Config.field?]) rfl
  · exact t.lookup_merge_overrides paths commands base ["MemorySystem", "Controller", "plugins"]
      (by decide) (by simp [hover, Config.field?]) rfl
  · refine Config.under?_merge_of_parting (t.wellFormed_overrides paths commands) base
      fun p hp => ?_
    exact hpart p (t.mem_ownPaths_of_mem_leafPaths paths commands hp)

/-- A base that has other things than maps on the way to a trial's own places. -/
def clashingBase : Config :=
  .mapOf [
    ("Frontend", .list [.str "LoadStoreTrace", .str "old.trace"]),
    ("MemorySystem", .mapOf [
      ("AddrMapper", .str "RoBaRaCoCh"),
      ("Controller", .mapOf [
        ("impl", .str "Generic"),
        ("plugins", .mapOf [("first", .scalar .null)])])]),
    ("clock", .scalar (.int 8))]

theorem own_files_over_base_clashingBase :
    let t : Trial := ⟨⟨"m", by decide⟩, ⟨"p", ⟨"trace/p.trace"⟩, by decide⟩⟩
    let paths := TrialPaths.ofTrial ⟨"log"⟩ t
    let config := clashingBase.merge (t.overrides paths ["RD", "WR"])
    config.lookup "Frontend.path" = some (.str "trace/p.trace") ∧
      config.lookup "Frontend.access_log" = some (.str "log/m/p/p.csv") ∧
      config.lookup "MemorySystem.AddrMapper.mapping" = some (.str "m") ∧
      config.lookup "MemorySystem.Controller.plugins" = some (ownPlugins paths ["RD", "WR"]) ∧
      (∀ own ∈ ownPaths, PathsPart ["MemorySystem", "Controller", "impl"] own) ∧
      config.under? ["MemorySystem", "Controller", "impl"] = some (.str "Generic") := by
  intro t paths config
  obtain ⟨hpath, haccess, hmapping, hplugins, hbase⟩ :=
    own_files_over_base clashingBase ⟨"log"⟩ t ["RD", "WR"]
  have hpart : ∀ own ∈ ownPaths, PathsPart ["MemorySystem", "Controller", "impl"] own := by
    decide
  have hlog : paths.accessLog.text = "log/m/p/p.csv" := by decide +kernel
  refine ⟨hpath, hlog ▸ haccess, hmapping, hplugins, hpart, ?_⟩
  refine (hbase _ hpart).trans ?_
  simp only [clashingBase, Config.mapOf, Keyed.ofList, Keyed.insert, List.foldl_cons,
    List.foldl_nil, String.reduceEq, String.reduceLT, if_false]
  rfl

end Trial
end MappingSweep
