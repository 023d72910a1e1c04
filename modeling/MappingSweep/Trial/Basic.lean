import MappingSweep.Config.Tree
import MappingSweep.Plan

/-!
# Trials

One mapping run against one pattern.  A trial has a directory of its own below that of its mapping,
and every file it reads or writes is named after its pattern.  The overrides point the base
configuration at those files.
-/

namespace MappingSweep

structure Trial where
  mapping : Mapping
  pattern : Pattern
deriving DecidableEq

namespace Trial

def name (t : Trial) : String :=
  t.mapping.name ++ "/" ++ t.pattern.name

end Trial

/-- The trials of a plan, mapping by mapping. -/
def Plan.trials (plan : Plan) : List Trial :=
  plan.mappings.flatMap fun m => plan.patterns.map fun p => ⟨m, p⟩

def Mapping.directory (m : Mapping) (outputDir : Path) : Path :=
  outputDir.join m.name

structure TrialPaths where
  dir : Path
  config : Path
  accessLog : Path
  /-- The recorder adds a channel number and an ending. -/
  commandTracePrefix : Path
  commandCountLog : Path
  stdoutLog : Path
deriving DecidableEq

namespace TrialPaths

def ofTrial (outputDir : Path) (t : Trial) : TrialPaths :=
  let pattern := t.pattern.name
  let dir := (t.mapping.directory outputDir).join pattern
  { dir
    config := dir.join (pattern ++ ".yaml")
    accessLog := dir.join (pattern ++ ".csv")
    commandTracePrefix := dir.join (pattern ++ "_issue_log")
    commandCountLog := dir.join (pattern ++ "_cmd_cnt.log")
    stdoutLog := dir.join "stdout.log" }

def commandTrace (paths : TrialPaths) (channel : Nat) : Path :=
  ⟨paths.commandTracePrefix.text ++ "_ch" ++ Number.decimal channel ++ ".log"⟩

end TrialPaths

namespace Trial

def plugin (entries : List (String × Config)) : Config :=
  .mapOf [("ControllerPlugin", .mapOf entries)]

def recorderPlugin (paths : TrialPaths) : Config :=
  plugin [("impl", .str "TraceRecorder"), ("path", .str paths.commandTracePrefix.text)]

def counterPlugin (paths : TrialPaths) (commands : List String) : Config :=
  plugin [
    ("impl", .str "CommandCounter"),
    ("path", .str paths.commandCountLog.text),
    ("commands_to_count", .list (commands.map .str))]

def overrides (t : Trial) (paths : TrialPaths) (commands : List String) : Config :=
  .mapOf [
    ("Frontend", .mapOf [
      ("path", .str t.pattern.path.text),
      ("access_log", .str paths.accessLog.text)]),
    ("MemorySystem", .mapOf [
      ("AddrMapper", .mapOf [("mapping", .str t.mapping.name)]),
      ("Controller", .mapOf [
        ("plugins", .list [recorderPlugin paths, counterPlugin paths commands])])])]

end Trial
end MappingSweep
