import MappingSweep.CommandLine.Usage
import MappingSweep.Run.Basic
import MappingSweep.Settings.Basic
import MappingSweep.Trial.External

/-!
# From a command line to a run

The settings files that are named, or the usual one, give the plan of a run with the simulator that
it names.  What the program prints at its end is the text of the outcome.  Completion scripts are
the work of the library that reads the command line, so what it makes for each shell is given.
-/

namespace MappingSweep

def RunOutcome.message : RunOutcome → String
  | outputExists dir => "Folder " ++ dir.quoted ++ " already exists. Program exits.\n"
  | completed _ _ report =>
    "Program ends. Results can be checked at " ++ report.quoted ++ ".\n"

namespace Arguments

def usualSettings : Path :=
  ⟨"configs/default.toml"⟩

def settings (a : Arguments) : List Path :=
  if a.settingsFiles.isEmpty then [usualSettings] else a.settingsFiles.map Path.mk

def plan (a : Arguments) (env : Environment) (fs : FileSystem) :
    Except RunError Plan :=
  (Plan.load fs a.settings env a.overrides).mapError fun e =>
    .during .readingSettings (.sweep e)

def perform (a : Arguments) (completion : CompletionShell → String) (env : Environment)
    (elapsed : Float) : Action RunError FileSystem String :=
  match a.generator with
  | some shell => pure (completion shell)
  | none => do
    let plan ← Action.look (a.plan env)
    let outcome ← Run.run plan (.external plan.simulator) elapsed
    return outcome.message

end Arguments
end MappingSweep
