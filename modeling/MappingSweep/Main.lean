import MappingSweep.CommandLine.Perform
import MappingSweep.CommandLine.Scan

/-!
# The program

Reads the working directory and the variables of the environment, runs the sweep on them, and brings
the working directory to the state in which the run has left the files.  It has no completion
scripts to print.
-/

namespace MappingSweep
namespace Program

/-- What lies in a directory and below it.  A file that names its interpreter can be run. -/
partial def entriesOf (place : Place) (found : Array IO.FS.DirEntry) :
    IO (List (Place × Entry)) := do
  let mut entries : List (Place × Entry) := []
  for e in found do
    let here := place ++ [e.fileName]
    if ← e.path.isDir then
      entries := (here, .directory) :: (← entriesOf here (← e.path.readDir)) ++ entries
    else
      let content ← IO.FS.readBinFile e.path
      let executable := (Shell.Executable.interpreterOf? content.toList).isSome
      entries := (here, .file content executable) :: entries
  return entries

def pathOf (place : Place) : String :=
  "/".intercalate place

/-- What has to go where its directory stays. -/
def vanished (before after : FileSystem) : List (Place × Entry) :=
  before.entries.filter fun (place, _) =>
    (after.entryAt place).isNone && after.isDirectory place.dropLast

/-- What has to be written, directories before what is in them. -/
def changed (before after : FileSystem) : List (Place × Entry) :=
  let new := after.entries.filter fun (place, entry) => before.entryAt place ≠ some entry
  new.mergeSort fun a b => a.1.length ≤ b.1.length

/-- Turns the working directory from one state of the files to another. -/
def bring (before after : FileSystem) : IO Unit := do
  for (place, entry) in vanished before after do
    match entry with
    | .directory => IO.FS.removeDirAll (pathOf place)
    | .file .. => IO.FS.removeFile (pathOf place)
  for (place, entry) in changed before after do
    match entry with
    | .directory => IO.FS.createDirAll (pathOf place)
    | .file content _ => IO.FS.writeBinFile (pathOf place) content

/-- The variables of the plan under their names in capitals, since all variables cannot be asked
for at once. -/
def environment : IO Environment := do
  let found ← SettingsTable.planKeys.mapM fun key => do
    let name := Environment.variableName key
    return (← IO.getEnv name).map fun value => (name, value)
  return found.filterMap id

def sweep (plan : Plan) (fs : FileSystem) : IO (Except RunError RunOutcome × FileSystem) := do
  if let some outcome := Run.refusal? plan fs then
    return (.ok outcome, fs)
  let start ← IO.monoMsNow
  match ← IO.lazyPure fun _ => Run.sweep plan (.external plan.simulator) fs with
  | (.error e, fs) => return (.error e, fs)
  | (.ok drained, fs) =>
    let elapsed := ((← IO.monoMsNow) - start).toFloat / 1000
    return Run.conclude plan drained elapsed fs

def report (e : RunError) : IO UInt32 := do
  IO.eprintln ("Error: " ++ "\n  caused by: ".intercalate
    (e.context ++ e.sweepError?.toList.map SweepError.message))
  return 1

def run (arguments : Arguments) : IO UInt32 := do
  let before : FileSystem := ⟨← entriesOf [] (← (← IO.currentDir).readDir)⟩
  match arguments.plan (← environment) before with
  | .error e => report e
  | .ok plan => do
    let (result, after) ← sweep plan before
    bring before after
    match result with
    | .error e => report e
    | .ok outcome => do
      IO.print outcome.message
      return 0

end Program
end MappingSweep

open MappingSweep in
def main (arguments : List String) : IO UInt32 := do
  match Arguments.parse arguments with
  | .error f => do
    if f = .displayHelp ∨ f = .displayVersion then
      IO.print f.message
      return 0
    IO.eprintln ("error: " ++ f.message)
    return 2
  | .ok a =>
    match a.generator with
    | some shell => do
      IO.eprintln ("error: there is no completion script for " ++ shell.name)
      return 2
    | none => Program.run a
