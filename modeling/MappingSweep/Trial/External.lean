import MappingSweep.Shell.Process
import MappingSweep.Trial.Run

/-!
# External simulators

A simulator that is a program of its own.  It is given the configuration behind `-f`, and all that
it prints goes to the log, which is made empty first.  The trials themselves do not depend on what
kind of simulator they are given.
-/

namespace MappingSweep
namespace Simulator

def emptyLog (log : Path) : Action SweepError FileSystem Unit :=
  .change fun fs => (fs.writeBytes log .empty).mapError fun e => .io log (.os e)

def execute (binary : Path) (arguments : List String) (log : Path) :
    Action SweepError FileSystem ExitStatus := fun fs =>
  let look := fun path => (fs.find ⟨path⟩).map (·.2)
  match Shell.Executable.find look binary.text, fs.locate log with
  | .error e, _ => (.error (.io binary (.os e)), fs)
  | _, .error e => (.error (.io log (.os e)), fs)
  | .ok executable, .ok place =>
    let (status, fs) := Shell.Process.run ⟨executable, arguments⟩ place fs
    (.ok status, fs)

/-- The simulator in a file or under a name that the system knows. -/
def external (binary : Path) : Simulator where
  run config log := do
    emptyLog log
    let status ← execute binary ["-f", config.text] log
    unless status.succeeded do
      Action.look fun _ => .error (.simulatorExit status log)

end Simulator
end MappingSweep
