import MappingSweep.Shell.Run

/-!
# Processes

A process is an executable with its arguments, started with an empty input and with its output and
its errors going to one log.  What it does to the files is kept however it ends.  This is where the
program meets the outer layer, which stands for the system around it.
-/

namespace MappingSweep
namespace Shell

structure Process where
  executable : Executable
  arguments : List String

namespace Process

/-- The bound on the depth of the steps of a process. -/
def stepBound : Nat := 100000

/-- The signal that ends a process which uses up its time. -/
def timeSignal : Nat := 24

def exitStatus (result : Except Ending Unit) (s : Session) : ExitStatus :=
  match result with
  | .error (.killed signal) => .killed signal
  | .error .spent => .killed timeSignal
  | _ => .exited s.status

/-- The session of a process whose output and errors share one stream. -/
def session (fs : FileSystem) (log : Place) : Session where
  files := fs
  streams := [.file log 0 false]
  descriptors := { output := some 0, errors := some 0 }

def run (p : Process) (log : Place) (fs : FileSystem) : ExitStatus × FileSystem :=
  let (result, s) := Step.program stepBound p.executable p.arguments (session fs log)
  (exitStatus result s, s.files)

end Process
end Shell
end MappingSweep
