import MappingSweep.Row.Log

/-!
# The row funnel

Workers hand their rows to one writer through a queue.  The writer takes the rows in the order in
which they were sent and adds them to the log one at a time.  It stops for good at the first row
that the log refuses; a row that is sent after that is refused too.
-/

namespace MappingSweep

structure Funnel where
  log : RowLog
  /-- Rows that were sent and not yet taken, first in front. -/
  queue : List Row := []
  written : Nat := 0
  stopped : Option SweepError := none

namespace Funnel

def send (f : Funnel) (row : Row) : Except SweepError Funnel :=
  if f.stopped.isSome then .error (.io f.log.path .writerStopped)
  else .ok { f with queue := f.queue ++ [row] }

def take (f : Funnel) (fs : FileSystem) : Funnel × FileSystem :=
  match f.stopped, f.queue with
  | none, row :: rest =>
    match f.log.append row fs with
    | .ok fs => ({ f with queue := rest, written := f.written + 1 }, fs)
    | .error e => ({ f with queue := rest, stopped := some e }, fs)
  | _, _ => (f, fs)

/-- The writer takes rows until there are none or it stops. -/
def drain (f : Funnel) (fs : FileSystem) : Funnel × FileSystem :=
  f.queue.foldl (fun (f, fs) _ => f.take fs) (f, fs)

/-- Closes the funnel: all rows are taken, and the number of rows written is the result. -/
def finish (f : Funnel) (fs : FileSystem) : Except SweepError Nat × FileSystem :=
  let (f, fs) := f.drain fs
  match f.stopped with
  | some e => (.error e, fs)
  | none => (.ok f.written, fs)

end Funnel
end MappingSweep
