import MappingSweep.Error
import MappingSweep.Row.Basic

/-!
# The row log

A file of comma-separated records to which whole rows are added.  It starts with the header, is
never created over an existing file, and refuses a row that is not as wide as the header.  The file
stays open, so that rows reach it wherever its path leads later.
-/

namespace MappingSweep

structure RowLog where
  path : Path
  /-- Where the file was created. -/
  place : Place
  width : Nat
deriving DecidableEq

namespace RowLog

def create (path : Path) (commands : List String) (fs : FileSystem) :
    Except SweepError (RowLog × FileSystem) :=
  let header := Row.header commands
  let created := do return (← fs.locate path, ← fs.createFile path (Csv.encode header).toUTF8)
  match created with
  | .ok (place, fs) => .ok (⟨path, place, header.length⟩, fs)
  | .error e => .error (.io path (.os e))

def append (log : RowLog) (row : Row) (fs : FileSystem) : Except SweepError FileSystem :=
  let record := row.record
  if record.length ≠ log.width then .error (.io log.path (.rowWidth record.length log.width))
  else .ok (fs.extend log.place (Csv.encode record).toUTF8)

end RowLog
end MappingSweep
