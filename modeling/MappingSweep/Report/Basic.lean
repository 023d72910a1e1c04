import MappingSweep.Csv.Record
import MappingSweep.Error
import MappingSweep.Report.Column

/-!
# Reports

A report is the row log with every cell in the form of its column.  Nothing is written unless the
whole log could be read and formatted.
-/

namespace MappingSweep

structure Report where
  path : Path
  rows : Nat
  columns : Nat
deriving DecidableEq, Repr

namespace Report

def formatCells : List ColumnKind → List String → Except String (List String)
  | kind :: kinds, cell :: cells => do
    let shown ← kind.format cell
    return shown :: (← formatCells kinds cells)
  | _, _ => .ok []

/-- The formatted records from the given number on, up to the first defective one. -/
def formatRows (kinds : List ColumnKind) (number : Nat) :
    List (Except Csv.Fault (List String)) → Except ReportFault (List (List String))
  | [] => .ok []
  | .error f :: _ => .error (.table f)
  | .ok cells :: rest => do
    let row ← (formatCells kinds cells).mapError (.cell number)
    return row :: (← formatRows kinds (number + 1) rest)

def records (sink : Path) (content : ByteArray) :
    Except ReportFault (List String × List (List String)) := do
  let table ← (Csv.readTable content).mapError .table
  if table.header.isEmpty then throw (.noHeader sink)
  let rows ← formatRows (table.header.map .ofName) 1 table.rows
  if rows.isEmpty then throw (.noRows sink)
  return (table.header, rows)

/-- A directory can be opened but not read. -/
def readSink (fs : FileSystem) (sink : Path) : Except ReportFault ByteArray :=
  match fs.readBytes sink with
  | .ok content => .ok content
  | .error .isADirectory => .error (.os .isADirectory)
  | .error e => .error (.unreadableSink sink e)

def attempt (sink target : Path) (fs : FileSystem) : Except ReportFault (Report × FileSystem) := do
  let content ← readSink fs sink
  let (header, rows) ← records sink content
  let fs ← (fs.writeBytes target (Csv.encodeAll (header :: rows)).toUTF8).mapError .os
  return (⟨target, rows.length, header.length⟩, fs)

/-- Writes the report on the row log `sink` to `target`. -/
def build (sink target : Path) (fs : FileSystem) : Except SweepError (Report × FileSystem) :=
  (attempt sink target fs).mapError (.reportWrite target)

end Report
end MappingSweep
