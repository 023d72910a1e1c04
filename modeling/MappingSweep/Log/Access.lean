import MappingSweep.Error
import MappingSweep.Keyed
import MappingSweep.Log.Latency

/-!
# Access logs

A table with a header whose every cell is a number, one row for each request.
-/

namespace MappingSweep

open Number (Binary64)

/-- Column names and values in the order of the header. -/
abbrev Columns : Type := List (String × List Binary64)

namespace AccessLog

def readCells (row : Nat) : List String → Except LogFault (List Binary64)
  | [] => .ok []
  | cell :: rest =>
    match Number.readBinary64 cell.toList with
    | some x => (readCells row rest).map (x :: ·)
    | none => .error (.notANumber row cell)

/-- The rows from the given number on, up to the first defective one. -/
def readRows (row : Nat) : List (Except Csv.Fault (List String)) →
    Except LogFault (List (List Binary64))
  | [] => .ok []
  | .error f :: _ => .error (.table f)
  | .ok cells :: rest => do
    let values ← readCells row cells
    return values :: (← readRows (row + 1) rest)

def column (rows : List (List Binary64)) (i : Nat) : List Binary64 :=
  rows.filterMap (·[i]?)

def ofTable (table : Csv.Table) : Except LogFault Columns := do
  if table.header.all (·.isEmpty) then throw .noHeader
  let rows ← readRows 1 table.rows
  return table.header.mapIdx fun i name => (name, column rows i)

def columns (text : String) : Except LogFault Columns := do
  let table ← (Csv.readTable text.toUTF8).mapError .table
  ofTable table

def statsOf : Columns → Except LogFault (List (String × LatencyStats))
  | [] => .ok []
  | (name, values) :: rest =>
    match LatencyStats.ofValues values with
    | some s => (statsOf rest).map ((name, s) :: ·)
    | none => .error .noRows

/-- The statistics of every column; of equal names the last column counts. -/
def stats (text : String) : Except LogFault (Keyed LatencyStats) := do
  return Keyed.ofList (← statsOf (← columns text))

def readColumns (fs : FileSystem) (p : Path) : Except SweepError Columns := do
  (columns (← fs.loadText p)).mapError (.malformedLog p)

def readStats (fs : FileSystem) (p : Path) : Except SweepError (Keyed LatencyStats) := do
  (stats (← fs.loadText p)).mapError (.malformedLog p)

end AccessLog
end MappingSweep
