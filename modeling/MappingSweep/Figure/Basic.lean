import MappingSweep.Figure.Bars
import MappingSweep.Log.Access
import MappingSweep.Run.Error

/-!
# Figures

Two figures are drawn for a trial: the distribution of every column of its access log, and that of
the intervals of its command trace.  A figure is a note and some charts, drawn as lines of text.
Nothing is drawn when the log behind the figure is missing or malformed.
-/

namespace MappingSweep

open Number (decimal Binary64)

structure Chart where
  title : String
  bars : List Bar
deriving DecidableEq, Repr

structure Figure where
  note : String
  charts : List Chart
deriving DecidableEq, Repr

namespace Chart

def titleOf (name : String) (values : List Binary64) : String :=
  match LatencyStats.ofValues values with
  | none => name ++ "  n=0"
  | some s => name ++ "  n=" ++ decimal s.count ++ " mean=" ++
      (Binary64.ofFloat s.mean).toFixed 2 ++ " median=" ++ Number.floatText s.median

/-- The column of command counts, whose values are few and whole. -/
def commandColumn : String := "cmds"

def ofColumn (name : String) (values : List Binary64) : Chart :=
  ⟨titleOf name values,
    if name = commandColumn then Bars.ofIntegers values else Bars.ofLatencies values⟩

def ofIntervals (name : String) (values : List UInt64) : Chart :=
  ⟨titleOf name (values.map fun v => .ofFloat v.toFloat),
    Bars.ofIntervals Bars.intervalCap values⟩

def lines (c : Chart) : List String :=
  c.title :: c.bars.map fun b => "  " ++ b.label ++ "  " ++ decimal b.count

end Chart

namespace Figure

def text (f : Figure) : String :=
  String.join ((f.note :: f.charts.flatMap Chart.lines).map (· ++ "\n"))

def chartBound : Nat := 8

def ofColumns (note : String) (columns : Columns) : Figure :=
  ⟨note, (columns.take chartBound).map fun c => Chart.ofColumn c.1 c.2⟩

def ofEvents (note : String) (events : List CommandEvent) : Figure :=
  let intervals := CommandTrace.intervals events
  ⟨"Commands Interval Distribution  |  " ++ note,
    [Chart.ofIntervals "CMD interval" intervals.all,
      Chart.ofIntervals "RD interval" intervals.reads]⟩

def write (f : Figure) (target : Path) (fs : FileSystem) : Except RunError FileSystem :=
  (fs.writeBytes target f.text.toUTF8).mapError fun e => .during (.drawing target) (.picture e)

def readEvents (trace : Path) (fs : FileSystem) : Except RunError (List CommandEvent) := do
  let text ← (fs.readText trace).mapError fun e => .during (.readingTrace trace) (.io e)
  (CommandTrace.parse text).mapError fun f => .during (.parsingTrace trace) (.trace f)

def drawLatencies (log target : Path) (note : String) (fs : FileSystem) :
    Except RunError FileSystem := do
  let columns ← (AccessLog.readColumns fs log).mapError .ofSweep
  (ofColumns note columns).write target fs

def drawIntervals (trace target : Path) (note : String) (fs : FileSystem) :
    Except RunError FileSystem := do
  let events ← readEvents trace fs
  (ofEvents note events).write target fs

end Figure
end MappingSweep
