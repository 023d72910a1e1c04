import MappingSweep.Figure.Trial
import MappingSweep.Report.Basic
import MappingSweep.Sweep.Basic

/-!
# Runs

A run is one whole sweep: it refuses an output directory that is already there, sweeps, writes the
summary whatever the trials did, and only after a sweep without failures writes the report and
finishes the trials.  Its two halves meet where the sweep is drained, so that the time between can
be taken.  Workers and writer take their steps in the order of some turns; without any, the workers
go on one after the other and the writer comes last.
-/

namespace MappingSweep

inductive RunOutcome where
  /-- The output directory was there already, and nothing was touched. -/
  | outputExists (dir : Path)
  | completed (summary : Summary) (rows : Nat) (report : Path)

/-- A sweep whose workers and writer have ended. -/
structure Drained where
  outcome : SweepOutcome
  written : Except SweepError Nat

namespace Run

def createOutput (dir : Path) : Action RunError FileSystem Unit :=
  Action.mapError (fun fs => fs.createDirectories dir) fun e =>
    .during (.creating dir) (.io (.os e))

/-- Runs all workers with a writer of rows, until the last row is written. -/
def drainUnder (turns : List Turn) (plan : Plan) (template : Template) (simulator : Simulator)
    (log : RowLog) (fs : FileSystem) : Drained × FileSystem :=
  let (outcome, w) :=
    Sweep.run plan template simulator Sweep.funnelSink Sweep.writerStep turns ⟨fs, { log }⟩
  let (written, fs) := w.sink.finish w.files
  (⟨outcome, written⟩, fs)

def drain : Plan → Template → Simulator → RowLog → FileSystem → Drained × FileSystem :=
  drainUnder []

/-- What is left of the first half of a run once its base configuration is loaded. -/
def sweepWith (turns : List Turn) (plan : Plan) (simulator : Simulator) (template : Template) :
    Action RunError FileSystem Drained := do
  createOutput plan.outputDir
  let log ← (Action.produce (RowLog.create plan.rowSinkPath plan.commands)).mapError .ofSweep
  fun fs =>
    let (drained, fs) := drainUnder turns plan template simulator log fs
    (.ok drained, fs)

/-- The first half of a run in an output directory of its own. -/
def sweepUnder (turns : List Turn) (plan : Plan) (simulator : Simulator) :
    Action RunError FileSystem Drained := do
  let template ← Action.look fun fs =>
    (Template.load fs plan.baseConfig).mapError fun e => .during .loadingBase (.sweep e)
  sweepWith turns plan simulator template

def sweep : Plan → Simulator → Action RunError FileSystem Drained :=
  sweepUnder []

def writeSummary (target : Path) (summary : Summary) (elapsed : Float) :
    Action RunError FileSystem Unit :=
  .change fun fs => (fs.writeText target (summary.document elapsed)).mapError fun e =>
    .during .creatingSummary (.io e)

/-- Writes the summary, then answers for the writer, then for the trials. -/
def settle (plan : Plan) (drained : Drained) (elapsed : Float) :
    Action RunError FileSystem (Summary × Nat) := do
  let summary := drained.outcome.summary
  writeSummary plan.summaryPath summary elapsed
  let rows ← Action.look fun _ =>
    drained.written.mapError fun e => .during .writingRows (.sweep e)
  match drained.outcome.error with
  | some e => .look fun _ => .error (.during .sweeping (.sweep e))
  | none => return (summary, rows)

/-- The second half of a run, given the seconds that the first half took. -/
def conclude (plan : Plan) (drained : Drained) (elapsed : Float) :
    Action RunError FileSystem RunOutcome := do
  let (summary, rows) ← settle plan drained elapsed
  let report ← (Action.produce (Report.build plan.rowSinkPath plan.reportPath)).mapError .ofSweep
  let _ ← Figure.finishTrials plan
  return .completed summary rows report.path

/-- The outcome of a run that does not start. -/
def refusal? (plan : Plan) (fs : FileSystem) : Option RunOutcome :=
  if fs.pathExists plan.outputDir then some (.outputExists plan.outputDir) else none

def runUnder (turns : List Turn) (plan : Plan) (simulator : Simulator) (elapsed : Float) :
    Action RunError FileSystem RunOutcome := do
  match ← Action.look fun fs => .ok (refusal? plan fs) with
  | some outcome => return outcome
  | none => conclude plan (← sweepUnder turns plan simulator) elapsed

def run : Plan → Simulator → Float → Action RunError FileSystem RunOutcome :=
  runUnder []

end Run
end MappingSweep
