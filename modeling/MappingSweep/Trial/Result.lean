import MappingSweep.Log.Access
import MappingSweep.Log.CommandCounts
import MappingSweep.Log.Counters
import MappingSweep.Row.Basic
import MappingSweep.Trial.Basic

/-!
# The result of a trial

What a trial's artifacts say, and the row made of it.  The access log is read first, then the
command counts, then the simulator's output.
-/

namespace MappingSweep

/-- The column that holds the latency of a request from end to end. -/
def processColumn : String := "process"

/-- The share of the cycles in which data moved; none when there were no cycles. -/
def bandwidthUtilization (reads writes cycles burstWidth : UInt64) : Option Float :=
  if cycles = 0 then none
  else some ((reads + writes).toFloat * burstWidth.toFloat / cycles.toFloat)

structure TrialResult where
  counters : Counters
  process : LatencyStats
  commands : Keyed UInt64

namespace TrialResult

def readProcess (fs : FileSystem) (p : Path) : Except SweepError LatencyStats := do
  match Keyed.get? processColumn (← AccessLog.readStats fs p) with
  | some s => return s
  | none => throw (.malformedLog p (.noColumn processColumn))

def collect (paths : TrialPaths) (fs : FileSystem) : Except SweepError TrialResult := do
  let process ← readProcess fs paths.accessLog
  let commands ← CommandCounts.read fs paths.commandCountLog
  let counters ← Counters.read fs paths.stdoutLog
  return { counters, process, commands }

def bandwidth (r : TrialResult) (burstWidth : UInt64) : Except SweepError (Option Float) := do
  let reads ← r.counters.find Counters.readRequests
  let writes ← r.counters.find Counters.writeRequests
  let cycles ← r.counters.find Counters.memoryCycles
  return bandwidthUtilization reads writes cycles burstWidth

def countOf (r : TrialResult) (command : String) : Except SweepError UInt64 :=
  match Keyed.get? command r.commands with
  | some n => .ok n
  | none => .error (.missingCounter command)

/-- The row of a trial.  Missing commands are reported before missing counters. -/
def row (r : TrialResult) (t : Trial) (plan : Plan) : Except SweepError Row := do
  let commands ← plan.commands.mapM r.countOf
  let totalLatency ← r.counters.find Counters.memoryCycles
  let bandwidthUsage ← r.bandwidth plan.burstWidth
  let reads ← r.counters.find Counters.readRequests
  let writes ← r.counters.find Counters.writeRequests
  return {
    pattern := t.pattern.name
    trace := t.pattern.path.text
    mapping := t.mapping.name
    totalLatency
    bandwidthUsage
    averageLatency := r.process.mean
    medianLatency := r.process.median
    reads
    writes
    commands }

end TrialResult
end MappingSweep
