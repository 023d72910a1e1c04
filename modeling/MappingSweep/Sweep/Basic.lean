import MappingSweep.Pool
import MappingSweep.Row.Funnel
import MappingSweep.Sweep.Summary
import MappingSweep.Trial.Run

/-!
# Sweeps

Every mapping has a worker that runs all patterns in the order of the plan and stops at the first
trial that fails.  Other workers go on, and take their steps in whatever order the turns say.  What
the workers report is put together in the order of the mappings, and the first failure in that order
is the failure of the sweep.
-/

namespace MappingSweep

structure WorkerReport where
  finished : List String := []
  failure : Option (String × SweepError) := none

structure SweepOutcome where
  summary : Summary
  error : Option SweepError

namespace Sweep

variable {σ : Type}

/-- The patterns that a worker has left. -/
def patternsThread (plan : Plan) (template : Template) (simulator : Simulator) (sink : Sink σ)
    (m : Mapping) : List Pattern → Thread (World σ) WorkerReport
  | [] => return {}
  | p :: rest => do
    let t : Trial := ⟨m, p⟩
    match ← (t.task plan template simulator sink).run with
    | .ok _ =>
      let report ← patternsThread plan template simulator sink m rest
      return { report with finished := t.name :: report.finished }
    | .error e => return { failure := some (t.name, e) }

/-- The first step of a worker. -/
def openMapping (plan : Plan) (m : Mapping) : Action SweepError FileSystem Unit :=
  let dir := m.directory plan.outputDir
  Action.mapError (fun fs => fs.createDirectories dir) fun e => .io dir (.os e)

/-- The work of one worker.  Without its directory a mapping fails under its own name. -/
def worker (plan : Plan) (template : Template) (simulator : Simulator) (sink : Sink σ)
    (m : Mapping) : Thread (World σ) WorkerReport := do
  match ← (World.onFiles (openMapping plan m)).run with
  | .ok () => patternsThread plan template simulator sink m plan.patterns
  | .error e => return { failure := some (m.name, e) }

def outcomeOf (reports : List WorkerReport) : SweepOutcome where
  summary :=
    { finished := reports.flatMap (·.finished)
      failed := reports.filterMap fun r => r.failure.map (·.1) }
  error := reports.findSome? fun r => r.failure.map (·.2)

/-- Runs a whole sweep, with a worker for each mapping and something that goes on besides. -/
def run (plan : Plan) (template : Template) (simulator : Simulator) (sink : Sink σ)
    (background : World σ → World σ) (turns : List Turn) (w : World σ) : SweepOutcome × World σ :=
  let workers := plan.mappings.map (worker plan template simulator sink)
  let (reports, w) := Pool.finish background turns ⟨w, workers⟩
  (outcomeOf reports, w)

/-- The sink that feeds the row funnel. -/
def funnelSink : Sink Funnel where
  append row f := f.send row

/-- The writer's turn. -/
def writerStep (w : World Funnel) : World Funnel :=
  let (f, fs) := w.sink.take w.files
  ⟨fs, f⟩

end Sweep
end MappingSweep
