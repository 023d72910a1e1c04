import MappingSweep.Config.Template
import MappingSweep.Thread
import MappingSweep.Trial.Result

/-!
# Running a trial

A trial goes through five stages: its directory is made empty, its configuration is written, the
simulator runs, the artifacts are read, and the row is handed over.  The first stage that fails ends
the trial with an error that names the stage and holds the stage's own error.  Other trials may take
steps of theirs between those of a trial.
-/

namespace MappingSweep

/-- Runs the memory simulator on a configuration, with its output going to a log. -/
structure Simulator where
  run : (config log : Path) → Action SweepError FileSystem Unit

/-- Where finished rows go.  A refused row leaves the sink as it was. -/
structure Sink (σ : Type) where
  append : Row → σ → Except SweepError σ

/-- The files and the sink while trials run. -/
structure World (σ : Type) where
  files : FileSystem
  sink : σ

namespace World

variable {σ α : Type}

/-- One step on the files alone. -/
def onFiles (a : Action SweepError FileSystem α) : Task SweepError (World σ) α :=
  (a.within World.files fun w fs => { w with files := fs }).task

/-- One step on the sink alone. -/
def onSink (a : Action SweepError σ α) : Task SweepError (World σ) α :=
  (a.within World.sink fun w s => { w with sink := s }).task

end World

namespace Trial

variable {σ α : Type}

/-- A stage of a trial; its error becomes the source of the trial's error. -/
def stage (t : Trial) (s : Stage) (a : Task SweepError (World σ) α) :
    Task SweepError (World σ) α :=
  a.mapError (.trial t.mapping.name t.pattern.name s)

def freshDirectory (dir : Path) : Task SweepError (World σ) Unit := do
  let failed := fun e => SweepError.io dir (.os e)
  if ← World.onFiles (.look fun fs => .ok (fs.pathExists dir)) then
    World.onFiles (Action.mapError (.change fun fs => fs.removeDirectory dir) failed)
  World.onFiles (Action.mapError (fun fs => fs.createDirectories dir) failed)

def writeConfig (template : Template) (overrides : Config) (paths : TrialPaths) :
    Action SweepError FileSystem Unit := do
  let _ ← Action.produce (template.materialize overrides paths.config)

def readRow (t : Trial) (plan : Plan) (paths : TrialPaths) : Action SweepError FileSystem Row :=
  .look fun fs => do (← TrialResult.collect paths fs).row t plan

/-- A trial from an empty directory to a row in the sink. -/
def task (plan : Plan) (template : Template) (simulator : Simulator) (sink : Sink σ) (t : Trial) :
    Task SweepError (World σ) Row := do
  let paths := TrialPaths.ofTrial plan.outputDir t
  t.stage .directory (freshDirectory paths.dir)
  t.stage .configMerge
    (World.onFiles (writeConfig template (t.overrides paths plan.commands) paths))
  t.stage .simulator (World.onFiles (simulator.run paths.config paths.stdoutLog))
  let row ← t.stage .parse (World.onFiles (t.readRow plan paths))
  t.stage .rowSink (World.onSink (.change (sink.append row)))
  return row

def run (plan : Plan) (template : Template) (simulator : Simulator) (sink : Sink σ) (t : Trial) :
    Action SweepError (World σ) Row :=
  (t.task plan template simulator sink).alone

end Trial
end MappingSweep
