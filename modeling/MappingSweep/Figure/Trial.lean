import MappingSweep.Action
import MappingSweep.Figure.Basic
import MappingSweep.Trial.Basic

/-!
# Finishing trials

After a sweep every trial gets its two figures, if they are wanted, and loses its two large logs, if
they are not.  A figure that cannot be drawn is counted and does not stop the others; an old figure
or a log that cannot be deleted stops everything.
-/

namespace MappingSweep

namespace TrialPaths

def latencyFigure (paths : TrialPaths) (t : Trial) : Path :=
  paths.dir.join (t.pattern.name ++ "_latency_breakdown.png")

def intervalFigure (paths : TrialPaths) (t : Trial) : Path :=
  paths.dir.join (t.pattern.name ++ "_cmd_interval.png")

end TrialPaths

namespace Figure

/-- Deletes a file if it is there. -/
def discard (file : Path) (fs : FileSystem) : Except RunError FileSystem :=
  if fs.pathExists file then
    (fs.removeFile file).mapError fun e => .during (.deleting file) (.io (.os e))
  else .ok fs

/-- The files, and how many figures failed so far. -/
structure Progress where
  files : FileSystem
  failed : Nat := 0

abbrev Step : Type :=
  Action RunError Progress Unit

def discarding (file : Path) : Step :=
  .change fun p => (discard file p.files).map fun fs => { p with files := fs }

/-- Draws a figure, or counts it as failed. -/
def drawing (draw : FileSystem → Except RunError FileSystem) : Step := fun p =>
  match draw p.files with
  | .ok fs => (.ok (), { p with files := fs })
  | .error _ => (.ok (), { p with failed := p.failed + 1 })

def noteOf (t : Trial) : String :=
  t.mapping.name ++ "  |  " ++ t.pattern.path.text

/-- An old figure is taken away before the new one is drawn. -/
def drawingSteps (t : Trial) (paths : TrialPaths) : List Step :=
  let latency := paths.latencyFigure t
  let interval := paths.intervalFigure t
  [discarding latency, drawing (drawLatencies paths.accessLog latency (noteOf t)),
    discarding interval, drawing (drawIntervals (paths.commandTrace 0) interval (noteOf t))]

def cleaningSteps (paths : TrialPaths) : List Step :=
  [discarding paths.accessLog, discarding (paths.commandTrace 0)]

def trialSteps (plan : Plan) (t : Trial) : List Step :=
  let paths := TrialPaths.ofTrial plan.outputDir t
  (if plan.plot then drawingSteps t paths else []) ++
    (if plan.autoClean then cleaningSteps paths else [])

end Figure

/-- Draws and cleans for every trial, and answers how many figures failed. -/
def Figure.finishTrials (plan : Plan) : Action RunError FileSystem Nat := fun fs =>
  let (result, p) := Action.all (plan.trials.flatMap (trialSteps plan)) ⟨fs, 0⟩
  (result.map fun () => p.failed, p.files)

end MappingSweep
