import MappingSweep.Error
import MappingSweep.Log.CommandTrace

/-!
# Errors of a run

What stopped a run, and what the run was doing at that time.  The cause is an error of a sweep, or
something that has no wider meaning: a file that could not be touched, a trace that could not be
read, a picture that could not be written.
-/

namespace MappingSweep

inductive Activity where
  | readingSettings
  | loadingBase
  | creating (dir : Path)
  | creatingSummary
  | writingRows
  | sweeping
  | deleting (file : Path)
  | readingTrace (file : Path)
  | parsingTrace (file : Path)
  | drawing (figure : Path)
deriving DecidableEq, Repr

def Activity.message : Activity → String
  | readingSettings => "fail to create SweepConfig object"
  | loadingBase => "fail to load base config"
  | creating dir => "fail to create " ++ dir.quoted
  | creatingSummary => "fail to create summary file"
  | writingRows => "row writer failed"
  | sweeping => "sweep failed"
  | deleting file => "fail to delete " ++ file.quoted
  | readingTrace file => "fail to read " ++ file.quoted
  | parsingTrace file => "bad command trace " ++ file.quoted
  | drawing figure => "fail to write " ++ figure.quoted

inductive RunCause where
  | sweep (e : SweepError)
  | io (e : IoFault)
  | trace (f : TraceFault)
  | picture (e : OsError)
deriving DecidableEq, Repr

def RunCause.message : RunCause → String
  | sweep e => e.message
  | io e => e.message
  | trace f => f.message
  | picture e => "backend error: Drawing backend error: ImageError(IoError(" ++ e.details ++ "))"

structure RunError where
  activity : Option Activity
  cause : RunCause
deriving DecidableEq, Repr

namespace RunError

def ofSweep (e : SweepError) : RunError :=
  ⟨none, .sweep e⟩

def during (a : Activity) (cause : RunCause) : RunError :=
  ⟨some a, cause⟩

/-- The error of the sweep behind a failed run, if there is one. -/
def sweepError? (e : RunError) : Option SweepError :=
  match e.cause with
  | .sweep s => some s
  | _ => none

/-- The messages in front of the error of the sweep; all messages if there is none. -/
def context (e : RunError) : List String :=
  let doing := e.activity.toList.map Activity.message
  match e.cause with
  | .sweep _ => doing
  | cause => doing ++ [cause.message]

end RunError
end MappingSweep
