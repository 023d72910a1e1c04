import MappingSweep.Csv.Reader
import MappingSweep.FileSystem.Basic
import MappingSweep.Text.Quoted
import MappingSweep.Yaml.Fault

/-!
# Errors

Every way in which a sweep can fail, as causes, and the text of each.  The error of a trial wraps
the error of the stage that failed.
-/

namespace MappingSweep

open Number (decimal)

def Path.quoted (p : Path) : String :=
  Text.quoted p.text

inductive IoFault where
  | os (e : OsError)
  | notText
  | rowWidth (found expected : Nat)
  | writerStopped
  | stated (text : String)
deriving DecidableEq, Repr

def IoFault.message : IoFault → String
  | os e => e.message
  | notText => "stream did not contain valid UTF-8"
  | rowWidth found expected =>
    "row has " ++ decimal found ++ " fields, header has " ++ decimal expected
  | writerStopped => "row writer has stopped"
  | stated text => text

inductive SettingsFault where
  | noMappings
  | noTraces
  | noWorkers
  | repeatedMapping (name : String)
  | repeatedTrace (name : String)
deriving DecidableEq, Repr

def SettingsFault.message : SettingsFault → String
  | noMappings => "no mapping policies to sweep"
  | noTraces => "no trace patterns to sweep"
  | noWorkers => "max_workers must be at least 1"
  | repeatedMapping name => "mapping `" ++ name ++ "` is listed twice"
  | repeatedTrace name => "trace pattern `" ++ name ++ "` is listed twice"

inductive FormatFault where
  | missingFile
  | unknownFormat
  | malformed
  | missingKey (key : String)
  | wrongType (key : String)
  | badName (text : String)
deriving DecidableEq, Repr

def FormatFault.message : FormatFault → String
  | missingFile => "settings file not found"
  | unknownFormat => "settings file of unknown format"
  | malformed => "malformed settings file"
  | missingKey key => "missing setting `" ++ key ++ "`"
  | wrongType key => "setting `" ++ key ++ "` has the wrong type"
  | badName text => text

inductive LoadFault where
  | io (e : IoFault)
  | document (f : Yaml.Fault)
  | unsupportedKey (shown : String)
  | notMapping
  | settings (f : SettingsFault)
  | format (f : FormatFault)
  | stated (text : String)
deriving DecidableEq, Repr

def LoadFault.message : LoadFault → String
  | io e => e.message
  | document f => f.message
  | unsupportedKey shown => "unsupported map key " ++ shown
  | notMapping => "the top level is not a mapping"
  | settings f => f.message
  | format f => f.message
  | stated text => text

inductive LogFault where
  | noHeader
  | noRows
  | table (f : Csv.Fault)
  | notANumber (row : Nat) (field : String)
  | noCount (line : Nat)
  | badCount (line : Nat) (value : String)
  | noColumn (name : String)
  | stated (text : String)
deriving DecidableEq, Repr

def LogFault.message : LogFault → String
  | noHeader => "no header row"
  | noRows => "no data rows"
  | table f => f.message
  | notANumber row field => "row " ++ decimal row ++ ": `" ++ field ++ "` is not a number"
  | noCount line => "line " ++ decimal line ++ ": expected `name: count`"
  | badCount line value => "line " ++ decimal line ++ ": `" ++ value ++ "` is not a count"
  | noColumn name => "no `" ++ name ++ "` column"
  | stated text => text

inductive ReportFault where
  | unreadableSink (sink : Path) (e : OsError)
  | os (e : OsError)
  | table (f : Csv.Fault)
  | noHeader (sink : Path)
  | noRows (sink : Path)
  | cell (row : Nat) (text : String)
  | stated (text : String)
deriving DecidableEq, Repr

def notANumberText (cell : String) : String :=
  "`" ++ cell ++ "` is not a number"

def ReportFault.message : ReportFault → String
  | unreadableSink sink e => "cannot read " ++ sink.quoted ++ ": " ++ e.message
  | os e => e.message
  | table f => f.message
  | noHeader sink => sink.quoted ++ " has no header"
  | noRows sink => sink.quoted ++ " has no rows"
  | cell row text => "row " ++ decimal row ++ ": " ++ notANumberText text
  | stated text => text

inductive ExitStatus where
  | exited (code : Nat)
  | killed (signal : Nat)
deriving DecidableEq, Repr

def signalName : Nat → String
  | 1 => " (SIGHUP)"
  | 2 => " (SIGINT)"
  | 3 => " (SIGQUIT)"
  | 4 => " (SIGILL)"
  | 5 => " (SIGTRAP)"
  | 6 => " (SIGABRT)"
  | 7 => " (SIGBUS)"
  | 8 => " (SIGFPE)"
  | 9 => " (SIGKILL)"
  | 10 => " (SIGUSR1)"
  | 11 => " (SIGSEGV)"
  | 12 => " (SIGUSR2)"
  | 13 => " (SIGPIPE)"
  | 14 => " (SIGALRM)"
  | 15 => " (SIGTERM)"
  | 16 => " (SIGSTKFLT)"
  | 17 => " (SIGCHLD)"
  | 18 => " (SIGCONT)"
  | 19 => " (SIGSTOP)"
  | 20 => " (SIGTSTP)"
  | 21 => " (SIGTTIN)"
  | 22 => " (SIGTTOU)"
  | 23 => " (SIGURG)"
  | 24 => " (SIGXCPU)"
  | 25 => " (SIGXFSZ)"
  | 26 => " (SIGVTALRM)"
  | 27 => " (SIGPROF)"
  | 28 => " (SIGWINCH)"
  | 29 => " (SIGIO)"
  | 30 => " (SIGPWR)"
  | 31 => " (SIGSYS)"
  | _ => ""

namespace ExitStatus

def succeeded : ExitStatus → Bool
  | exited code => code == 0
  | killed _ => false

def message : ExitStatus → String
  | exited code => "exit status: " ++ decimal code
  | killed signal => "signal: " ++ decimal signal ++ signalName signal

end ExitStatus

inductive Stage where
  | directory
  | configMerge
  | simulator
  | parse
  | rowSink
deriving DecidableEq, Repr

def Stage.message : Stage → String
  | directory => "directory"
  | configMerge => "config merge"
  | simulator => "simulator"
  | parse => "parse"
  | rowSink => "row sink"

inductive SweepError where
  | configLoad (path : Path) (reason : LoadFault)
  | malformedLog (path : Path) (reason : LogFault)
  | missingCounter (name : String)
  | trial (mapping pattern : String) (stage : Stage) (source : SweepError)
  | reportWrite (path : Path) (reason : ReportFault)
  | simulatorExit (status : ExitStatus) (log : Path)
  | workerPool (text : String)
  | io (path : Path) (source : IoFault)
deriving DecidableEq, Repr

namespace SweepError

def message : SweepError → String
  | configLoad path reason => "cannot load config " ++ path.quoted ++ ": " ++ reason.message
  | malformedLog path reason => "malformed log " ++ path.quoted ++ ": " ++ reason.message
  | missingCounter name => "counter `" ++ name ++ "` is missing from the simulator output"
  | trial mapping pattern stage _ =>
    "trial " ++ mapping ++ "/" ++ pattern ++ " failed at the " ++ stage.message ++ " stage"
  | reportWrite path reason => "cannot write report " ++ path.quoted ++ ": " ++ reason.message
  | simulatorExit status log =>
    "simulator exited with " ++ status.message ++ ", see " ++ log.quoted
  | workerPool text => "cannot build the worker pool: " ++ text
  | io path _ => "io error on " ++ path.quoted

def stage? : SweepError → Option Stage
  | trial _ _ stage _ => some stage
  | _ => none

end SweepError

namespace FileSystem

def readText (fs : FileSystem) (p : Path) : Except IoFault String :=
  match fs.readBytes p with
  | .error e => .error (.os e)
  | .ok bytes =>
    match String.fromUTF8? bytes with
    | some s => .ok s
    | none => .error .notText

/-- The text of a file that a sweep cannot do without. -/
def loadText (fs : FileSystem) (p : Path) : Except SweepError String :=
  (fs.readText p).mapError (.io p)

def writeText (fs : FileSystem) (p : Path) (text : String) : Except IoFault FileSystem :=
  (fs.writeBytes p text.toUTF8).mapError .os

end FileSystem
end MappingSweep
