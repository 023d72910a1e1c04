import MappingSweep.Error
import MappingSweep.Name

/-!
# The plan of a sweep

Which mappings run against which patterns, with which simulator and base configuration, and where
the results go.  A plan is runnable when it lists something to run, allows a worker, and repeats no
name.
-/

namespace MappingSweep

structure Plan where
  simulator : Path
  baseConfig : Path
  outputDir : Path
  mappings : List Mapping
  /-- Every worker runs them in this order. -/
  patterns : List Pattern
  commands : List String
  burstWidth : UInt64
  /-- At most this many mappings run at the same time. -/
  maxWorkers : UInt64
  autoClean : Bool
  plot : Bool
  verbose : Bool
deriving DecidableEq

/-- The first element that equals an earlier one. -/
def firstRepeat? (seen : List String) : List String → Option String
  | [] => none
  | name :: rest => if name ∈ seen then some name else firstRepeat? (name :: seen) rest

namespace Plan

def fault? (p : Plan) : Option SettingsFault :=
  if p.mappings.isEmpty then some .noMappings
  else if p.patterns.isEmpty then some .noTraces
  else if p.maxWorkers = 0 then some .noWorkers
  else match firstRepeat? [] (p.mappings.map (·.name)) with
    | some name => some (.repeatedMapping name)
    | none => (firstRepeat? [] (p.patterns.map (·.name))).map .repeatedTrace

def validate (p : Plan) : Except SettingsFault Unit :=
  match p.fault? with
  | some f => .error f
  | none => .ok ()

/-- The size of the worker pool, never more than one worker per mapping. -/
def workerCount (p : Plan) : Nat :=
  max (min p.maxWorkers.toNat p.mappings.length) 1

def rowSinkPath (p : Plan) : Path :=
  p.outputDir.join "result.csv"

def reportPath (p : Plan) : Path :=
  p.outputDir.join "result_report.csv"

def summaryPath (p : Plan) : Path :=
  p.outputDir.join "summary.json"

def logLevel (p : Plan) : String :=
  if p.verbose then "debug" else "info"

end Plan
end MappingSweep
