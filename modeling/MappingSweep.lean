import MappingSweep.Main
import MappingSweep.Proofs.Config.Loading
import MappingSweep.Proofs.Config.Merge
import MappingSweep.Proofs.Csv.Decoding
import MappingSweep.Proofs.Figure.Trial
import MappingSweep.Proofs.Log.Access
import MappingSweep.Proofs.Log.CommandCounts
import MappingSweep.Proofs.Log.CounterKeys
import MappingSweep.Proofs.Log.Intervals
import MappingSweep.Proofs.Pool
import MappingSweep.Proofs.Report.Faithful
import MappingSweep.Proofs.Row.Funnel
import MappingSweep.Proofs.Row.Log
import MappingSweep.Proofs.Row.Traffic
import MappingSweep.Proofs.Run.Progress
import MappingSweep.Proofs.Run.Reported
import MappingSweep.Proofs.Sweep.Mappings
import MappingSweep.Proofs.Sweep.Source
import MappingSweep.Proofs.Trial.Configuration
import MappingSweep.Proofs.Trial.Fresh
import MappingSweep.Proofs.Trial.Needs
import MappingSweep.Proofs.Trial.Source
import MappingSweep.Proofs.Row.Session
import MappingSweep.Proofs.Csv.Faults
import MappingSweep.Proofs.Report.Refusal
import MappingSweep.Proofs.FileSystem.Contents
import MappingSweep.Proofs.Figure.Job
import MappingSweep.Proofs.Figure.Finished
import MappingSweep.Proofs.Log.CommandTrace
import MappingSweep.Proofs.Plan
import MappingSweep.Proofs.Settings.Precedence
import MappingSweep.Proofs.Figure.Intervals
import MappingSweep.Proofs.Figure.Latencies
import MappingSweep.Proofs.Log.Median
import MappingSweep.Proofs.Config.Lookup
