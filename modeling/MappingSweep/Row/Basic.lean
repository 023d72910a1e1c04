import MappingSweep.Csv.Record
import MappingSweep.Number.Decimal

/-!
# Result rows

The flat result of one trial: what was run, what was measured, and the counts of the commands in the
order in which the plan lists them.
-/

namespace MappingSweep

structure Row where
  pattern : String
  trace : String
  mapping : String
  totalLatency : UInt64
  bandwidthUsage : Option Float
  averageLatency : Float
  medianLatency : Float
  reads : UInt64
  writes : UInt64
  commands : List UInt64
deriving DecidableEq

namespace Row

def identityColumns : List String :=
  ["pattern", "trace", "mapping"]

def resultColumns : List String :=
  ["total_latency", "bw_usage", "avg_latency", "mid_latency", "read_req", "write_req"]

def header (commands : List String) : List String :=
  identityColumns ++ resultColumns ++ commands

def wordText (n : UInt64) : String :=
  Number.decimal n.toNat

/-- The fields of a row; an unknown bandwidth is an empty field. -/
def record (r : Row) : List String :=
  [r.pattern, r.trace, r.mapping, wordText r.totalLatency,
    (r.bandwidthUsage.map Number.floatText).getD "", Number.floatText r.averageLatency,
    Number.floatText r.medianLatency, wordText r.reads, wordText r.writes] ++
      r.commands.map wordText

theorem length_header (commands : List String) :
    (header commands).length = 9 + commands.length := by
  simp only [header, identityColumns, resultColumns, List.length_append, List.length_cons,
    List.length_nil]

theorem length_record (r : Row) : r.record.length = 9 + r.commands.length := by
  simp only [record, List.length_append, List.length_cons, List.length_nil, List.length_map]

end Row
end MappingSweep
