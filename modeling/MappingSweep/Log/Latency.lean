import MappingSweep.Number.Decimal

/-!
# Latency statistics

Mean, median and count of a column of values.  The mean adds from left to right.  The median is
taken from the values in the total order of their bit patterns, so it does not depend on the order
in which they came.
-/

namespace MappingSweep

open Number (Binary64)

structure LatencyStats where
  mean : Float
  median : Float
  count : Nat

namespace LatencyStats

def sum (values : List Binary64) : Float :=
  values.foldl (fun acc v => acc + v.toFloat) (-0.0)

def sorted (values : List Binary64) : List Binary64 :=
  values.mergeSort Binary64.totalLE

def medianOf (values : List Binary64) : Option Float :=
  let xs := sorted values
  let mid := xs.length / 2
  if xs.length % 2 = 1 then xs[mid]?.map Binary64.toFloat
  else do
    let a ← xs[mid - 1]?
    let b ← xs[mid]?
    some ((a.toFloat + b.toFloat) / 2.0)

/-- The statistics of a column; none of an empty one. -/
def ofValues (values : List Binary64) : Option LatencyStats := do
  let median ← medianOf values
  some ⟨sum values / Float.ofNat values.length, median, values.length⟩

end LatencyStats
end MappingSweep
