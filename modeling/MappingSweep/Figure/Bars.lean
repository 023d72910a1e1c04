import MappingSweep.Number.Binary64
import MappingSweep.Number.Word

/-!
# Bars

Histograms as lists of labelled counts.  Intervals have a bar for each value that occurs, in rising
order, and share one last bar from a cap on.  Latencies have bars of equal width from zero up to the
greatest value, at most forty of them.
-/

namespace MappingSweep

open Number (Binary64 decimal)

structure Bar where
  label : String
  count : Nat
deriving DecidableEq, Repr

namespace Bars

variable {α : Type}

/-- Counts one more occurrence of `v` in a list of values in rising order. -/
def addOccurrence [LT α] [DecidableEq α] [DecidableLT α] (v : α) : List (α × Nat) → List (α × Nat)
  | [] => [(v, 1)]
  | (w, n) :: rest =>
    if v = w then (w, n + 1) :: rest
    else if v < w then (v, 1) :: (w, n) :: rest
    else (w, n) :: addOccurrence v rest

/-- How often each value occurs, in rising order of the values. -/
def frequencies [LT α] [DecidableEq α] [DecidableLT α] (values : List α) : List (α × Nat) :=
  values.foldr addOccurrence []

def wordLabel (w : UInt64) : String :=
  decimal w.toNat

def intervalCap : UInt64 := 400

def capBar (cap : UInt64) (count : Nat) : List Bar :=
  if count = 0 then [] else [⟨">=" ++ wordLabel cap, count⟩]

/-- Counts one more interval, at its value below the cap and with all others from there on. -/
def countInterval (cap : UInt64) (counted : List (UInt64 × Nat) × Nat) (v : UInt64) :
    List (UInt64 × Nat) × Nat :=
  if cap ≤ v then (counted.1, counted.2 + 1) else (addOccurrence v counted.1, counted.2)

def countIntervals (cap : UInt64) (values : List UInt64) : List (UInt64 × Nat) × Nat :=
  values.foldl (countInterval cap) ([], 0)

def ofIntervals (cap : UInt64) (values : List UInt64) : List Bar :=
  let counted := countIntervals cap values
  counted.1.map (fun e => ⟨wordLabel e.1, e.2⟩) ++ capBar cap counted.2

/-- Below this greatest value every bar has width one. -/
def fineRange : UInt64 := 20

/-- The greatest of the values, at least zero. -/
def peak (values : List Binary64) : Binary64 :=
  (values.foldl Binary64.maxNumber .zero).maxNumber .zero

def width? (top : UInt64) : Option UInt64 :=
  if top < fineRange then some 1 else Number.Word.div? top fineRange

/-- The number of the bar that a value belongs to. -/
def place? (width : UInt64) (v : Binary64) : Option UInt64 :=
  Number.Word.div? (v.maxNumber .zero).toWord width

/-- Counts one more value in the bar with this number, if there is one. -/
def countAt? (counts : List Nat) (i : Nat) : Option (List Nat) :=
  if i < counts.length then some (counts.modify i (· + 1)) else none

def countIn? (width : UInt64) (counts : List Nat) (v : Binary64) : Option (List Nat) := do
  let i ← place? width v
  countAt? counts i.toNat

/-- The bar with this number is labelled by the least value that belongs to it. -/
def bar? (width : UInt64) (i count : Nat) : Option Bar := do
  let start ← Number.Word.mul? (UInt64.ofNat i) width
  some ⟨wordLabel start, count⟩

/-- The bars of latencies, unless a number leaves the words or the bars on the way. -/
def latencies? (values : List Binary64) : Option (List Bar) := do
  let top := (peak values).toWord
  let width ← width? top
  let last ← Number.Word.div? top width
  let size ← Number.Word.add? last 1
  let counts ← values.foldlM (countIn? width) (List.replicate size.toNat 0)
  counts.zipIdx.mapM fun c => bar? width c.2 c.1

def ofLatencies (values : List Binary64) : List Bar :=
  (latencies? values).getD []

def ofIntegers (values : List Binary64) : List Bar :=
  (frequencies (values.map (·.toNearest (Nat.pow 2 63)))).map fun e => ⟨Number.decimalInt e.1, e.2⟩

end Bars
end MappingSweep
