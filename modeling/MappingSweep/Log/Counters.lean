import MappingSweep.Error
import MappingSweep.Keyed
import MappingSweep.Text.Digit

/-!
# Simulator counters

Request and cycle counters anywhere in the simulator's output.  On each line the leftmost place
counts at which one of the known names is followed by a colon, blanks and digits.  A line without
such a place, or with digits that are no 64-bit word, says nothing.
-/

namespace MappingSweep

abbrev Counters : Type := Keyed UInt64

namespace Counters

def readRequests : String := "total_num_read_requests"

def writeRequests : String := "total_num_write_requests"

def otherRequests : String := "total_num_other_requests"

def memoryCycles : String := "memory_system_cycles"

def known : List String :=
  [otherRequests, writeRequests, readRequests, memoryCycles]

/-- What follows a given text at the start of another. -/
def after? : List Char → List Char → Option (List Char)
  | [], cs => some cs
  | _ :: _, [] => none
  | p :: ps, c :: cs => if p = c then after? ps cs else none

/-- The digits of a counter with this name at the start of a text. -/
def digitsOf? (name : String) (cs : List Char) : Option (List Char) := do
  let rest ← after? (name.toList ++ [':']) cs
  match (rest.dropWhile Text.isBlank).takeWhile Text.isScriptDigit with
  | [] => none
  | ds => some ds

def counterHere? (cs : List Char) : Option (String × List Char) :=
  known.findSome? fun name => (digitsOf? name cs).map fun ds => (name, ds)

def leftmost? : List Char → Option (String × List Char)
  | [] => none
  | c :: rest =>
    match counterHere? (c :: rest) with
    | some found => some found
    | none => leftmost? rest

def lineCounter? (line : List Char) : Option (String × UInt64) := do
  let (name, ds) ← leftmost? line
  let n ← Number.readWord ds
  some (name, n)

/-- The counters of an output; the last line that sets a counter counts. -/
def parse (text : String) : Counters :=
  Keyed.ofList ((Text.splitLines text.toList).filterMap lineCounter?)

def find (counters : Counters) (name : String) : Except SweepError UInt64 :=
  match Keyed.get? name counters with
  | some n => .ok n
  | none => .error (.missingCounter name)

def read (fs : FileSystem) (p : Path) : Except SweepError Counters := do
  return parse (← fs.loadText p)

end Counters
end MappingSweep
