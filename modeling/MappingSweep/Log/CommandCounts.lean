import MappingSweep.Error
import MappingSweep.Keyed

/-!
# Command count logs

One `name: count` for each line.
-/

namespace MappingSweep
namespace CommandCounts

/-- The entry on a line: exactly one colon, and a word behind it. -/
def readLine (number : Nat) (line : List Char) : Except LogFault (String × UInt64) :=
  match Text.splitOn ':' (Text.trimChars line) with
  | [name, value] =>
    let value := Text.trimChars value
    match Number.readWord value with
    | some n => .ok (String.ofList (Text.trimChars name), n)
    | none => .error (.badCount number (String.ofList value))
  | _ => .error (.noCount number)

def readLines (number : Nat) : List (List Char) → Except LogFault (List (String × UInt64))
  | [] => .ok []
  | line :: rest => do
    let entry ← readLine number line
    return entry :: (← readLines (number + 1) rest)

/-- The counts of a log; of equal names the last line counts. -/
def parse (text : String) : Except LogFault (Keyed UInt64) := do
  return Keyed.ofList (← readLines 1 (Text.splitLines text.toList))

def read (fs : FileSystem) (p : Path) : Except SweepError (Keyed UInt64) := do
  (parse (← fs.loadText p)).mapError (.malformedLog p)

end CommandCounts
end MappingSweep
