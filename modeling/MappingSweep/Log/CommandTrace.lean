import MappingSweep.Error

/-!
# Command traces

The commands a memory controller issued, each line with a clock and a command as its first two
fields.  Blank lines are left out before lines are counted.  Intervals are the gaps between one
command and the next, and a clock that goes back counts as no gap.
-/

namespace MappingSweep

structure CommandEvent where
  clock : UInt64
  command : String
deriving DecidableEq, Repr

/-- What a line of a trace lacks. -/
inductive TraceFault where
  | noClock (line : Nat) (text : String)
  | noCommand (line : Nat) (text : String)
deriving DecidableEq, Repr

def TraceFault.message : TraceFault → String
  | noClock line text => "line " ++ Number.decimal line ++ ": no clock in `" ++ text ++ "`"
  | noCommand line text => "line " ++ Number.decimal line ++ ": no command in `" ++ text ++ "`"

namespace CommandTrace

def readLine (number : Nat) (line : List Char) : Except TraceFault CommandEvent :=
  let text := String.ofList line
  match (Text.splitOn ',' line).map Text.trimChars with
  | [] => .error (.noClock number text)
  | clock :: rest =>
    match Number.readWord clock with
    | none => .error (.noClock number text)
    | some n =>
      match rest with
      | (c :: cs) :: _ => .ok ⟨n, String.ofList (c :: cs)⟩
      | _ => .error (.noCommand number text)

def readLines (number : Nat) : List (List Char) → Except TraceFault (List CommandEvent)
  | [] => .ok []
  | line :: rest => do
    let event ← readLine number line
    return event :: (← readLines (number + 1) rest)

def isBlankLine (line : List Char) : Bool :=
  (Text.trimChars line).isEmpty

def parse (text : String) : Except TraceFault (List CommandEvent) :=
  readLines 1 ((Text.splitLines text.toList).filter fun line => !isBlankLine line)

/-- From one clock to a later one. -/
def gap (a b : UInt64) : UInt64 :=
  if a ≤ b then b - a else 0

def gaps : List UInt64 → List UInt64
  | a :: b :: rest => gap a b :: gaps (b :: rest)
  | _ => []

structure Intervals where
  all : List UInt64
  reads : List UInt64
deriving DecidableEq, Repr

/-- The command whose intervals are also counted on their own. -/
def readCommand : String := "RD"

def intervals (events : List CommandEvent) : Intervals where
  all := gaps (events.map (·.clock))
  reads := gaps ((events.filter (·.command == readCommand)).map (·.clock))

end CommandTrace
end MappingSweep
