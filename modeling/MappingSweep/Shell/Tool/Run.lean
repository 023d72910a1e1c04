import MappingSweep.Shell.Condition
import MappingSweep.Shell.Printing
import MappingSweep.Shell.Tool.Files

/-!
# Running tools

What each tool does with its arguments.
-/

namespace MappingSweep
namespace Shell
namespace Tool

def numbers (first step last : Int) : List Int :=
  if step = 0 then []
  else
    let count := Int.fdiv (last - first) step + 1
    (List.range count.toNat).map fun (k : Nat) => first + step * k

def answer (holds : Except ConditionFault Bool) : Step Unit :=
  match holds with
  | .ok b => Step.setStatus (if b then 0 else 1)
  | .error f => Step.refuse f.message 2

def printFormatted (arguments : List String) : Step Unit :=
  match if arguments.head? = some "--" then arguments.drop 1 else arguments with
  | [] => Step.refuse "usage: printf format [arg ...]" 2
  | format :: rest => do
    let out := Printed.ofArguments format rest
    Action.all (out.complaints.map Step.complain)
    Step.printBytes out.bytes
    Step.setStatus out.status

def printNumbers (arguments : List String) : Step Unit :=
  match arguments.mapM fun a => Number.readInt 10 a.toList with
  | some [last] => printAll (numbers 1 1 last)
  | some [first, last] => printAll (numbers first 1 last)
  | some [first, step, last] => printAll (numbers first step last)
  | some [] => seq.misuse "missing operand"
  | some (_ :: _ :: _ :: extra :: _) =>
    seq.misuse ("extra operand '" ++ Number.decimalInt extra ++ "'")
  | none =>
    let bad := arguments.find? fun a => (Number.readInt 10 a.toList).isNone
    seq.misuse ("invalid floating point argument: '" ++ bad.getD "" ++ "'")
where
  printAll (ns : List Int) : Step Unit := do
    Step.print (String.join (ns.map fun n => Number.decimalInt n ++ "\n"))
    Step.setStatus 0

/-- A time is a decimal number with at most one letter for its unit. -/
def isTime (cs : List Char) : Bool :=
  let digits := match cs.getLast? with
    | some c => if c ∈ ['s', 'm', 'h', 'd'] then cs.dropLast else cs
    | none => cs
  match Text.splitOn '.' digits with
  | [whole] => !whole.isEmpty && whole.all Char.isDigit
  | [whole, fraction] => !(whole ++ fraction).isEmpty && (whole ++ fraction).all Char.isDigit
  | _ => false

def onOperands (t : Tool) (options : List Char) (operands : List String) : Step Unit :=
  match t, operands with
  | cat, [] => eachOperand ["-"] copyOut
  | cat, files => eachOperand files copyOut
  | _, [] => t.misuse "missing operand"
  | dirname, paths => eachOperand paths fun p => printLine (directoryName p.toList)
  | basename, [path] => eachOperand [path] fun p => printLine (baseName p.toList [])
  | basename, [path, ending] =>
    eachOperand [path] fun p => printLine (baseName p.toList ending.toList)
  | basename, _ :: _ :: extra :: _ => t.misuse ("extra operand '" ++ extra ++ "'")
  | mkdir, paths => eachOperand paths (makeDirectory (options.contains 'p'))
  | rm, paths => eachOperand paths (remove options)
  | touch, paths => eachOperand paths touchFile
  | sleep, times =>
    match times.find? fun time => !isTime time.toList with
    | some bad => t.misuse ("invalid time interval '" ++ bad ++ "'")
    | none => Step.setStatus 0
  | _, [only] => t.misuse ("missing destination file operand after '" ++ only ++ "'")
  | _, paths => eachOperand paths.dropLast (t.transfer (paths.getLast?.getD ""))

/-- What a tool does.  The shell's own `echo` knows escapes. -/
def perform (t : Tool) (builtIn : Bool) (arguments : List String) : Step Unit :=
  match t with
  | echo => do
    Step.printBytes (echoed builtIn arguments)
    Step.setStatus 0
  | printf => printFormatted arguments
  | succeed => Step.setStatus 0
  | fail => Step.setStatus 1
  | test => fun s => answer (Condition.holds s.entry? arguments) s
  | bracket => fun s => answer (Condition.holdsBracketed s.entry? arguments) s
  | seq => printNumbers arguments
  | t =>
    match splitOptions t.optionLetters arguments with
    | .ok (options, operands) =>
      if t = rm ∧ options.contains 'f' ∧ operands = [] then Step.setStatus 0
      else t.onOperands options operands
    | .error c => t.misuse ("invalid option -- '" ++ String.ofList [c] ++ "'")

def run (t : Tool) (builtIn : Bool) (arguments : List String) : Step Unit :=
  Step.inNameOf (some t.name) (t.perform builtIn arguments)

end Tool
end Shell
end MappingSweep
