import MappingSweep.Shell.Field
import MappingSweep.Shell.Tool.Run

/-!
# Commands of the shell itself

The commands that change the session: its variables, its arguments, its working directory and the
way in which it goes on.  A fault of a special one ends the script.
-/

namespace MappingSweep
namespace Shell

inductive Builtin where
  | colon
  | exit
  | returnBack
  | breakLoop
  | continueLoop
  | shift
  | set
  | unset
  | exportNames
  | exec
  | read
  | kill
  | changeDirectory
deriving DecidableEq, Repr

namespace Builtin

def names : List (String × Builtin) :=
  [(":", colon), ("exit", exit), ("return", returnBack), ("break", breakLoop),
    ("continue", continueLoop), ("shift", shift), ("set", set), ("unset", unset),
    ("export", exportNames), ("exec", exec), ("read", read), ("kill", kill),
    ("cd", changeDirectory)]

def ofName? (name : String) : Option Builtin :=
  names.lookup name

/-- A special command keeps the assignments in front of it. -/
def isSpecial (b : Builtin) : Bool :=
  b ∉ [read, kill, changeDirectory]

end Builtin

namespace Step

def numberBound : Nat := Nat.pow 2 31

/-- The number that an operand gives, within the range of the shell. -/
def operandNumber (text : String) : Step Nat :=
  match Number.readNat 10 (Text.trimChars text.toList) with
  | some n => if n < numberBound then pure n else abort ("Illegal number: " ++ text)
  | none => abort ("Illegal number: " ++ text)

def endStatus (operands : List String) : Step Unit := do
  match operands with
  | [] => pure ()
  | text :: _ => setStatus ((← operandNumber text) % 256)

def levels (operands : List String) : Step Nat :=
  match operands with
  | [] => pure 1
  | text :: _ => operandNumber text

/-- Ends so many loops in a way, or all that there are; without any this does nothing. -/
def leaveLoops (ending : Nat → Ending) (operands : List String) : Step Unit := do
  let n ← levels operands
  let loops := (← get).loops
  setStatus 0
  unless loops = 0 do finish (ending (min n loops))

def assign (name value : String) : Step Unit :=
  update fun s => s.assign name value

/-- Exports a variable that is named alone or with its value, as in `name=value`. -/
def exportName (text : String) : Step Unit := do
  let name := text.toList.takeWhile (· != '=')
  unless isName name do abort (text ++ ": bad variable name")
  let key := String.ofList name
  update fun s => { s with exported := s.exported ++ [key] }
  if name.length < text.length then assign key (String.ofList (text.toList.drop (name.length + 1)))

def unsetAll (operands : List String) : Step Unit :=
  update fun s => { s with
    bindings := s.bindings.filter fun e => !operands.contains e.1, status := 0 }

def setArguments : List String → Step Unit
  | [] => pure ()
  | "--" :: rest => update fun s => { s with arguments := rest }
  | word :: rest =>
    match word.toList with
    | '-' :: letters => do
      update fun s => s.setOptions letters true
      setArguments rest
    | '+' :: letters => do
      update fun s => s.setOptions letters false
      setArguments rest
    | _ => update fun s => { s with arguments := word :: rest }

/-- A line without its backslashes, each of which keeps the character behind it. -/
def withoutBackslashes : List Char → List Char
  | '\\' :: c :: rest => c :: withoutBackslashes rest
  | c :: rest => c :: withoutBackslashes rest
  | [] => []

/-- Reads a line into variables; at the end of the input they become empty. -/
def readLine (operands : List String) : Step Unit := do
  let raw := operands.head? = some "-r"
  let names := if raw then operands.drop 1 else operands
  if names.isEmpty then refuse "arg count" 2
  else
    let s ← get
    let (bytes, ended, s') := s.readLine s.descriptors.input
    update fun _ => s'
    let line := (String.fromUTF8? ⟨bytes.toArray⟩).getD ""
    let text := if raw then line.toList else withoutBackslashes line.toList
    let values := lineFields s.separators names.length text
    update fun s => (names.zip values).foldl
      (fun s e => s.assign e.1 (String.ofList e.2)) s
    setStatus (if ended then 0 else 1)

def ignoredSignals : List Nat :=
  [0, 17, 18, 23, 28]

def signal? (text : String) : Option Nat :=
  match Number.readNat 10 text.toList with
  | some n => if n ≤ 64 then some n else none
  | none =>
    (List.range 32).find? fun n => signalName n == " (SIG" ++ text ++ ")"

def processNumber : String :=
  "1"

def sendSignal (signal : Nat) (targets : List String) : Step Unit := do
  match targets with
  | [] =>
    refuse ("Usage: kill [-s sigspec | -signum | -sigspec] [pid | job]... or\n" ++
      "kill -l [exitstatus]") 2
  | target :: _ =>
    if target = processNumber ∨ target = "0" then
      setStatus 0
      unless ignoredSignals.contains signal do finish (.killed signal)
    else if (Number.readNat 10 target.toList).isSome then refuse "No such process\n" 1
    else refuse ("Illegal number: " ++ target) 2

def kill (operands : List String) : Step Unit :=
  match operands with
  | ["-s"] => refuse "No arg for -s option" 2
  | "-s" :: name :: rest =>
    match signal? name with
    | some n => sendSignal n rest
    | none => refuse ("invalid signal number or name: " ++ name) 2
  | "--" :: rest => sendSignal 15 rest
  | word :: rest =>
    match word.toList with
    | '-' :: c :: name =>
      match signal? (String.ofList (c :: name)) with
      | some n => sendSignal n rest
      | none => refuse ("Illegal option -" ++ String.ofList [c]) 2
    | _ => sendSignal 15 (word :: rest)
  | [] => sendSignal 15 []

/-- The path of a place from the working directory of the first process. -/
def pathTo : Place → Path
  | "/" :: rest => .ofComponents true rest
  | place => .ofComponents false place

def changeDirectory (operands : List String) : Step Unit := do
  let s ← get
  let target := operands.headD ((s.valueOf "HOME").getD "")
  if target.isEmpty then setStatus 0 else
  match s.files.find (s.path target) with
  | .ok (place, .directory) =>
    update fun s => { s with directory := pathTo place, status := 0 }
  | _ => refuse ("can't cd to " ++ target) 2

end Step

namespace Builtin

/-- Runs a command that needs nothing but the session. -/
def run (b : Builtin) (operands : List String) : Step Unit := do
  match b with
  | exit =>
    Step.endStatus operands
    Step.finish .exited
  | returnBack =>
    Step.endStatus operands
    Step.finish .returned
  | breakLoop => Step.leaveLoops .broke operands
  | continueLoop => Step.leaveLoops .continued operands
  | shift =>
    let n ← Step.levels operands
    let s ← Step.get
    if s.arguments.length < n then Step.abort "can't shift that many"
    Step.update fun s => { s with arguments := s.arguments.drop n, status := 0 }
  | set =>
    Step.setArguments operands
    Step.setStatus 0
  | unset => Step.unsetAll operands
  | exportNames =>
    Action.all (operands.map Step.exportName)
    Step.setStatus 0
  | read => Step.readLine operands
  | kill => Step.kill operands
  | changeDirectory => Step.changeDirectory operands
  | _ => Step.setStatus 0

end Builtin
end Shell
end MappingSweep
