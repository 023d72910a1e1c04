import MappingSweep.Shell.Tool.Basic

/-!
# Executables

What a name or a path stands for when it is to be run: a program of the system, or a file that names
its interpreter in its first line.
-/

namespace MappingSweep
namespace Shell

inductive Program where
  | shell (name : String)
  | tool (t : Tool)
deriving DecidableEq, Repr

namespace Program

def shellNames : List String :=
  ["sh", "dash", "bash"]

def ofName? (name : String) : Option Program :=
  if name ∈ shellNames then some (.shell name) else (Tool.ofName? name).map .tool

def systemDirectories : List String :=
  ["/bin/", "/usr/bin/"]

def ofSystemPath? (path : String) : Option Program :=
  systemDirectories.findSome? fun d =>
    if d.toList.isPrefixOf path.toList then
      match ofName? (String.ofList (path.toList.drop d.length)) with
      | some (.shell _) => some (.shell path)
      | other => other
    else none

end Program

/-- A program with the arguments that come before those of the caller. -/
structure Executable where
  program : Program
  arguments : List String := []
deriving DecidableEq, Repr

namespace Executable

/-- The interpreter that a first line names, and its argument. -/
def interpreterOf? (content : List UInt8) : Option (String × Option String) :=
  match content with
  | 35 :: 33 :: rest =>
    let isGap := fun (b : UInt8) => b == 32 || b == 9
    let line := (rest.takeWhile (· != 10)).dropWhile isGap
    let path := line.takeWhile fun b => !isGap b
    let argument := (((line.drop path.length).dropWhile isGap).reverse.dropWhile isGap).reverse
    let text := fun (bs : List UInt8) => (String.fromUTF8? ⟨bs.toArray⟩).getD ""
    if path.isEmpty then none
    else some (text path, if argument.isEmpty then none else some (text argument))
  | _ => none

/-- How many interpreters may stand behind one another. -/
def interpreterBound : Nat := 5

/-- A program that is found by its name alone; `env` finds another one by its argument. -/
def ofInterpreter? (path : String) (argument : Option String) :
    Option (Except OsError Executable) :=
  if path = "/usr/bin/env" ∨ path = "/bin/env" then
    match argument with
    | some name =>
      match Program.ofName? name with
      | some p => some (.ok ⟨p, []⟩)
      | none => some (.error .notFound)
    | none => none
  else (Program.ofSystemPath? path).map fun p => .ok ⟨p, argument.toList⟩

/-- What a path stands for, where the files are found by `look`. -/
def load (look : String → Except OsError Entry) : Nat → String → Except OsError Executable
  | 0, _ => .error .execFormat
  | fuel + 1, path =>
    match Program.ofSystemPath? path with
    | some program => .ok ⟨program, []⟩
    | none => do
      match ← look path with
      | .directory => throw .permissionDenied
      | .file _ false => throw .permissionDenied
      | .file content true =>
        match interpreterOf? content.toList with
        | none => throw .execFormat
        | some (interpreter, argument) =>
          match ofInterpreter? interpreter argument with
          | some found =>
            let e ← found
            return { e with arguments := e.arguments ++ [path] }
          | none =>
            let e ← load look fuel interpreter
            return { e with arguments := e.arguments ++ argument.toList ++ [path] }

/-- What a name stands for: a path if it has a slash, else a program of the system.  Dots name the
directories of the programs themselves. -/
def find (look : String → Except OsError Entry) (name : String) : Except OsError Executable :=
  if name.toList.contains '/' then load look interpreterBound name
  else if name ∈ [".", ".."] then .error .permissionDenied
  else
    match Program.ofName? name with
    | some program => .ok ⟨program, []⟩
    | none => .error .notFound

end Executable
end Shell
end MappingSweep
