import MappingSweep.Shell.Session

/-!
# Tools

The small programs that scripts rely on, their options, and how they complain.  Each one works on
the files and the streams of the session and leaves a status.  Some of them are also built into the
shell, where they complain like it.  They belong to the outer layer, and are few for that reason.
-/

namespace MappingSweep
namespace Shell

inductive Tool where
  | echo
  | printf
  | succeed
  | fail
  | test
  | bracket
  | cat
  | dirname
  | basename
  | mkdir
  | rm
  | touch
  | cp
  | mv
  | sleep
  | seq
deriving DecidableEq, Repr

namespace Tool

def names : List (String × Tool) :=
  [("echo", echo), ("printf", printf), ("true", succeed), ("false", fail), ("test", test),
    ("[", bracket), ("cat", cat), ("dirname", dirname), ("basename", basename), ("mkdir", mkdir),
    ("rm", rm), ("touch", touch), ("cp", cp), ("mv", mv), ("sleep", sleep), ("seq", seq)]

def ofName? (name : String) : Option Tool :=
  names.lookup name

def name (t : Tool) : String :=
  ((names.find? (·.2 == t)).map (·.1)).getD ""

def optionLetters : Tool → List Char
  | cat => ['u']
  | mkdir => ['p']
  | rm => ['f', 'r', 'R']
  | cp => ['f', 'p']
  | mv => ['f']
  | touch => ['f']
  | _ => []

/-- Options as letters and the operands, or the first letter that is no option. -/
def splitOptions (letters : List Char) : List String → Except Char (List Char × List String)
  | [] => .ok ([], [])
  | "--" :: rest => .ok ([], rest)
  | word :: rest => do
    let (options, operands) ← splitOptions letters rest
    match word.toList with
    | '-' :: c :: cs =>
      match (c :: cs).find? fun c => !letters.contains c with
      | some bad => throw bad
      | none => return (c :: cs ++ options, operands)
    | _ => return (options, word :: operands)

/-- Characters that a shell does not take as they are, some of them only in first place. -/
def isPlainName (name : String) : Bool :=
  let special := " :!\"$&()*;<=>?[^\x60|\\\n\t".toList
  match name.toList with
  | [] => false
  | c :: cs => c != '#' && c != '~' && (c :: cs).all fun c => !special.contains c

/-- A name in a message stands in quotes only if a shell would not take it as it is. -/
def shownName (name : String) : String :=
  if name.toList.contains '\'' then "\"" ++ name ++ "\""
  else if isPlainName name then name
  else "'" ++ name ++ "'"

def fault (t : Tool) (text : String) : Step Unit :=
  Step.printError (t.name ++ ": " ++ text)

def hint (t : Tool) : Step Unit :=
  Step.printError ("Try '" ++ t.name ++ " --help' for more information.")

def misuse (t : Tool) (text : String) : Step Unit := do
  t.fault text
  t.hint
  Step.setStatus 1

def complain (t : Tool) (text : String) : Step Unit := do
  t.fault text
  Step.setStatus 1

/-- Changes the files at the path of an operand, or says what could not be done and why. -/
def attempt (t : Tool) (what operand : String)
    (change : Path → FileSystem → Except OsError FileSystem) : Step Unit := fun s =>
  match change (s.path operand) s.files with
  | .ok files => (.ok (), { s with files })
  | .error e => t.complain (what ++ ": " ++ e.reason) s

def nullDevice : String :=
  "/dev/null"

def isInput (operand : String) : Bool :=
  operand == "-" || operand == "/dev/stdin"

def eachOperand (operands : List String) (f : String → Step Unit) : Step Unit := do
  Step.setStatus 0
  Action.all (operands.map f)

end Tool
end Shell
end MappingSweep
