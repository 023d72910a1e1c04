import MappingSweep.Shell.Tool.Basic

/-!
# Tools on files

Showing, making, removing, copying and moving files, and the components of their paths.
-/

namespace MappingSweep
namespace Shell
namespace Tool

def dropLastSlashes (cs : List Char) : List Char :=
  (cs.reverse.dropWhile (· == '/')).reverse

/-- The last component of a path, without an ending that is not all of it. -/
def baseName (path ending : List Char) : List Char :=
  let cs := dropLastSlashes path
  if cs.isEmpty then path.take 1 else
  let last := (cs.reverse.takeWhile (· != '/')).reverse
  let front := last.take (last.length - ending.length)
  if ending ≠ [] ∧ front ≠ [] ∧ front ++ ending = last then front else last

def directoryName (path : List Char) : List Char :=
  let cs := dropLastSlashes path
  if cs.isEmpty then (if path.isEmpty then ['.'] else ['/']) else
  let front := (cs.reverse.dropWhile (· != '/')).reverse
  if front.isEmpty then ['.'] else
  let front := dropLastSlashes front
  if front.isEmpty then ['/'] else front

def printLine (cs : List Char) : Step Unit :=
  Step.print (String.ofList cs ++ "\n")

def outputGoesTo (s : Session) (place : Place) : Bool :=
  match s.descriptors.output.bind fun n => s.streams[n]? with
  | some (.file p _ _) => p == place
  | _ => false

def copyOut (operand : String) : Step Unit := fun s =>
  if isInput operand then
    let (bytes, s) := s.readAll s.descriptors.input
    (.ok (), s.write s.descriptors.output bytes)
  else if operand = nullDevice then (.ok (), s)
  else
    let failed := fun text => cat.complain (shownName operand ++ ": " ++ text) s
    match s.files.find (s.path operand) with
    | .ok (place, .file content _) =>
      if outputGoesTo s place ∧ content.size ≠ 0 then failed "input file is output file"
      else (.ok (), s.write s.descriptors.output content)
    | .ok (_, .directory) => failed OsError.isADirectory.reason
    | .error e => failed e.reason

def makeDirectory (withParents : Bool) (operand : String) : Step Unit :=
  mkdir.attempt ("cannot create directory '" ++ operand ++ "'") operand fun p fs =>
    if withParents then
      match fs.createDirectories p with
      | (.ok (), fs) => .ok fs
      | (.error e, _) => .error e
    else fs.makeDirectory p

def remove (options : List Char) (operand : String) : Step Unit := do
  let recursive := options.contains 'r' || options.contains 'R'
  let s ← Step.get
  unless options.contains 'f' && (s.entry? operand).isNone do
    rm.attempt ("cannot remove '" ++ operand ++ "'") operand fun p fs =>
      if recursive && fs.pathIsDirectory p then fs.removeDirectory p else fs.removeFile p

def touchFile (operand : String) : Step Unit :=
  touch.attempt ("cannot touch '" ++ operand ++ "'") operand fun p fs =>
    if fs.pathExists p then .ok fs else fs.writeBytes p .empty

/-- The path at which a file arrives: inside the target if that is a directory. -/
def destination (s : Session) (source target : String) : String :=
  if s.entry? target = some .directory then
    ((⟨target⟩ : Path).join (String.ofList (baseName source.toList []))).text
  else target

def transfer (t : Tool) (target source : String) : Step Unit := do
  let s ← Step.get
  match s.files.readBytes (s.path source) with
  | .error e => t.complain ("cannot stat '" ++ source ++ "': " ++ e.reason)
  | .ok content =>
    let arrival := destination s source target
    let what := if t = mv then "cannot move '" ++ source ++ "' to '" ++ arrival ++ "'"
      else "cannot create regular file '" ++ arrival ++ "'"
    t.attempt what arrival fun p fs => do
      let fs ← fs.writeBytes p content
      if t = mv then fs.removeFile (s.path source) else return fs

end Tool
end Shell
end MappingSweep
