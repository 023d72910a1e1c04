import MappingSweep.Action
import MappingSweep.Error
import MappingSweep.Keyed
import MappingSweep.Shell.Command

/-!
# Sessions

The state of a running script: the files, the working directory, the open streams, the variables
and the status of the last command.  Descriptors share streams by number, so that output and errors
which go to one log share one position in it.
-/

namespace MappingSweep
namespace Shell

/-- An open stream: a position in a file, or octets that are passed on within the session. -/
inductive Stream where
  | file (place : Place) (position : Nat) (appending : Bool)
  | buffer (content : ByteArray) (position : Nat)

/-- Where the three usual descriptors lead; none is a stream that is always empty. -/
structure Descriptors where
  input : Option Nat := none
  output : Option Nat := none
  errors : Option Nat := none
deriving DecidableEq, Repr

structure Session where
  files : FileSystem
  /-- The working directory as a path from that of the first process. -/
  directory : Path := ⟨""⟩
  streams : List Stream := []
  descriptors : Descriptors := {}
  bindings : Keyed String := []
  /-- The variables that other scripts are given. -/
  exported : List String := []
  functions : List (String × Command) := []
  name : String := "sh"
  /-- The command in whose name the shell complains. -/
  caller : Option String := none
  arguments : List String := []
  /-- How many loops are going on in the function or the script that is run. -/
  loops : Nat := 0
  line : Nat := 0
  status : Nat := 0
  stopsOnFailure : Bool := false
  refusesUnset : Bool := false

/-- How a sequence of commands can end before its last one. -/
inductive Ending where
  | exited
  | killed (signal : Nat)
  | returned
  | broke (levels : Nat)
  | continued (levels : Nat)
  /-- The bound on the steps of a script is reached. -/
  | spent
deriving DecidableEq, Repr

abbrev Step (α : Type) : Type :=
  Action Ending Session α

namespace Stream

/-- A content overwritten from a position on; a gap before that is filled with zeros. -/
def overwritten (content : ByteArray) (position : Nat) (bytes : ByteArray) : ByteArray :=
  let front := content.extract 0 position
  let gap : ByteArray := ⟨Array.replicate (position - content.size) 0⟩
  front ++ gap ++ bytes ++ content.extract (position + bytes.size) content.size

end Stream

namespace Session

def modifyStream (s : Session) (n : Nat) (stream : Stream) : Session :=
  { s with streams := s.streams.set n stream }

def content (s : Session) : Stream → ByteArray
  | .file place _ _ =>
    match s.files.entryAt place with
    | some (.file content _) => content
    | _ => .empty
  | .buffer content _ => content

def write (s : Session) (target : Option Nat) (bytes : ByteArray) : Session :=
  match target with
  | none => s
  | some n =>
    match s.streams[n]? with
    | none => s
    | some (.buffer content position) => s.modifyStream n (.buffer (content ++ bytes) position)
    | some (.file place position appending) =>
      match s.files.entryAt place with
      | some (.file content executable) =>
        let start := if appending then content.size else position
        let content := Stream.overwritten content start bytes
        { s with files := s.files.set place (.file content executable) }.modifyStream n
          (.file place (start + bytes.size) appending)
      | _ => s

def readAll (s : Session) (source : Option Nat) : ByteArray × Session :=
  match source.bind fun n => (s.streams[n]?).map (n, ·) with
  | none => (.empty, s)
  | some (n, stream) =>
    let all := s.content stream
    match stream with
    | .file place position appending =>
      (all.extract position all.size, s.modifyStream n (.file place all.size appending))
    | .buffer content position =>
      (all.extract position all.size, s.modifyStream n (.buffer content all.size))

/-- The octets of the next line without its end; none if the stream is at its end.  The flag tells
whether the line has an end. -/
def readLine (s : Session) (source : Option Nat) : List UInt8 × Bool × Session :=
  let (bytes, after) := s.readAll source
  let line := bytes.toList.takeWhile (· != 10)
  let ended := decide (line.length < bytes.size)
  let back := bytes.size - (line.length + if ended then 1 else 0)
  match source.bind fun n => (after.streams[n]?).map (n, ·) with
  | none => (line, ended, after)
  | some (n, .file place position appending) =>
    (line, ended, after.modifyStream n (.file place (position - back) appending))
  | some (n, .buffer content position) =>
    (line, ended, after.modifyStream n (.buffer content (position - back)))

/-- Opens one more stream and gives its number. -/
def openStream (s : Session) (stream : Stream) : Nat × Session :=
  (s.streams.length, { s with streams := s.streams ++ [stream] })

def path (s : Session) (operand : String) : Path :=
  if operand.isEmpty then ⟨operand⟩ else s.directory.join operand

def entry? (s : Session) (operand : String) : Option Entry :=
  match s.files.find (s.path operand) with
  | .ok (_, entry) => some entry
  | .error _ => none

def valueOf (s : Session) (name : String) : Option String :=
  Keyed.get? name s.bindings

def assign (s : Session) (name value : String) : Session :=
  { s with bindings := Keyed.insert name value s.bindings }

def setOptions (s : Session) (letters : List Char) (on : Bool) : Session :=
  { s with
    stopsOnFailure := if letters.contains 'e' then on else s.stopsOnFailure
    refusesUnset := if letters.contains 'u' then on else s.refusesUnset }

/-- The session of another shell that this one starts: it has the files and the streams, and of the
variables those that are exported. -/
def forShell (s : Session) (name : String) : Session where
  files := s.files
  directory := s.directory
  streams := s.streams
  descriptors := s.descriptors
  bindings := s.bindings.filter fun e => s.exported.contains e.1
  exported := s.exported
  name := name

end Session

namespace Step

variable {α : Type}

def get : Step Session := fun s =>
  (.ok s, s)

def update (f : Session → Session) : Step Unit := fun s =>
  (.ok (), f s)

def finish (e : Ending) : Step α := fun s =>
  (.error e, s)

def setStatus (n : Nat) : Step Unit :=
  update fun s => { s with status := n }

def printBytes (bytes : List UInt8) : Step Unit :=
  update fun s => s.write s.descriptors.output ⟨bytes.toArray⟩

def print (text : String) : Step Unit :=
  update fun s => s.write s.descriptors.output text.toUTF8

def printError (text : String) : Step Unit :=
  update fun s => s.write s.descriptors.errors (text ++ "\n").toUTF8

/-- A message of the shell itself, which names the script and the line. -/
def complain (text : String) : Step Unit := do
  let s ← get
  let caller := match s.caller with
    | some name => name ++ ": "
    | none => ""
  printError (s.name ++ ": " ++ Number.decimal s.line ++ ": " ++ caller ++ text)

def abort (text : String) : Step α := do
  complain text
  setStatus 2
  finish .exited

def refuse (text : String) (status : Nat) : Step Unit := do
  complain text
  setStatus status

/-- What is done in the name of a command. -/
def inNameOf (caller : Option String) (a : Step α) : Step α := fun s =>
  let (result, t) := a { s with caller }
  (result, { t with caller := s.caller })

/-- What a child process does: only its files, streams and status come back, and only a signal or
the bound on steps goes beyond it. -/
def child (a : Step Unit) : Step Unit := fun s =>
  let (result, t) := a s
  let s := { s with files := t.files, streams := t.streams, status := t.status }
  match result with
  | .error (.killed signal) => (.error (.killed signal), s)
  | .error .spent => (.error .spent, s)
  | _ => (.ok (), s)

/-- A step with descriptors of its own. -/
def withDescriptors (d : Descriptors) (a : Step α) : Step α := fun s =>
  let (result, t) := a { s with descriptors := d }
  (result, { t with descriptors := s.descriptors })

end Step
end Shell
end MappingSweep
