import MappingSweep.Shell.Arithmetic
import MappingSweep.Shell.Builtin
import MappingSweep.Shell.Executable
import MappingSweep.Shell.Script.Reader

/-!
# Running scripts

Words are expanded and commands are run in the order in which they stand.  Every step is taken
within a bound, which a script of ordinary length never reaches.  As part of the outer layer, the
shell has what the scripts need that stand for simulators, and no more: no jobs, no traps.
-/

namespace MappingSweep
namespace Shell

namespace Step

/-- Why a file cannot be opened, in the shell's words. -/
def openFault (missing : String) : OsError → String
  | .notFound => missing
  | .notADirectory => missing
  | e => e.reason

def setDescriptor (n : Nat) (target : Option Nat) : Step Unit :=
  update fun s =>
    let d := s.descriptors
    { s with descriptors := match n with
      | 0 => { d with input := target }
      | 1 => { d with output := target }
      | 2 => { d with errors := target }
      | _ => d }

def descriptor (s : Session) : Nat → Option Nat
  | 0 => s.descriptors.input
  | 1 => s.descriptors.output
  | _ => s.descriptors.errors

def openForReading (n : Nat) (target : String) : Step Bool := do
  let s ← get
  match s.files.find (s.path target) with
  | .ok (place, _) =>
    let (number, s) := s.openStream (.file place 0 false)
    update fun _ => s
    setDescriptor n (some number)
    return true
  | .error e =>
    complain ("cannot open " ++ target ++ ": " ++ openFault "No such file" e)
    return false

def openForWriting (n : Nat) (target : String) (appending : Bool) : Step Bool := do
  let s ← get
  let opened := do
    let files ← if appending then s.files.appendBytes (s.path target) .empty
      else s.files.writeBytes (s.path target) .empty
    return (files, ← files.locate (s.path target))
  match opened with
  | .ok (files, place) =>
    let (number, s) := { s with files }.openStream (.file place 0 appending)
    update fun _ => s
    setDescriptor n (some number)
    return true
  | .error e =>
    complain ("cannot create " ++ target ++ ": " ++ openFault "Directory nonexistent" e)
    return false

/-- Applies a redirection to an expanded operand; false if it fails. -/
def redirect (r : Redirection) (target : String) : Step Bool := do
  match r.kind with
  | .close =>
    setDescriptor r.descriptor none
    return true
  | .duplicate =>
    match Number.readNat 10 target.toList with
    | some n =>
      if 2 < n then
        complain (target ++ ": Bad file descriptor")
        return false
      setDescriptor r.descriptor (descriptor (← get) n)
      return true
    | none => abort "Syntax error: Bad fd number"
  | .here =>
    let (number, s) := (← get).openStream (.buffer target.toUTF8 0)
    update fun _ => s
    setDescriptor r.descriptor (some number)
    return true
  | kind =>
    if target = Tool.nullDevice then
      setDescriptor r.descriptor none
      return true
    else if target = "/dev/stdout" ∨ target = "/dev/stderr" then
      setDescriptor r.descriptor (descriptor (← get) (if target = "/dev/stdout" then 1 else 2))
      return true
    else if kind = .read then openForReading r.descriptor target
    else openForWriting r.descriptor target (kind == .append)

def parameterValue (s : Session) : Parameter → Option String
  | .named name => s.valueOf name
  | .positional 0 => some s.name
  | .positional (n + 1) => s.arguments[n]?
  | .arguments _ => if s.arguments.isEmpty then none else some (s.joint.intercalate s.arguments)
  | .argumentCount => some (Number.decimal s.arguments.length)
  | .lastStatus => some (Number.decimal s.status)
  | .processNumber => some processNumber

def valuePiece (quoted : Bool) (text : String) : Piece :=
  if quoted then .kept text.toList else .expanded text.toList

/-- All arguments; in quotes each one stays whole. -/
def argumentPieces (s : Session) (quoted joined : Bool) : List Piece :=
  if quoted && joined then [.kept (s.joint.intercalate s.arguments).toList]
  else (s.arguments.map (valuePiece quoted)).intersperse .boundary

def parameterPieces (s : Session) (p : Parameter) (quoted : Bool) : List Piece :=
  match p with
  | .arguments joined => argumentPieces s quoted joined
  | p => [valuePiece quoted ((parameterValue s p).getD "")]

/-- The name of a parameter that can be missing: any but those that the shell itself keeps. -/
def missingName? : Parameter → Option String
  | .named name => some name
  | .positional n => some (Number.decimal n)
  | _ => none

/-- Whether a value is there, where an empty one may count as none. -/
def isPresent (nonempty : Bool) : Option String → Bool
  | none => false
  | some v => !(nonempty && v.isEmpty)

def executable (s : Session) (name : String) : Except OsError Executable :=
  Executable.find (fun path => (s.files.find (s.path path)).map (·.2)) name

/-- One turn of a loop; false if the loop is to end. -/
def turn (body : Step Unit) : Step Bool := fun s =>
  let (result, t) := body { s with loops := s.loops + 1 }
  let t := { t with loops := s.loops }
  match result with
  | .ok () => (.ok true, t)
  | .error (.continued n) => (if n ≤ 1 then .ok true else .error (.continued (n - 1)), t)
  | .error (.broke n) => (if n ≤ 1 then .ok false else .error (.broke (n - 1)), t)
  | .error e => (.error e, t)

/-- The body of a function, which may return. -/
def returning (body : Step Unit) : Step Unit := fun s =>
  match body s with
  | (.error .returned, s) => (.ok (), s)
  | other => other

/-- Ends the script after a failure if it asks for that and the failure is not being tested. -/
def checkFailure (tested : Bool) : Step Unit := do
  let s ← get
  if s.stopsOnFailure && !tested && s.status != 0 then finish .exited

def capture (a : Step Unit) : Step (List Char) := fun s =>
  let (number, opened) := s.openStream (.buffer .empty 0)
  let captured := child (withDescriptors { s.descriptors with output := some number } a)
  match captured opened with
  | (.error e, t) => (.error e, t)
  | (.ok (), t) =>
    let bytes := match t.streams[number]? with
      | some (.buffer content _) => content.toList
      | _ => []
    let kept := (bytes.reverse.dropWhile (· == 10)).reverse.filter (· != 0)
    (.ok ((String.fromUTF8? ⟨kept.toArray⟩).getD "").toList, t)

/-- Two commands at once, the output of one being the input of the other. -/
def connected (left right : Step Unit) : Step Unit := fun s =>
  let (number, opened) := s.openStream (.buffer .empty 0)
  (do
    child (withDescriptors { s.descriptors with output := some number } left)
    child (withDescriptors { s.descriptors with input := some number } right) : Step Unit) opened

/-- The characters of a script, or its octets as such if it is no text. -/
def scriptText (bytes : ByteArray) : List Char :=
  match String.fromUTF8? bytes with
  | some text => text.toList
  | none => bytes.toList.map fun b => Char.ofNat b.toNat

structure Invocation where
  options : List Char := []
  /-- Whether the first operand is the script itself. -/
  inline : Bool := false
  operands : List String := []

def shellOptions : List Char :=
  "aefnuvxbCm".toList

/-- The options of a shell and its operands, or the letter that is no option. -/
def invocation : List String → Except Char Invocation
  | [] => .ok {}
  | "--" :: rest => .ok { operands := rest }
  | word :: rest =>
    match word.toList with
    | '-' :: c :: letters => do
      match (c :: letters).find? fun c => !(c == 'c' || shellOptions.contains c) with
      | some bad => throw bad
      | none =>
        let i ← invocation rest
        let all := c :: letters
        return { i with options := all ++ i.options, inline := i.inline || all.contains 'c' }
    | _ => .ok { operands := word :: rest }

def restored (names : List String) (outer inner : Keyed String) : Keyed String :=
  names.foldl (fun vs name =>
    match Keyed.get? name outer with
    | some v => Keyed.insert name v vs
    | none => vs.filter (·.1 ≠ name)) inner

def signalText : Nat → String
  | 1 => "Hangup"
  | 3 => "Quit"
  | 6 => "Aborted"
  | 9 => "Killed"
  | 10 => "User defined signal 1"
  | 11 => "Segmentation fault"
  | 12 => "User defined signal 2"
  | 14 => "Alarm clock"
  | 15 => "Terminated"
  | _ => ""

/-- What another process does; a signal that ends it is a status here. -/
def inProcess (a : Step Unit) : Step Unit := fun s =>
  match child a s with
  | (.error (.killed signal), t) => (do
    unless (signalText signal).isEmpty do printError (signalText signal)
    setStatus (128 + signal) : Step Unit) t
  | other => other

/-! ## Expansion and execution -/

mutual

/-- The pieces of an expanded word. -/
def expand : Nat → Word → Step (List Piece)
  | 0, _ => finish .spent
  | _, [] => pure []
  | fuel + 1, part :: rest => do
    let pieces ← expandPart fuel part
    return pieces ++ (← expand fuel rest)

def expandPart : Nat → WordPart → Step (List Piece)
  | 0, _ => finish .spent
  | _, .text content quoted => pure [if quoted then .kept content else .written content]
  | fuel + 1, .parameter p t operand quoted => treat fuel p t operand quoted
  | fuel + 1, .output line script quoted => do
    let text ← capture (runScript fuel false (.ofText script line))
    return [valuePiece quoted (String.ofList text)]
  | fuel + 1, .arithmetic operand quoted => do
    let text := (Piece.text (← expand fuel operand))
    let s ← get
    match (do (← Expression.ofText text.toList).value s.bindings) with
    | .ok n => return [valuePiece quoted (Number.decimalInt n)]
    | .error f => abort (f.message text)

def treat : Nat → Parameter → Treatment → Word → Bool → Step (List Piece)
  | 0, _, _, _, _ => finish .spent
  | fuel + 1, p, t, operand, quoted => do
    let s ← get
    let value := parameterValue s p
    let whole := parameterPieces s p quoted
    match t with
    | .plain =>
      if s.refusesUnset && value.isNone then
        if let some name := missingName? p then abort (name ++ ": parameter not set")
      return whole
    | .fallback nonempty =>
      if isPresent nonempty value then return whole else expand fuel operand
    | .trimStart longest =>
      let pattern := Piece.pattern (← expand fuel operand)
      let cs := pattern.trimStart longest (value.getD "").toList
      return [valuePiece quoted (String.ofList cs)]
    | .trimEnd longest =>
      let pattern := Piece.pattern (← expand fuel operand)
      let cs := pattern.trimEnd longest (value.getD "").toList
      return [valuePiece quoted (String.ofList cs)]

def expandFields : Nat → List Word → Step (List String)
  | 0, _ => finish .spent
  | _, [] => pure []
  | fuel + 1, w :: rest => do
    let pieces ← expand fuel w
    let separators := (← get).separators
    return Piece.fields separators pieces ++ (← expandFields fuel rest)

def assignAll : Nat → List (String × Word) → Step Unit
  | 0, _ => finish .spent
  | _, [] => pure ()
  | fuel + 1, (name, w) :: rest => do
    assign name (Piece.text (← expand fuel w))
    assignAll fuel rest

/-- Applies redirections up to the first that fails. -/
def redirectAll : Nat → List Redirection → Step Bool
  | 0, _ => finish .spent
  | _, [] => pure true
  | fuel + 1, r :: rest => do
    let target := Piece.text (← expand fuel r.operand)
    if ← redirect r target then redirectAll fuel rest else return false

/-- Runs a command; a failure that is tested does not end the script. -/
def command : Nat → Bool → Command → Step Unit
  | 0, _, _ => finish .spent
  | fuel + 1, tested, c => do
    match c with
    | .nothing => setStatus 0
    | .simple line assignments words redirections =>
      update fun s => { s with line }
      simple fuel tested assignments words redirections
      checkFailure tested
    | .pipe left right =>
      connected (command fuel tested left) (command fuel tested right)
      checkFailure tested
    | .negation c =>
      command fuel true c
      update fun s => { s with status := if s.status = 0 then 1 else 0 }
    | .both left right =>
      command fuel true left
      if (← get).status = 0 then command fuel tested right
    | .either left right =>
      command fuel true left
      if (← get).status ≠ 0 then command fuel tested right
    | .sequence first second =>
      command fuel tested first
      command fuel tested second
    | .choice condition body otherwise =>
      command fuel true condition
      if (← get).status = 0 then command fuel tested body else command fuel tested otherwise
    | .loop whileTrue condition body => loop fuel tested whileTrue condition body 0
    | .each name listed body =>
      let s ← get
      let values ← match listed with
        | some ws => expandFields fuel ws
        | none => pure s.arguments
      setStatus 0
      each fuel tested name body values
    | .selection subject branches =>
      let text := Piece.text (← expand fuel subject)
      setStatus 0
      select fuel tested text.toList branches
    | .definition name body =>
      update fun s => { s with functions := (name, body) :: s.functions, status := 0 }
    | .subshell c =>
      child (command fuel tested c)
      checkFailure tested
    | .redirected c redirections =>
      let before := (← get).descriptors
      if ← redirectAll fuel redirections then
        fun s =>
          let (result, t) := command fuel tested c s
          (result, { t with descriptors := before })
      else
        update fun s => { s with descriptors := before, status := 2 }

def loop : Nat → Bool → Bool → Command → Command → Nat → Step Unit
  | 0, _, _, _, _, _ => finish .spent
  | fuel + 1, tested, whileTrue, condition, body, last => do
    let goOn ← turn (command fuel true condition)
    let holds := ((← get).status == 0) == whileTrue
    if goOn && holds then
      if ← turn (command fuel tested body) then
        loop fuel tested whileTrue condition body (← get).status
    else if goOn then setStatus last

def each : Nat → Bool → String → Command → List String → Step Unit
  | 0, _, _, _, _ => finish .spent
  | _, _, _, _, [] => pure ()
  | fuel + 1, tested, name, body, value :: rest => do
    update fun s => s.assign name value
    if ← turn (command fuel tested body) then each fuel tested name body rest

def select : Nat → Bool → List Char → List (List Word × Command) → Step Unit
  | 0, _, _, _ => finish .spent
  | _, _, _, [] => pure ()
  | fuel + 1, tested, text, (patterns, body) :: rest => do
    if ← matchesAny fuel text patterns then command fuel tested body
    else select fuel tested text rest

def matchesAny : Nat → List Char → List Word → Step Bool
  | 0, _, _ => finish .spent
  | _, _, [] => pure false
  | fuel + 1, text, w :: rest => do
    let pattern := Piece.pattern (← expand fuel w)
    if pattern.accepts text then return true else matchesAny fuel text rest

/-- A simple command.  Its words come first, then its redirections, then its assignments, which
outlive it only if it has no words or is special. -/
def simple : Nat → Bool → List (String × Word) → List Word → List Redirection → Step Unit
  | 0, _, _, _, _ => finish .spent
  | fuel + 1, tested, assignments, words, redirections => do
    let fields ← expandFields fuel words
    let before := (← get).descriptors
    let special := match fields with
      | name :: _ => (Builtin.ofName? name).any Builtin.isSpecial
      | [] => false
    if ← redirectAll fuel redirections then
      match fields with
      | [] =>
        assignAll fuel assignments
        let substituted := (assignments.map (·.2) ++ words).any (·.any WordPart.isOutput)
        update fun s => { s with
          descriptors := before, status := if substituted then s.status else 0 }
      | ["exec"] =>
        setStatus 0
      | name :: operands =>
        let outer := (← get).bindings
        assignAll fuel assignments
        let names := assignments.map (·.1)
        fun s =>
          let exported := s.exported
          let (result, t) := invoke fuel tested name operands
            { s with exported := exported ++ names }
          let bindings := if special then t.bindings else restored names outer t.bindings
          let exported := if special then t.exported else exported
          (result, { t with descriptors := before, bindings, exported })
    else
      update fun s => { s with descriptors := before, status := 2 }
      if special then finish .exited

/-- Runs what a name stands for: a command of the shell, a function, a tool or a program. -/
def invoke : Nat → Bool → String → List String → Step Unit
  | 0, _, _, _ => finish .spent
  | fuel + 1, tested, name, operands => do
    let s ← get
    match Builtin.ofName? name, s.functions.lookup name, Tool.ofName? name with
    | some .exec, _, _ =>
      inNameOf (some name) (execute fuel (operands.headD "") (operands.drop 1))
      finish .exited
    | some b, _, _ => inNameOf (some name) (b.run operands)
    | none, some body, _ => fun s =>
      let (result, t) := returning (command fuel tested body)
        { s with arguments := operands, loops := 0 }
      (result, { t with arguments := s.arguments, loops := s.loops })
    | none, none, some t => t.run true operands
    | none, none, none => execute fuel name operands

/-- Runs a program or an executable file as a process of its own.  A file that does not name its
interpreter is a script. -/
def execute : Nat → String → List String → Step Unit
  | 0, _, _ => finish .spent
  | fuel + 1, name, operands => do
    match executable (← get) name with
    | .ok e => inProcess (program fuel e operands)
    | .error .execFormat => inProcess (program fuel ⟨.shell "sh", []⟩ (name :: operands))
    | .error e =>
      refuse (name ++ ": " ++ openFault "not found" e)
        (if e = .notFound ∨ e = .notADirectory then 127 else 126)

def program : Nat → Executable → List String → Step Unit
  | 0, _, _ => finish .spent
  | _, ⟨.tool t, front⟩, operands => t.run false (front ++ operands)
  | fuel + 1, ⟨.shell name, front⟩, operands => do
    update fun s => s.forShell name
    match invocation (front ++ operands) with
    | .error c => abort ("Illegal option -" ++ String.ofList [c])
    | .ok i =>
      update fun s => s.setOptions i.options true
      match i.inline, i.operands with
      | true, [] => abort "-c requires an argument"
      | true, text :: rest =>
        update fun s => { s with name := rest.headD name, arguments := rest.drop 1 }
        runScript fuel false (.ofText text.toList 1)
      | false, [] =>
        let (bytes, s) := (← get).readAll (← get).descriptors.input
        update fun _ => s
        runScript fuel false (.ofText (scriptText bytes) 1)
      | false, file :: rest =>
        let s ← get
        match s.files.find (s.path file) with
        | .error e => abort ("cannot open " ++ file ++ ": " ++ openFault "No such file" e)
        | .ok (_, .directory) => pure ()
        | .ok (_, .file bytes _) =>
          update fun s => { s with name := file, arguments := rest }
          runScript fuel false (.ofText (scriptText bytes) 1)

def runScript : Nat → Bool → Script → Step Unit
  | 0, _, _ => finish .spent
  | fuel + 1, tested, script => do
    match script.nextCommand with
    | .error f =>
      update fun s => { s with line := f.line }
      abort f.fault.message
    | .ok (none, _) => pure ()
    | .ok (some c, rest) =>
      command fuel tested c
      runScript fuel tested rest

end

end Step
end Shell
end MappingSweep
