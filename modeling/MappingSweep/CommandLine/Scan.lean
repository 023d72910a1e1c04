import MappingSweep.CommandLine.Argument

/-!
# Reading a command line

Arguments are taken from left to right.  The first one that is neither a flag nor the value of one
is a settings file, and so is everything behind it, as is everything behind a double dash.  Asking
for help or the version ends the reading at once.  A line must not end in an option that waits for
its value.  All other checks are made once the line is read: the flags in the order in which they
first came, each for a missing value, an unknown shell, and for being given twice.
-/

namespace MappingSweep

/-- What was given, in order; an option may lack its value. -/
inductive Given where
  | switch (s : Switch)
  | value (o : ValueOption) (text : Option String)
deriving DecidableEq, Repr

namespace Given

def flag : Given → Flag
  | switch s => .switch s
  | value o _ => .valued o

def text? : Given → Option String
  | switch _ => none
  | value _ text => text

end Given

inductive ArgumentShape where
  | doubleDash
  | long (name : String) (value : Option String)
  | shorts (letters : List Char)
  | plain

namespace ArgumentShape

/-- A long flag is cut at its first equals sign; a single dash is no flag. -/
def ofText (text : String) : ArgumentShape :=
  match text.toList with
  | ['-', '-'] => doubleDash
  | '-' :: '-' :: rest =>
    let value := match rest.dropWhile (· != '=') with
      | _ :: v => some (String.ofList v)
      | [] => none
    long (String.ofList (rest.takeWhile (· != '='))) value
  | '-' :: c :: rest => shorts (c :: rest)
  | _ => plain

end ArgumentShape

structure ArgumentScan where
  /-- An option that waits for its value. -/
  pending : Option ValueOption := none
  given : List Given := []
  files : List String := []

namespace ArgumentScan

def add (s : ArgumentScan) (g : Given) : ArgumentScan :=
  { s with pending := none, given := s.given ++ [g] }

/-- An option that still waits gets no value. -/
def settle (s : ArgumentScan) : ArgumentScan :=
  match s.pending with
  | some o => s.add (.value o none)
  | none => s

def addSwitch (s : ArgumentScan) : Switch → Except ArgumentFault ArgumentScan
  | .help => .error .displayHelp
  | .version => .error .displayVersion
  | w => .ok (s.settle.add (.switch w))

def addOption (s : ArgumentScan) (o : ValueOption) : Option String → ArgumentScan
  | some v => s.settle.add (.value o (some v))
  | none => { s.settle with pending := some o }

def addLong (s : ArgumentScan) (name : String) (value : Option String) :
    Except ArgumentFault ArgumentScan :=
  match Flag.longNames.lookup name, value with
  | none, _ => .error (.unknownArgument ("--" ++ name))
  | some (.valued o), v => .ok (s.addOption o v)
  | some (.switch w), some _ => .error (.tooManyValues w)
  | some (.switch w), none => s.addSwitch w

/-- The value written right behind the letter of an option. -/
def attached : List Char → Option String
  | [] => none
  | '=' :: rest => some (String.ofList rest)
  | rest => some (String.ofList rest)

/-- Letters of switches, or an option that takes the rest of the letters as its value. -/
def addShorts (s : ArgumentScan) : List Char → Except ArgumentFault ArgumentScan
  | [] => .ok s
  | c :: rest =>
    match Flag.shortNames.lookup c with
    | none => .error (.unknownArgument (String.ofList ['-', c]))
    | some (.switch w) => do (← s.addSwitch w).addShorts rest
    | some (.valued o) => .ok (s.addOption o (attached rest))

def finish (s : ArgumentScan) : List String → Except ArgumentFault ArgumentScan
  | [] =>
    match s.pending with
    | some o => .error (.emptyValue o)
    | none => .ok s
  | files => .ok { s.settle with files }

def read (s : ArgumentScan) : List String → Except ArgumentFault ArgumentScan
  | [] => s.finish []
  | text :: rest =>
    match ArgumentShape.ofText text with
    | .doubleDash => s.finish rest
    | .long name value => do (← s.addLong name value).read rest
    | .shorts letters => do (← s.addShorts letters).read rest
    | .plain =>
      match s.pending with
      | some o => (s.add (.value o (some text))).read rest
      | none => s.finish (text :: rest)

end ArgumentScan

namespace Arguments

/-- What is wrong with the flag `f`, given all that was given. -/
def flagFault? (given : List Given) (f : Flag) : Option ArgumentFault :=
  let here := given.filter (·.flag = f)
  let texts := here.filterMap (·.text?)
  let repeated := if here.length > 1 then some (.repeated f) else none
  match f with
  | .switch _ => repeated
  | .valued o =>
    if texts.isEmpty then some (.emptyValue o)
    else if o = .generate then
      match texts.find? fun text => (CompletionShell.ofName? text).isNone with
      | some text => some (.invalidShell text)
      | none => repeated
    else repeated

def set (a : Arguments) : Given → Arguments
  | .switch .autoClean => { a with autoClean := true }
  | .switch .verbose => { a with verbose := true }
  | .switch .noPlot => { a with noPlot := true }
  | .switch _ => a
  | .value .generate text => { a with generator := text.bind CompletionShell.ofName? }
  | .value .config text => { a with config := text }
  | .value .outputDir text => { a with outputDir := text }

def parse (line : List String) : Except ArgumentFault Arguments := do
  let scan ← ({} : ArgumentScan).read line
  match (scan.given.map (·.flag)).findSome? (flagFault? scan.given) with
  | some f => throw f
  | none => return scan.given.foldl set { settingsFiles := scan.files }

end Arguments
end MappingSweep
