import MappingSweep.Shell.Pattern

/-!
# Commands

What a script consists of, before anything is expanded.  A word is a row of parts, each of which
knows whether it stands in quotes; quoted parts are neither split into fields nor taken as patterns.

The shell and its tools are the outer layer.  They stand for the system in which a simulator is
started from the command line, as far as such simulators ask for it.  Nothing that is proved of the
program rests on them: there the simulator is whatever it is.
-/

namespace MappingSweep
namespace Shell

inductive Parameter where
  | named (name : String)
  | positional (n : Nat)
  /-- All arguments, one field each or joined by blanks. -/
  | arguments (joined : Bool)
  | argumentCount
  | lastStatus
  | processNumber
deriving DecidableEq, Repr

/-- What is made of the value of a parameter.  With `nonempty`, an empty value counts as none. -/
inductive Treatment where
  | plain
  | fallback (nonempty : Bool)
  | trimStart (longest : Bool)
  | trimEnd (longest : Bool)
deriving DecidableEq, Repr

inductive WordPart where
  | text (content : List Char) (quoted : Bool)
  | parameter (p : Parameter) (t : Treatment) (operand : List WordPart) (quoted : Bool)
  /-- The output of a script that starts on the given line. -/
  | output (line : Nat) (script : List Char) (quoted : Bool)
  | arithmetic (operand : List WordPart) (quoted : Bool)

abbrev Word : Type := List WordPart

def WordPart.isOutput : WordPart → Bool
  | output .. => true
  | _ => false

namespace Word

def bareText? : Word → Option String
  | [.text content false] => some (String.ofList content)
  | _ => none

def addChar (c : Char) (quoted : Bool) : Word → Word
  | .text content q :: parts =>
    if q = quoted then .text (c :: content) q :: parts
    else .text [c] quoted :: .text content q :: parts
  | parts => .text [c] quoted :: parts

end Word

inductive RedirectionKind where
  | read
  | write
  | append
  | duplicate
  | close
  /-- The operand itself is what is read. -/
  | here
deriving DecidableEq, Repr

structure Redirection where
  descriptor : Nat
  kind : RedirectionKind
  operand : Word

inductive Command where
  | nothing
  | simple (line : Nat) (assignments : List (String × Word)) (words : List Word)
      (redirections : List Redirection)
  | pipe (left right : Command)
  | negation (c : Command)
  | both (left right : Command)
  | either (left right : Command)
  | sequence (first second : Command)
  | choice (condition body otherwise : Command)
  | loop (whileTrue : Bool) (condition body : Command)
  | each (name : String) (values : Option (List Word)) (body : Command)
  | selection (subject : Word) (branches : List (List Word × Command))
  | definition (name : String) (body : Command)
  | subshell (c : Command)
  | redirected (c : Command) (redirections : List Redirection)

def isNameStart (c : Char) : Bool :=
  c.isAlpha || c = '_'

def isNameChar (c : Char) : Bool :=
  isNameStart c || c.isDigit

def isName : List Char → Bool
  | [] => false
  | c :: rest => isNameStart c && rest.all isNameChar

end Shell
end MappingSweep
