import MappingSweep.Shell.Command

/-!
# Scripts

The text of a script with the line that has been reached, why reading it can fail, and the smallest
steps of reading.  The body of a here document is taken out of the text as soon as its redirection
is met; its lines are counted when the line with the redirection ends.
-/

namespace MappingSweep
namespace Shell

structure Script where
  rest : List Char
  line : Nat := 1
  /-- Lines that were taken out behind the current one. -/
  withheld : Nat := 0

namespace Script

def ofText (text : List Char) (line : Nat) : Script where
  rest := text
  line := line

/-- The script behind its first character. -/
def next (s : Script) : Script :=
  match s.rest with
  | [] => s
  | '\n' :: rest => ⟨rest, s.line + 1 + s.withheld, 0⟩
  | _ :: rest => { s with rest }

def advance : Nat → Script → Script
  | 0, s => s
  | n + 1, s => advance n s.next

end Script

inductive SyntaxFault where
  | unexpected (token : String) (expected : Option String)
  | unterminatedQuote
  | unterminatedBackquote
  | missing (closing : String)
  | badLoopVariable
  | badSubstitution
deriving DecidableEq, Repr

def SyntaxFault.message : SyntaxFault → String
  | unexpected token none => "Syntax error: " ++ token ++ " unexpected"
  | unexpected token (some e) =>
    "Syntax error: " ++ token ++ " unexpected (expecting \"" ++ e ++ "\")"
  | unterminatedQuote => "Syntax error: Unterminated quoted string"
  | unterminatedBackquote => "Syntax error: EOF in backquote substitution"
  | missing closing => "Syntax error: Missing '" ++ closing ++ "'"
  | badLoopVariable => "Syntax error: Bad for loop variable"
  | badSubstitution => "Bad substitution"

structure ScriptFault where
  line : Nat
  fault : SyntaxFault
deriving DecidableEq, Repr

abbrev ScriptReading (α : Type) : Type :=
  StateT Script (Except ScriptFault) α

namespace ScriptReading

variable {α : Type}

def fail (f : SyntaxFault) : ScriptReading α := fun s =>
  .error ⟨s.line, f⟩

def remaining : ScriptReading (List Char) := fun s =>
  .ok (s.rest, s)

def advance (n : Nat) : ScriptReading Unit := fun s =>
  .ok ((), s.advance n)

def span (p : Char → Bool) : ScriptReading (List Char) := fun s =>
  let cs := s.rest.takeWhile p
  .ok (cs, s.advance cs.length)

def accept (text : List Char) : ScriptReading Bool := fun s =>
  if text.isPrefixOf s.rest then .ok (true, s.advance text.length) else .ok (false, s)

/-- The number of characters that separate words: blanks, joined lines and a comment. -/
def gap : List Char → Nat
  | ' ' :: rest => gap rest + 1
  | '\t' :: rest => gap rest + 1
  | '\\' :: '\n' :: rest => gap rest + 2
  | '#' :: rest => (rest.takeWhile (· != '\n')).length + 1
  | _ => 0

def skipGap : ScriptReading Unit := fun s =>
  .ok ((), s.advance (gap s.rest))

/-- Skips gaps and line ends. -/
def skipLines : Nat → ScriptReading Unit
  | 0 => pure ()
  | fuel + 1 => do
    skipGap
    if ← accept ['\n'] then skipLines fuel

end ScriptReading

def isMeta (c : Char) : Bool :=
  c ∈ [' ', '\t', '\n', ';', '&', '|', '<', '>', '(', ')']

def isQuoting (c : Char) : Bool :=
  c ∈ ['\\', '\'', '"', '$', '\x60']

def reservedWords : List String :=
  ["if", "then", "elif", "else", "fi", "while", "until", "for", "do", "done", "case", "esac",
    "\x7b", "\x7d", "!"]

def reserved? (cs : List Char) : Option String :=
  let word := cs.takeWhile fun c => !isMeta c
  if word.any isQuoting then none else reservedWords.find? (·.toList == word)

def operators : List String :=
  [";;", "&&", "||", ";", "&", "|", "(", ")"]

/-- What stands in front of these characters, as messages name it. -/
def tokenName (cs : List Char) : String :=
  match cs with
  | [] => "end of file"
  | '\n' :: _ => "newline"
  | '<' :: _ => "redirection"
  | '>' :: _ => "redirection"
  | _ =>
    match operators.find? fun o => o.toList.isPrefixOf cs with
    | some o => "\"" ++ o ++ "\""
    | none =>
      match reserved? cs with
      | some w => "\"" ++ w ++ "\""
      | none => "word"

namespace ScriptReading

variable {α : Type}

def unexpected (expected : Option String) : ScriptReading α := do
  fail (.unexpected (tokenName (← remaining)) expected)

def expectReserved (word : String) : ScriptReading Unit := do
  if reserved? (← remaining) = some word then advance word.length else unexpected (some word)

def expectOperator (text : String) : ScriptReading Unit := do
  unless ← accept text.toList do unexpected (some text)

end ScriptReading
end Shell
end MappingSweep
