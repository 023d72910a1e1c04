import MappingSweep.Settings.Value
import MappingSweep.Text.Blank
import MappingSweep.Text.Reading

/-!
# Reading INI

Keys with values, the first of them under no heading and all others under the latest one.  Every
value is text.  A heading makes a table, in place of an earlier table of its name.  Comments take up
whole lines from their first column on.  A backslash gives the character behind it another meaning,
and a value that begins with a quote extends over line ends up to the next such quote.
-/

namespace MappingSweep
namespace Ini

open Text (Reading)
open Text.Reading

def numbered : Reading Char := do
  let cs ← remaining
  let n ← ofOption (Number.readNat 16 (cs.take 4))
  if (cs.take 4).length < 4 then fail
  set (cs.drop 4)
  if n.isValidChar then return Char.ofNat n else fail

def escaped : Reading (List Char) := do
  match ← next with
  | '0' => return ['\x00']
  | 'a' => return ['\x07']
  | 'b' => return ['\x08']
  | 't' => return ['\t']
  | 'r' => return ['\r']
  | 'n' => return ['\n']
  | '\n' => return []
  | 'x' => return [← numbered]
  | c => return [c]

/-- The text in front of one of some characters, or up to the end where that is allowed. -/
def textBefore (stops : List Char) (endAllowed : Bool) : Nat → Reading (List Char)
  | 0 => fail
  | fuel + 1 => do
    match ← peek with
    | none => if endAllowed then return [] else fail
    | some c =>
      if c ∈ stops then return []
      let _ ← next
      let here ← if c = '\\' then escaped else pure [c]
      return here ++ (← textBefore stops endAllowed fuel)

def restOfLine (fuel : Nat) : Reading (List Char) :=
  textBefore ['\n', '\r'] true fuel

def trimmed (cs : List Char) : String :=
  String.ofList (Text.trimChars cs)

def value (fuel : Nat) : Reading String := do
  skipWhile fun c => Text.isBlank c && c != '\n' && c != '\r'
  match ← peek with
  | some quote =>
    if quote = '"' ∨ quote = '\'' then
      expect quote
      let inside ← textBefore [quote] false fuel
      expect quote
      return trimmed (inside ++ (← restOfLine fuel))
    else return trimmed (← restOfLine fuel)
  | none => return ""

/-- What has been read, with the heading and the key that the next value belongs to. -/
structure Document where
  table : List (String × Setting) := []
  heading : Option String := none
  key : String := ""

namespace Document

def setHeading (d : Document) (name : String) : Document :=
  { d with table := Setting.setEntry name (.table []) d.table, heading := some name }

def setValue (d : Document) (v : String) : Document :=
  let table := match d.heading with
    | none => Setting.setEntry d.key (.text v) d.table
    | some name =>
      match d.table.lookup name with
      | some (.table entries) =>
        Setting.setEntry name (.table (Setting.setEntry d.key (.text v) entries)) d.table
      | _ => d.table
  { d with table, key := "" }

/-- Reads on behind what has been read; `fresh` tells whether a line begins here. -/
def readOn (d : Document) (fresh : Bool) : Nat → Reading Document
  | 0 => fail
  | fuel + 1 => do
    let blank ← span Text.isBlank
    let fresh := match blank.getLast? with
      | some c => c == '\n'
      | none => fresh
    match ← peek with
    | none => return d
    | some c =>
      if c = ';' ∨ c = '#' then
        unless fresh do fail
        skipWhile (· != '\n')
        let _ ← accept '\n'
        readOn d true fuel
      else if c = '[' then
        expect '['
        let name ← textBefore [']'] false fuel
        expect ']'
        readOn (d.setHeading (trimmed name)) false fuel
      else if c = '=' ∨ c = ':' then
        if d.key = "" then fail
        expect c
        readOn (d.setValue (← value fuel)) false fuel
      else
        readOn { d with key := trimmed (← textBefore ['=', ':'] false fuel) } false fuel

end Document

def read? (text : String) : Option (List (String × Setting)) := do
  let cs := text.toList
  let d ← (Document.readOn {} true (cs.length + 2)).whole cs
  return d.table

end Ini
end MappingSweep
