import MappingSweep.Settings.Value
import MappingSweep.Text.Blank
import MappingSweep.Text.Comment

/-!
# Reading RON

Maps in braces, lists in brackets, and records and tuples in parentheses, with or without a name in
front of them.  A record is a table, and a tuple is a list; a name alone is null, as is `None`, and
`Some` is left out.
-/

namespace MappingSweep
namespace Ron

open Text (Reading)
open Text.Reading

def isSpace (c : Char) : Bool :=
  c == ' ' || c == '\t' || c == '\n' || c == '\r'

def gaps : Text.Gaps where
  isSpace := isSpace
  endsLine := (· == '\n')
  nests := true

def isNameStart (c : Char) : Bool :=
  c.isAlpha || c == '_'

def isNameChar (c : Char) : Bool :=
  c.isAlphanum || c == '_'

def hexChar (cs : List Char) : Reading Char := do
  let n ← ofOption (Number.readNat 16 cs)
  if n.isValidChar then return Char.ofNat n else fail

def escaped : Reading Char := do
  match ← next with
  | '\'' => return '\''
  | '"' => return '"'
  | '\\' => return '\\'
  | 'n' => return '\n'
  | 'r' => return '\r'
  | 't' => return '\t'
  | 'x' => hexChar [← next, ← next]
  | 'u' => do
    expect '\x7b'
    let digits ← span (· != '\x7d')
    expect '\x7d'
    if digits.length ≤ 6 then hexChar digits else fail
  | _ => fail

def stringRest : Nat → Reading (List Char)
  | 0 => fail
  | fuel + 1 => do
    match ← next with
    | '"' => return []
    | '\\' => do return (← escaped) :: (← stringRest fuel)
    | c => return c :: (← stringRest fuel)

/-- The characters of a string in which a backslash is one of them, up to its closing marks. -/
def rawRest (closing : List Char) : Nat → Reading (List Char)
  | 0 => fail
  | fuel + 1 => do
    if ← acceptAll closing then return []
    return (← next) :: (← rawRest closing fuel)

/-- Whether the letter `r` begins a string here. -/
def startsRaw : List Char → Bool
  | 'r' :: rest => (rest.dropWhile (· == '#')).head? == some '"'
  | _ => false

def string (fuel : Nat) : Reading String := do
  if ← accept 'r' then
    let hashes ← span (· == '#')
    expect '"'
    return String.ofList (← rawRest ('"' :: hashes) fuel)
  else
    expect '"'
    return String.ofList (← stringRest fuel)

def character : Reading String := do
  expect '\''
  let c ← next
  let c ← if c = '\\' then escaped else pure c
  expect '\''
  return String.singleton c

def isNumberChar (c : Char) : Bool :=
  c.isAlphanum || c == '_' || c == '.' || c == '+' || c == '-'

def unsigned? (cs : List Char) : Option Nat :=
  match cs.filter (· != '_') with
  | '0' :: 'x' :: rest => Number.readNat 16 rest
  | '0' :: 'o' :: rest => Number.readNat 8 rest
  | '0' :: 'b' :: rest => Number.readNat 2 rest
  | cs => Number.readNat 10 cs

def integer? : List Char → Option Int
  | '-' :: rest => (unsigned? rest).map fun n => -(n : Int)
  | '+' :: rest => (unsigned? rest).map fun n => (n : Int)
  | cs => (unsigned? cs).map fun n => (n : Int)

/-- An integer that fits into 64 bits with a sign, or a float. -/
def number : Reading Setting := do
  let cs ← span isNumberChar
  match integer? cs with
  | some n =>
    if -(Number.signedBound : Int) ≤ n ∧ n < Number.signedBound then return .int n
    else .float <$> ofOption (Number.readBinary64 cs)
  | none => .float <$> ofOption (Number.readBinary64 cs)

/-- The name of a field, if one comes next with its colon; otherwise nothing is taken. -/
def field? (fuel : Nat) : Reading (Option String) := do
  let before ← remaining
  let name ← span isNameChar
  gaps.skip fuel
  let hasColon ← accept ':'
  if hasColon && name.head?.any isNameStart then return some (String.ofList name)
  else
    set before
    return none

mutual

def value : Nat → Reading Setting
  | 0 => fail
  | fuel + 1 => do
    gaps.skip fuel
    let cs ← remaining
    match cs with
    | [] => fail
    | c :: _ =>
      if c = '"' ∨ startsRaw cs then return .text (← string fuel)
      else if isNameStart c then named fuel (String.ofList (← span isNameChar))
      else if ← acceptAll ['(', ')'] then return .null
      else if ← accept '(' then parts fuel
      else if ← accept '[' then return .list (← items ']' fuel)
      else if ← accept '\x7b' then return .table (← entries fuel [])
      else if c = '\'' then return .text (← character)
      else number

def named : Nat → String → Reading Setting
  | 0, _ => fail
  | _ + 1, "true" => return .bool true
  | _ + 1, "false" => return .bool false
  | _ + 1, "None" => return .null
  | _ + 1, "inf" => return .float Number.Binary64.infinity
  | _ + 1, "NaN" => return .float Number.Binary64.notANumber
  | fuel + 1, "Some" => do
    gaps.skip fuel
    expect '('
    let v ← value fuel
    gaps.skip fuel
    expect ')'
    return v
  | fuel + 1, _ => do
    gaps.skip fuel
    if ← accept '(' then parts fuel else return .null

/-- What stands in parentheses: the fields of a record, or the items of a tuple. -/
def parts : Nat → Reading Setting
  | 0 => fail
  | fuel + 1 => do
    gaps.skip fuel
    match ← field? fuel with
    | some name => return .table (← fields fuel name [])
    | none => return .list (← items ')' fuel)

/-- The value of a field whose name has been read, and all fields behind it. -/
def fields : Nat → String → List (String × Setting) → Reading (List (String × Setting))
  | 0, _, _ => fail
  | fuel + 1, name, acc => do
    let acc := Setting.setEntry name (← value fuel) acc
    gaps.skip fuel
    let more ← accept ','
    gaps.skip fuel
    if ← accept ')' then return acc
    unless more do fail
    match ← field? fuel with
    | some name => fields fuel name acc
    | none => fail

def items (closing : Char) : Nat → Reading (List Setting)
  | 0 => fail
  | fuel + 1 => do
    gaps.skip fuel
    if ← accept closing then return []
    let v ← value fuel
    gaps.skip fuel
    if ← accept ',' then return v :: (← items closing fuel)
    expect closing
    return [v]

/-- The entries of a map up to the closing brace; every key is text. -/
def entries : Nat → List (String × Setting) → Reading (List (String × Setting))
  | 0, _ => fail
  | fuel + 1, acc => do
    gaps.skip fuel
    if ← accept '\x7d' then return acc
    match ← value fuel with
    | .text k =>
      gaps.skip fuel
      expect ':'
      let acc := Setting.setEntry k (← value fuel) acc
      gaps.skip fuel
      if ← accept ',' then entries fuel acc
      else
        expect '\x7d'
        return acc
    | _ => fail

end

def read? (text : String) : Option Setting :=
  let cs := text.toList
  let fuel := 3 * cs.length + 4
  let document : Reading Setting := do
    let v ← value fuel
    gaps.skip fuel
    return v
  document.whole cs

end Ron
end MappingSweep
