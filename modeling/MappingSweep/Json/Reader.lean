import MappingSweep.Settings.Value
import MappingSweep.Text.Reading

/-!
# Reading JSON

From a text to the value that it spells.  Integers that fit into 64 bits with a sign stay integers,
and all other numbers are floats.  Of equal keys the last one counts.  Arrays and objects nest to a
limited depth.
-/

namespace MappingSweep
namespace Json

open Text (Reading)
open Text.Reading
open Number (Binary64)

def depthLimit : Nat := 127

def isSpace (c : Char) : Bool :=
  c == ' ' || c == '\t' || c == '\n' || c == '\r'

def skipSpaces : Reading Unit :=
  skipWhile isSpace

def unit16 : Reading Nat := do
  let cs ← remaining
  if (cs.take 4).length < 4 then fail
  set (cs.drop 4)
  ofOption (Number.readNat 16 (cs.take 4))

def isHighSurrogate (n : Nat) : Bool :=
  0xD800 ≤ n && n < 0xDC00

def isLowSurrogate (n : Nat) : Bool :=
  0xDC00 ≤ n && n < 0xE000

/-- A character by its one or two numbered escapes. -/
def numbered : Reading Char := do
  let high ← unit16
  if isHighSurrogate high then
    expect '\\'
    expect 'u'
    let low ← unit16
    if isLowSurrogate low then
      return Char.ofNat (0x10000 + (high - 0xD800) * 0x400 + (low - 0xDC00))
    else fail
  else if isLowSurrogate high then fail
  else return Char.ofNat high

def escaped : Reading Char := do
  match ← next with
  | '"' => return '"'
  | '\\' => return '\\'
  | '/' => return '/'
  | 'b' => return '\x08'
  | 'f' => return '\x0c'
  | 'n' => return '\n'
  | 'r' => return '\r'
  | 't' => return '\t'
  | 'u' => numbered
  | _ => fail

/-- The characters of a string behind its first quote. -/
def stringRest : Nat → Reading (List Char)
  | 0 => fail
  | fuel + 1 => do
    match ← next with
    | '"' => return []
    | '\\' => do return (← escaped) :: (← stringRest fuel)
    | c => if c.toNat < 32 then fail else return c :: (← stringRest fuel)

def string (fuel : Nat) : Reading String := do
  expect '"'
  return String.ofList (← stringRest fuel)

/-- Digits without leading zeros. -/
def wholeDigits : Reading (List Char) := do
  let ds ← span Number.isDigit
  if ds.isEmpty ∨ (ds.head? = some '0' ∧ 1 < ds.length) then fail else return ds

def someDigits : Reading (List Char) := do
  let ds ← span Number.isDigit
  if ds.isEmpty then fail else return ds

def fraction : Reading (List Char) := do
  if ← accept '.' then someDigits else return []

def isExponentMark (c : Char) : Bool :=
  c == 'e' || c == 'E'

def exponent : Reading (Option Int) := do
  if (← peek).any isExponentMark then
    let _ ← next
    let negative ← accept '-'
    unless negative do
      let _ ← accept '+'
    let n ← ofOption (Number.readNat 10 (← someDigits))
    return some (if negative then -(n : Int) else n)
  else return none

def finiteFloat (negative : Bool) (x : Binary64) : Reading Setting :=
  if x.magnitude = .infinite then fail else return .float (if negative then x.neg else x)

def number : Reading Setting := do
  let negative ← accept '-'
  let whole ← wholeDigits
  let part ← fraction
  let power ← exponent
  let n ← ofOption (Number.readNat 10 whole)
  let isInt := part.isEmpty && power.isNone
  if isInt ∧ ¬ negative ∧ n < Number.signedBound then return .int n
  if isInt ∧ negative ∧ 0 < n ∧ n ≤ Number.signedBound then return .int (-(n : Int))
  let coefficient ← ofOption (Number.readNat 10 (whole ++ part))
  finiteFloat negative (Number.nearest coefficient (power.getD 0 - part.length))

def constant (text : String) (v : Setting) : Reading Setting := do
  if ← acceptAll text.toList then return v else fail

mutual

def value : (fuel depth : Nat) → Reading Setting
  | 0, _ => fail
  | fuel + 1, depth => do
    skipSpaces
    match ← peek, depth with
    | some '"', _ => return .text (← string fuel)
    | some 't', _ => constant "true" (.bool true)
    | some 'f', _ => constant "false" (.bool false)
    | some 'n', _ => constant "null" .null
    | some '[', d + 1 => do
      expect '['
      skipSpaces
      if ← accept ']' then return .list []
      return .list (← items fuel d)
    | some '\x7b', d + 1 => do
      expect '\x7b'
      skipSpaces
      if ← accept '\x7d' then return .table []
      return .table (← entries fuel d [])
    | _, _ => number

def items : (fuel depth : Nat) → Reading (List Setting)
  | 0, _ => fail
  | fuel + 1, depth => do
    let v ← value fuel depth
    skipSpaces
    if ← accept ',' then return v :: (← items fuel depth)
    expect ']'
    return [v]

def entries : (fuel depth : Nat) → List (String × Setting) → Reading (List (String × Setting))
  | 0, _, _ => fail
  | fuel + 1, depth, acc => do
    skipSpaces
    let key ← string fuel
    skipSpaces
    expect ':'
    let v ← value fuel depth
    skipSpaces
    let acc := Setting.setEntry key v acc
    if ← accept ',' then entries fuel depth acc
    else
      expect '\x7d'
      return acc

end

/-- The value of a text that holds nothing else. -/
def read? (text : String) : Option Setting :=
  let cs := text.toList
  let document : Reading Setting := do
    let v ← value (cs.length + 1) depthLimit
    skipSpaces
    return v
  document.whole cs

end Json
end MappingSweep
