import MappingSweep.Json.Reader
import MappingSweep.Text.Blank
import MappingSweep.Text.Comment

/-!
# Reading JSON5

The notation of JSON with comments, keys without quotes, strings in either kind of quotes, numbers
with a sign or in base sixteen, and a comma behind the last item.  Integers have to fit into 64 bits
with a sign, and those in base sixteen into 32 bits without one.  Outside ASCII every character that
is no space may stand in a key without quotes.
-/

namespace MappingSweep
namespace Json5

open Text (Reading)
open Text.Reading

def endsLine (c : Char) : Bool :=
  c == '\n' || c == '\r' || c == '\u2028' || c == '\u2029'

def isSpace (c : Char) : Bool :=
  (Text.isBlank c && c != '\u0085') || c == '\uFEFF'

def gaps : Text.Gaps where
  isSpace := isSpace
  endsLine := endsLine
  nests := false

/-- What a backslash and the characters behind it stand for; a line end behind one is skipped. -/
def escaped : Reading (List Char) := do
  match ← next with
  | 'b' => return ['\x08']
  | 'f' => return ['\x0c']
  | 'n' => return ['\n']
  | 'r' => return ['\r']
  | 't' => return ['\t']
  | 'v' => return ['\x0b']
  | '0' => if (← peek).any Number.isDigit then fail else return ['\x00']
  | 'x' => do
    let cs ← remaining
    if (cs.take 2).length < 2 then fail
    set (cs.drop 2)
    return [Char.ofNat (← ofOption (Number.readNat 16 (cs.take 2)))]
  | 'u' => return [← Json.numbered]
  | '\r' => do
    let _ ← accept '\n'
    return []
  | c => if endsLine c then return [] else if Number.isDigit c then fail else return [c]

def stringRest (quote : Char) : Nat → Reading (List Char)
  | 0 => fail
  | fuel + 1 => do
    let c ← next
    if c = quote then return []
    else if c = '\\' then return (← escaped) ++ (← stringRest quote fuel)
    else if endsLine c then fail
    else return c :: (← stringRest quote fuel)

def isQuote (c : Char) : Bool :=
  c == '"' || c == '\''

def string (fuel : Nat) : Reading String := do
  let quote ← next
  if isQuote quote then return String.ofList (← stringRest quote fuel) else fail

def isNameChar (c : Char) : Bool :=
  c.isAlphanum || c == '$' || c == '_' || (0x80 ≤ c.toNat && !isSpace c)

def key (fuel : Nat) : Reading String := do
  if (← peek).any isQuote then string fuel
  else
    let name ← span isNameChar
    match name.head? with
    | some c => if Number.isDigit c then fail else return String.ofList name
    | none => fail

inductive Sign where
  | plus
  | minus
deriving DecidableEq, Repr

def sign? : Reading (Option Sign) := do
  if ← accept '+' then return some .plus
  else if ← accept '-' then return some .minus
  else return none

def hexNumber : Reading Setting := do
  let n ← ofOption (Number.readNat 16 (← span fun c => (Number.digitValue c).isSome))
  if n < Nat.pow 2 32 then return .int n else fail

def decimalNumber (negative : Bool) : Reading Setting := do
  let whole ← span Number.isDigit
  let hasPoint ← accept '.'
  let part ← if hasPoint then span Number.isDigit else pure []
  if (whole ++ part).isEmpty ∨ (whole.head? = some '0' ∧ 1 < whole.length) then fail
  let power ← Json.exponent
  let n ← ofOption (Number.readNat 10 (whole ++ part))
  if hasPoint ∨ power.isSome then
    Json.finiteFloat negative (Number.nearest n (power.getD 0 - part.length))
  else
    let i := if negative then -(n : Int) else n
    if -(Number.signedBound : Int) ≤ i ∧ i < Number.signedBound then return .int i else fail

/-- A number.  Neither the words nor base sixteen take a plus sign, and base sixteen takes none. -/
def number : Reading Setting := do
  let sign ← sign?
  if ← acceptAll "Infinity".toList then
    match sign with
    | some .plus => fail
    | some .minus => return .float Number.Binary64.infinity.neg
    | none => return .float Number.Binary64.infinity
  else if ← acceptAll "NaN".toList then
    if sign = some .plus then fail else return .float Number.Binary64.notANumber
  else if ← acceptAll ['0', 'x'] then
    if sign.isSome then fail else hexNumber
  else if ← acceptAll ['0', 'X'] then
    if sign.isSome then fail else hexNumber
  else decimalNumber (sign = some .minus)

mutual

def value : Nat → Reading Setting
  | 0 => fail
  | fuel + 1 => do
    gaps.skip fuel
    match ← peek with
    | some 't' => Json.constant "true" (.bool true)
    | some 'f' => Json.constant "false" (.bool false)
    | some 'n' => Json.constant "null" .null
    | some '[' => do
      expect '['
      return .list (← items fuel)
    | some '\x7b' => do
      expect '\x7b'
      return .table (← entries fuel [])
    | some c => if isQuote c then return .text (← string fuel) else number
    | none => fail

def items : Nat → Reading (List Setting)
  | 0 => fail
  | fuel + 1 => do
    gaps.skip fuel
    if ← accept ']' then return []
    let v ← value fuel
    gaps.skip fuel
    if ← accept ',' then return v :: (← items fuel)
    expect ']'
    return [v]

def entries : Nat → List (String × Setting) → Reading (List (String × Setting))
  | 0, _ => fail
  | fuel + 1, acc => do
    gaps.skip fuel
    if ← accept '\x7d' then return acc
    let k ← key fuel
    gaps.skip fuel
    expect ':'
    let acc := Setting.setEntry k (← value fuel) acc
    gaps.skip fuel
    if ← accept ',' then entries fuel acc
    else
      expect '\x7d'
      return acc

end

def read? (text : String) : Option Setting :=
  let cs := text.toList
  let fuel := 2 * cs.length + 4
  let document : Reading Setting := do
    let v ← value fuel
    gaps.skip fuel
    return v
  document.whole cs

end Json5
end MappingSweep
