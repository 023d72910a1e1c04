import MappingSweep.Text.Reading
import MappingSweep.Toml.Datetime
import MappingSweep.Toml.Number
import MappingSweep.Toml.Table

/-!
# Reading TOML

From a text to its table.  A date or time becomes its canonical text.  Line endings are folded to
line feeds first; the readers of single lines then see no carriage return that is allowed.
-/

namespace MappingSweep
namespace Toml

open Text (Reading)
open Text.Reading

def foldLines : List Char → List Char
  | [] => []
  | '\r' :: '\n' :: rest => '\n' :: foldLines rest
  | c :: rest => c :: foldLines rest

def isSpace (c : Char) : Bool :=
  c == ' ' || c == '\t'

def isBare (c : Char) : Bool :=
  c.isAlphanum || c == '-' || c == '_'

def skipSpaces : Reading Unit :=
  skipWhile isSpace

def word : Reading (List Char) := do
  let w ← span isBare
  if w.isEmpty then fail else return w

def inComment (c : Char) : Bool :=
  c == '\t' || 0x20 ≤ c.toNat

def lineEnd : Reading Unit := do
  match ← peek with
  | none => pure ()
  | some _ => expect '\n'

/-- Skips a comment with the end of its line, and tells whether there was one. -/
def comment : Reading Bool := do
  if ← accept '#' then
    skipWhile inComment
    lineEnd
    return true
  else return false

def restOfLine : Reading Unit := do
  skipSpaces
  unless ← comment do lineEnd

/-- Skips spaces, comments and line ends. -/
def gaps : Nat → Reading Unit
  | 0 => fail
  | fuel + 1 => do
    skipSpaces
    if ← comment then gaps fuel
    else if ← accept '\n' then gaps fuel
    else pure ()

def inString (c : Char) : Bool :=
  c == '\t' || (0x20 ≤ c.toNat && c.toNat != 0x7F)

def hexChar (width : Nat) : Reading Char := do
  let cs ← remaining
  let n ← ofOption (Number.readNat 16 (cs.take width))
  if (cs.take width).length < width then fail
  set (cs.drop width)
  if n.isValidChar then return Char.ofNat n else fail

/-- A backslash at the end of a line takes away the blank text behind it. -/
def foldedBlank (c : Char) : Reading Unit := do
  unless c == '\n' do
    skipSpaces
    match ← peek with
    | none => pure ()
    | some _ => expect '\n'
  skipWhile fun c => isSpace c || c == '\n'

def escaped (multiline : Bool) : Reading (List Char) := do
  match ← next with
  | '"' => return ['"']
  | '\\' => return ['\\']
  | 'b' => return ['\x08']
  | 'f' => return ['\x0c']
  | 'n' => return ['\n']
  | 'r' => return ['\r']
  | 't' => return ['\t']
  | 'u' => return [← hexChar 4]
  | 'U' => return [← hexChar 8]
  | c =>
    if multiline && (isSpace c || c == '\n') then
      foldedBlank c
      return []
    else fail

def stringPart (quote : Char) (multiline : Bool) : Reading (List Char) := do
  let c ← next
  if c == '\\' && quote == '"' then escaped multiline
  else if inString c || (multiline && c == '\n') then return [c]
  else fail

def lineString (quote : Char) : Nat → Reading (List Char)
  | 0 => fail
  | fuel + 1 => do
    if ← accept quote then return []
    let part ← stringPart quote false
    return part ++ (← lineString quote fuel)

/-- Up to three closing quotes; the string may end with two more of its own. -/
def textString (quote : Char) : Nat → Reading (List Char)
  | 0 => fail
  | fuel + 1 => do
    if ← acceptAll (List.replicate 3 quote) then
      let first := if ← accept quote then [quote] else []
      let second := if ← accept quote then [quote] else []
      return first ++ second
    let part ← stringPart quote true
    return part ++ (← textString quote fuel)

/-- A string behind its first quote; a line end right behind three quotes does not count. -/
def stringFrom (quote : Char) : Reading (List Char) := do
  let fuel := (← remaining).length + 1
  if ← acceptAll [quote, quote] then
    let _ ← accept '\n'
    textString quote fuel
  else lineString quote fuel

def isQuote (c : Char) : Bool :=
  c == '"' || c == '\''

def key : Reading String := do
  match ← peek with
  | some c =>
    if isQuote c then
      let _ ← next
      if ← acceptAll [c, c] then fail
      return String.ofList (← lineString c ((← remaining).length + 1))
    else return String.ofList (← word)
  | none => fail

def dottedKey : Nat → Reading (List String)
  | 0 => fail
  | fuel + 1 => do
    skipSpaces
    let first ← key
    skipSpaces
    if ← accept '.' then return first :: (← dottedKey fuel)
    else return [first]

/-- A word behind the given character, if that character comes next. -/
def wordAfter? (c : Char) : Reading (List Char) := do
  if ← accept c then return c :: (← word) else return []

/-- One space and a word, as between a date and a time. -/
def spacedWord? : Reading (List Char) := do
  match ← remaining with
  | ' ' :: c :: _ => if isBare c then return (← next) :: (← word) else return []
  | _ => return []

/-- The rest of a date or time whose first word is given. -/
def datetimeText (first : List Char) (colonEaten : Bool) : Reading (List Char) := do
  let space ← spacedWord?
  let start := if colonEaten then first ++ ':' :: space else first ++ space
  if colonEaten || (← accept ':') then
    let start := if colonEaten then start else start ++ [':']
    let minutes ← word
    expect ':'
    let seconds ← word
    let fraction ← wordAfter? '.'
    let plus ← wordAfter? '+'
    let offset ← wordAfter? ':'
    return start ++ minutes ++ ':' :: seconds ++ fraction ++ plus ++ offset
  else return start

def datetime (first : List Char) (colonEaten : Bool) : Reading Setting := do
  let d ← ofOption (Datetime.read? (← datetimeText first colonEaten))
  return .text d.text

/-- The digits of an exponent; a plus sign ends the word in front of it. -/
def exponentFrom : List Char → Reading Int
  | [_] => do
    let _ ← accept '+'
    let w ← word
    if w.head? == some '-' then fail
    ofOption (readExponent? w)
  | _ :: digits => ofOption (readExponent? digits)
  | [] => pure 0

def isExponentMark (c : Char) : Bool :=
  c == 'e' || c == 'E'

/-- A float whose word is given, with the word behind its point if it has one. -/
def float (w : List Char) (part : Option (List Char)) : Reading Setting := do
  let (negative, w) := stripMinus w
  let (whole, rest) ← ofOption (plainDigits? w)
  let (part, rest) ← match part with
    | none => pure ([], rest)
    | some p => if rest.isEmpty then ofOption (digitGroups? 10 p) else fail
  if rest.head?.any (!isExponentMark ·) then fail
  .float <$> ofOption (floatOf? negative whole part (← exponentFrom rest))

def signedWord? (w : List Char) : Option Number.Binary64 :=
  let (negative, w) := stripMinus w
  let x? := if w = ['i', 'n', 'f'] then some Number.Binary64.infinity
    else if w = ['n', 'a', 'n'] then some Number.Binary64.notANumber
    else none
  x?.map fun x => if negative then x.neg else x

def number (w : List Char) : Reading Setting := do
  if let some (base, digits) := basePrefix? w then
    return .int (← ofOption (readBase? base digits))
  if w.any isExponentMark then float w none
  else if ← accept '.' then float w (some (← word))
  else match signedWord? w with
    | some x => return .float x
    | none => return .int (← ofOption (readDecimal? w))

def hasSignedExponent : List Char → Bool
  | [] => false
  | c :: rest => (isExponentMark c && rest.head? == some '-') || hasSignedExponent rest

/-- A dash behind the first character in a word without a signed exponent. -/
def hasDateDash (w : List Char) : Bool :=
  (w.drop 1).contains '-' && !hasSignedExponent w

def numberOrDate (w : List Char) : Reading Setting := do
  if w.contains 'T' || w.contains 't' || hasDateDash w then datetime w false
  else if ← accept ':' then datetime w true
  else number w

def wordValue (w : List Char) : Reading Setting :=
  if w = "true".toList then return .bool true
  else if w = "false".toList then return .bool false
  else if w = "inf".toList ∨ w = "nan".toList then numberOrDate w
  else if w.head?.any fun c => c == '-' || Number.isDigit c then numberOrDate w
  else fail

/-! ## Values -/

def closedTable (entries : List (List String × Setting)) : Reading Setting := do
  return .table (toSettings (← ofOption (Slots.insertAll entries)))

mutual

def value : Nat → Reading Setting
  | 0 => fail
  | fuel + 1 => do
    match ← peek with
    | none => fail
    | some c =>
      if isQuote c then
        let _ ← next
        return .text (String.ofList (← stringFrom c))
      else if ← accept '[' then return .list (← items fuel)
      else if ← accept '\x7b' then
        skipSpaces
        if ← accept '\x7d' then return .table []
        closedTable (← pairs fuel)
      else if ← accept '+' then number (← word)
      else wordValue (← word)

def items : Nat → Reading (List Setting)
  | 0 => fail
  | fuel + 1 => do
    gaps (fuel + 1)
    if ← accept ']' then return []
    let v ← value fuel
    gaps (fuel + 1)
    if ← accept ',' then return v :: (← items fuel)
    expect ']'
    return [v]

def pairs : Nat → Reading (List (List String × Setting))
  | 0 => fail
  | fuel + 1 => do
    let k ← dottedKey fuel
    expect '='
    skipSpaces
    let v ← value fuel
    skipSpaces
    if ← accept '\x7d' then return [(k, v)]
    expect ','
    return (k, v) :: (← pairs fuel)

end

def header : Reading Section := do
  expect '['
  let isList ← accept '['
  let header ← dottedKey ((← remaining).length + 1)
  expect ']'
  if isList then expect ']'
  restOfLine
  return { header, isList }

def entry : Reading (List String × Setting) := do
  let fuel := (← remaining).length + 1
  let k ← dottedKey fuel
  expect '='
  skipSpaces
  let v ← value fuel
  restOfLine
  return (k, v)

/-- The sections behind the one that is being read. -/
def sections (current : Section) : Nat → Reading (List Section)
  | 0 => fail
  | fuel + 1 => do
    gaps ((← remaining).length + 1)
    match ← peek with
    | none => return [current]
    | some '[' => return current :: (← sections (← header) fuel)
    | some _ =>
      let e ← entry
      sections { current with entries := current.entries ++ [e] } fuel

def withoutMark : List Char → List Char
  | '\uFEFF' :: rest => rest
  | cs => cs

def read? (text : String) : Option (List (String × Setting)) := do
  let cs := foldLines (withoutMark text.toList)
  tableOf? (← (sections {} (cs.length + 1)).whole cs)

end Toml
end MappingSweep
