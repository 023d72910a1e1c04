import MappingSweep.Number.Decimal

/-!
# TOML numbers

Integers in base ten, or after a base prefix in base sixteen, eight or two; floats; and the words
for infinity and NaN.  Single underscores may stand between digits, and decimal numbers have no
leading zeros.  Integers fit into 64 bits with a sign, and written floats are finite.
-/

namespace MappingSweep
namespace Toml

open Number (Binary64 digitValue readNat)

def isDigitOf (base : Nat) (c : Char) : Bool :=
  match digitValue c with
  | some d => d < base
  | none => false

/-- No underscore at either end, and no two in a row. -/
def underscoresFit : List Char → Bool
  | [] => false
  | ['_'] => false
  | [_] => true
  | '_' :: _ => false
  | _ :: '_' :: '_' :: _ => false
  | _ :: '_' :: rest => underscoresFit rest
  | _ :: rest => underscoresFit rest

/-- The digits in front of a text, without their underscores, and the rest of the text. -/
def digitGroups? (base : Nat) (cs : List Char) : Option (List Char × List Char) :=
  let isPart := fun c => c == '_' || isDigitOf base c
  let run := cs.takeWhile isPart
  if underscoresFit run then some (run.filter (· != '_'), cs.dropWhile isPart) else none

def plainDigits? (cs : List Char) : Option (List Char × List Char) := do
  let (ds, rest) ← digitGroups? 10 cs
  if ds.head? = some '0' ∧ 1 < ds.length then none else some (ds, rest)

def stripMinus : List Char → Bool × List Char
  | '-' :: rest => (true, rest)
  | cs => (false, cs)

/-- An optional sign, as an exponent has it. -/
def stripSign : List Char → Bool × List Char
  | '+' :: rest => (false, rest)
  | cs => stripMinus cs

def signedInt (negative : Bool) (n : Nat) : Int :=
  if negative then -(n : Int) else n

def inRange (n : Int) : Option Int :=
  if -(Number.signedBound : Int) ≤ n ∧ n < Number.signedBound then some n else none

def readBase? (base : Nat) (cs : List Char) : Option Int := do
  let (ds, rest) ← digitGroups? base cs
  if rest.isEmpty then inRange (← readNat base ds) else none

def readDecimal? (cs : List Char) : Option Int := do
  let (negative, cs) := stripMinus cs
  let (ds, rest) ← plainDigits? cs
  if rest.isEmpty then inRange (signedInt negative (← readNat 10 ds)) else none

def basePrefix? : List Char → Option (Nat × List Char)
  | '0' :: 'x' :: rest => some (16, rest)
  | '0' :: 'o' :: rest => some (8, rest)
  | '0' :: 'b' :: rest => some (2, rest)
  | _ => none

/-- A float from its parts: a signed whole part, the digits behind the point, and an exponent. -/
def floatOf? (negative : Bool) (whole part : List Char) (exponent : Int) : Option Binary64 := do
  let coefficient ← readNat 10 (whole ++ part)
  let x := Number.nearest coefficient (exponent - part.length)
  if x.magnitude = .infinite then none else some (if negative then x.neg else x)

/-- The exponent that a text spells behind its `e`. -/
def readExponent? (cs : List Char) : Option Int := do
  let (negative, cs) := stripSign cs
  let (ds, rest) ← digitGroups? 10 cs
  if rest.isEmpty then some (signedInt negative (← readNat 10 ds)) else none

end Toml
end MappingSweep
