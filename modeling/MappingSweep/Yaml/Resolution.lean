import MappingSweep.Yaml.Fault
import MappingSweep.Yaml.Token
import MappingSweep.Yaml.Value

/-!
# What scalars stand for

A plain scalar without a tag is tried as null, boolean, integer and float before it is text.  Core
tags fix the type and refuse text that does not fit; a tag that starts with an exclamation mark is
kept as an application tag around the value.
-/

namespace MappingSweep
namespace Yaml

open MappingSweep.Number (readNat readInt readBinary64 isDigit)

def isNullWord (s : String) : Bool :=
  ["~", "null", "Null", "NULL"].contains s

def boolWord? (s : String) : Option Bool :=
  if ["true", "True", "TRUE"].contains s then some true
  else if ["false", "False", "FALSE"].contains s then some false
  else none

/-- A zero followed by more digits is text. -/
def isPaddedDigits (cs : List Char) : Bool :=
  let ds := match cs with
    | '-' :: rest => rest
    | '+' :: rest => rest
    | _ => cs
  1 < ds.length && ds.head? == some '0' && ds.all isDigit

def startsSigned : List Char → Bool
  | '+' :: _ => true
  | '-' :: _ => true
  | _ => false

def baseOf? : Char → Option Nat
  | 'x' => some 16
  | 'o' => some 8
  | 'b' => some 2
  | _ => none

/-- The largest magnitude that still counts as an integer. -/
def wideBound : Nat := Nat.pow 2 128

/-- A nonnegative integer below a bound: an optional plus, and digits or a base and digits. -/
def unsignedInt? (bound : Nat) (cs : List Char) : Option Nat :=
  let bare := MappingSweep.Number.stripPlus cs
  let within (n : Option Nat) : Option Nat := n.filter (· < bound)
  match bare with
  | '0' :: c :: rest =>
    match baseOf? c with
    | some base => within (readNat base rest)
    | none => if isPaddedDigits cs then none else within (readNat 10 bare)
  | _ => if startsSigned bare ∨ isPaddedDigits cs then none else within (readNat 10 bare)

/-- An integer not below the negative of a bound: a minus, and digits or a base and digits. -/
def negativeInt? (bound : Nat) (cs : List Char) : Option Int :=
  let within (n : Option Nat) : Option Int := (n.filter (· ≤ bound)).map fun n => -(n : Int)
  match cs with
  | '-' :: '0' :: c :: rest =>
    match baseOf? c with
    | some base => within (readNat base rest)
    | none => if isPaddedDigits cs then none else within (readNat 10 (cs.drop 1))
  | '-' :: rest => if isPaddedDigits cs then none else within (readNat 10 rest)
  | _ => none

/-- Integers of 64 bits; wider ones up to 128 bits are a fault. -/
def int? (cs : List Char) : Option (Except Fault Int) :=
  match unsignedInt? (Nat.pow 2 64) cs, negativeInt? (Nat.pow 2 63) cs with
  | some n, _ => some (.ok n)
  | none, some n => some (.ok n)
  | none, none =>
    if (unsignedInt? wideBound cs).isSome ∨ (negativeInt? (Nat.pow 2 127) cs).isSome then
      some (.error .wideInteger)
    else none

/-- Words for infinity and NaN with a leading point, or a finite decimal. -/
def float? (s : String) : Option Float :=
  let cs := s.toList
  let bare := MappingSweep.Number.stripPlus cs
  if cs.head? = some '+' ∧ startsSigned bare then none
  else if [".inf", ".Inf", ".INF"].contains (String.ofList bare) then some (1.0 / 0.0)
  else if ["-.inf", "-.Inf", "-.INF"].contains s then some (-1.0 / 0.0)
  else if [".nan", ".NaN", ".NAN"].contains s then some (0.0 / 0.0)
  else (readBinary64 bare).bind fun x => if x.toFloat.isFinite then some x.toFloat else none

def plainValue (s : String) : Except Fault Value :=
  if s.isEmpty ∨ isNullWord s then .ok .null else
  match boolWord? s with
  | some b => .ok (.bool b)
  | none =>
    match int? s.toList with
    | some r => r.map fun n => .number (.int n)
    | none =>
      if isPaddedDigits s.toList then .ok (.string s) else
      match float? s with
      | some x => .ok (.number (.float x))
      | none => .ok (.string s)

def coreTag (name : String) : String :=
  "tag:yaml.org,2002:" ++ name

def untaggedScalar (s : String) (style : ScalarStyle) : Except Fault Value :=
  if style = .plain then plainValue s else .ok (.string s)

/-- The value of a scalar under a tag that is not an application tag. -/
def taggedScalar (tag : String) (s : String) : Except Fault Value :=
  if tag = coreTag "bool" then
    match boolWord? s with
    | some b => .ok (.bool b)
    | none => .error .scalarType
  else if tag = coreTag "int" then
    match int? s.toList with
    | some r => r.map fun n => .number (.int n)
    | none => .error .scalarType
  else if tag = coreTag "float" then
    match float? s with
    | some x => .ok (.number (.float x))
    | none => .error .scalarType
  else if tag = coreTag "null" then
    if isNullWord s then .ok .null else .error .scalarType
  else .ok (.string s)

def applicationTag? (tag : Option String) : Option String :=
  match tag.map String.toList with
  | some ['!'] => some "!"
  | some ('!' :: rest) => some (String.ofList rest)
  | _ => none

end Yaml
end MappingSweep
