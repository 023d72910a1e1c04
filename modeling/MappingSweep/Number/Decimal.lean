import MappingSweep.Number.Shortest

/-!
# Decimal text of binary64 values

Three written forms: positional text with the shortest digits and never an exponent, the scientific
form that configuration documents use, and a fixed number of places.  Reading accepts an optional
sign, digits with an optional point, an optional exponent, and the words for infinity and NaN in any
case.
-/

namespace MappingSweep
namespace Number

/-- Digits with a point before the last `places` of them. -/
def withPoint (ds : List Char) (places : Nat) : List Char :=
  if places = 0 then ds else
  let ds := List.replicate (places + 1 - ds.length) '0' ++ ds
  ds.take (ds.length - places) ++ '.' :: ds.drop (ds.length - places)

namespace Digits

/-- All digits written out, with a point only where a fraction follows. -/
def positional (d : Digits) : List Char :=
  match d.exponent with
  | .ofNat k => digits 10 d.coefficient ++
      List.replicate (if d.coefficient = 0 then 0 else k) '0'
  | .negSucc k => withPoint (digits 10 d.coefficient) (k + 1)

/-- The form of configuration documents: always a point or an exponent.  With the point `p` places
after the first digit's left edge, values with `-5 < p ≤ 16` are positional. -/
def documentForm (d : Digits) : List Char :=
  let ds := digits 10 d.coefficient
  let point : Int := ds.length + d.exponent
  if d.coefficient = 0 then "0.0".toList
  else if 0 ≤ d.exponent ∧ point ≤ 16 then
    ds ++ List.replicate d.exponent.toNat '0' ++ ".0".toList
  else if -5 < point ∧ point ≤ 16 then d.positional
  else
    let mantissa := match ds with
      | [one] => [one]
      | first :: rest => first :: '.' :: rest
      | [] => []
    mantissa ++ 'e' :: (decimalInt (point - 1)).toList

end Digits

namespace Binary64

def signed (x : Binary64) (cs : List Char) : String :=
  String.ofList (if x.isNegative then '-' :: cs else cs)

/-- Positional text; the sign of a NaN is not shown. -/
def toText (x : Binary64) : String :=
  match x.magnitude with
  | .notANumber => "NaN"
  | .infinite => x.signed "inf".toList
  | .finite m q => x.signed (shortest m q).positional

def toDocumentText (x : Binary64) : String :=
  match x.magnitude with
  | .notANumber => ".nan"
  | .infinite => x.signed ".inf".toList
  | .finite m q => x.signed (shortest m q).documentForm

/-- Exactly `places` places, a half in the exact binary value going to the even neighbour. -/
def toFixed (places : Nat) (x : Binary64) : String :=
  match x.magnitude with
  | .notANumber => "NaN"
  | .infinite => x.signed "inf".toList
  | .finite m q =>
    let scaled := (Ratio.ofScaled m 2 Nat.two_pos q).timesTenTo places
    x.signed (withPoint (digits 10 scaled.roundEven) places)

end Binary64

def lower (c : Char) : Char :=
  if 65 ≤ c.toNat ∧ c.toNat ≤ 90 then Char.ofNat (c.toNat + 32) else c

/-- `coefficient * 10 ^ exponent` rounded to the nearest binary64 value.  Exponents far outside the
range are decided by the position of the first digit. -/
def nearest (coefficient : Nat) (exponent : Int) : Binary64 :=
  if coefficient = 0 then ⟨0⟩ else
  let top : Int := (digits 10 coefficient).length + exponent
  if 310 < top then .infinity
  else if top < -330 then ⟨0⟩
  else match exponent with
    | .ofNat k => .ofFloat (Float.ofScientific coefficient false k)
    | .negSucc k => .ofFloat (Float.ofScientific coefficient true (k + 1))

def spanDigits (cs : List Char) : List Char × List Char :=
  (cs.takeWhile isDigit, cs.dropWhile isDigit)

def readExponent : List Char → Option Int
  | [] => some 0
  | c :: rest => if c = 'e' ∨ c = 'E' then readInt 10 rest else none

/-- Digits, an optional point and more digits, an optional exponent; at least one digit in all. -/
def readUnsigned (cs : List Char) : Option Binary64 := do
  let (whole, rest) := spanDigits cs
  let (part, rest) := match rest with
    | '.' :: more => spanDigits more
    | _ => ([], rest)
  let coefficient ← readNat 10 (whole ++ part)
  let exponent ← readExponent rest
  some (nearest coefficient (exponent - part.length))

def readMagnitude (cs : List Char) : Option Binary64 :=
  let word := String.ofList (cs.map lower)
  if word = "inf" ∨ word = "infinity" then some .infinity
  else if word = "nan" then some .notANumber
  else readUnsigned cs

def readBinary64 : List Char → Option Binary64
  | '-' :: rest => (readMagnitude rest).map Binary64.neg
  | cs => readMagnitude (stripPlus cs)

def floatText (x : Float) : String :=
  (Binary64.ofFloat x).toText

end Number
end MappingSweep
