/-!
# Binary64 values

A `Binary64` is a bit pattern, so that the two zeros and the NaNs of either sign stay apart where
values are ordered.  Finite patterns decode into a sign and an exact product `significand * 2 ^ q`.
The total order puts negative NaNs first, positive NaNs last, and `-0` before `+0`.
-/

namespace MappingSweep
namespace Number

structure Binary64 where
  bits : UInt64
deriving DecidableEq, Inhabited

namespace Binary64

def toFloat (x : Binary64) : Float :=
  Float.ofBits x.bits

def ofFloat (x : Float) : Binary64 :=
  ⟨x.toBits⟩

def isNegative (x : Binary64) : Bool :=
  Nat.pow 2 63 ≤ x.bits.toNat

def neg (x : Binary64) : Binary64 :=
  ⟨x.bits ^^^ 0x8000000000000000⟩

def notANumber : Binary64 :=
  ⟨0x7FF8000000000000⟩

def infinity : Binary64 :=
  ⟨0x7FF0000000000000⟩

def zero : Binary64 :=
  ⟨0⟩

def biasedExponent (x : Binary64) : Nat :=
  x.bits.toNat / Nat.pow 2 52 % Nat.pow 2 11

def fraction (x : Binary64) : Nat :=
  x.bits.toNat % Nat.pow 2 52

/-- The position of a pattern in the total order, counted upward. -/
def rank (x : Binary64) : Nat :=
  if x.isNegative then Nat.pow 2 64 - 1 - x.bits.toNat else x.bits.toNat + Nat.pow 2 63

def totalLE (x y : Binary64) : Bool :=
  x.rank ≤ y.rank

end Binary64

inductive Magnitude where
  | finite (significand : Nat) (exponent : Int)
  | infinite
  | notANumber
deriving DecidableEq

namespace Binary64

def magnitude (x : Binary64) : Magnitude :=
  if x.biasedExponent = 2047 then
    if x.fraction = 0 then .infinite else .notANumber
  else if x.biasedExponent = 0 then .finite x.fraction (-1074)
  else .finite (Nat.pow 2 52 + x.fraction) (x.biasedExponent - 1075)

def isNotANumber (x : Binary64) : Bool :=
  x.magnitude = .notANumber

/-- The magnitude as a multiple of the least positive value.  Infinity comes after every finite
magnitude. -/
def units (x : Binary64) : Nat :=
  if x.biasedExponent = 0 then x.fraction
  else (Nat.pow 2 52 + x.fraction) * Nat.pow 2 (x.biasedExponent - 1)

def signedUnits (x : Binary64) : Int :=
  if x.isNegative then -x.units else x.units

/-- Less by value, so that the two zeros are equal.  A NaN is neither less nor greater. -/
def less (x y : Binary64) : Bool :=
  !x.isNotANumber && !y.isNotANumber && x.signedUnits < y.signedUnits

/-- The greater one of two values.  A NaN gives way to the other value. -/
def maxNumber (x y : Binary64) : Binary64 :=
  if x.isNotANumber || x.less y then y else x

/-- `m * 2 ^ q` without its fraction. -/
def floorScaled (m : Nat) (q : Int) : Nat :=
  match q with
  | .ofNat k => m * Nat.pow 2 k
  | .negSucc k => m / Nat.pow 2 (k + 1)

/-- `m * 2 ^ q` to the nearest integer, a half going up. -/
def roundScaled (m : Nat) (q : Int) : Nat :=
  match q with
  | .ofNat k => m * Nat.pow 2 k
  | .negSucc k => (m + Nat.pow 2 k) / Nat.pow 2 (k + 1)

def lastWord : Nat := Nat.pow 2 64 - 1

/-- The word nearest to the value without its fraction.  Negative values and NaN count as zero. -/
def toWord (x : Binary64) : UInt64 :=
  match x.isNegative, x.magnitude with
  | false, .finite m q => UInt64.ofNat (min (floorScaled m q) lastWord)
  | false, .infinite => UInt64.ofNat lastWord
  | _, _ => 0

/-- The nearest integer, a half going away from zero, inside `-bound ≤ n < bound`.  NaN counts as
zero. -/
def toNearest (bound : Nat) (x : Binary64) : Int :=
  match x.isNegative, x.magnitude with
  | _, .notANumber => 0
  | false, .finite m q => min (roundScaled m q) (bound - 1)
  | false, .infinite => bound - 1
  | true, .finite m q => -(min (roundScaled m q) bound : Nat)
  | true, .infinite => -(bound : Int)

end Binary64
end Number
end MappingSweep
