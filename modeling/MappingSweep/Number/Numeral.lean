/-!
# Decimal numerals of words

Reading a natural number from digits in a base up to sixteen, and the 64-bit words that a numeral
stands for.  A word numeral may carry one leading plus sign.
-/

namespace MappingSweep
namespace Number

def digitValue (c : Char) : Option Nat :=
  let n := c.toNat
  if 48 ≤ n ∧ n ≤ 57 then some (n - 48)
  else if 97 ≤ n ∧ n ≤ 102 then some (n - 87)
  else if 65 ≤ n ∧ n ≤ 70 then some (n - 55)
  else none

def isDigit (c : Char) : Bool :=
  48 ≤ c.toNat && c.toNat ≤ 57

def readDigits (base : Nat) (acc : Nat) : List Char → Option Nat
  | [] => some acc
  | c :: rest => do
    let d ← digitValue c
    if d < base then readDigits base (base * acc + d) rest else none

/-- A natural number written with at least one digit and nothing else. -/
def readNat (base : Nat) : List Char → Option Nat
  | [] => none
  | cs => readDigits base 0 cs

def stripPlus : List Char → List Char
  | '+' :: rest => rest
  | cs => cs

def wordBound : Nat := Nat.pow 2 64

/-- A 64-bit word in decimal, with an optional plus sign. -/
def readWord (cs : List Char) : Option UInt64 := do
  let n ← readNat 10 (stripPlus cs)
  if n < wordBound then some (UInt64.ofNat n) else none

def readInt (base : Nat) : List Char → Option Int
  | '-' :: rest => (readNat base rest).map fun n => -(n : Int)
  | cs => (readNat base (stripPlus cs)).map fun n => (n : Int)

def signedBound : Nat := Nat.pow 2 63

def readSignedWord (base : Nat) (cs : List Char) : Option Int := do
  let n ← readInt base cs
  if -(signedBound : Int) ≤ n ∧ n < signedBound then some n else none

def digitChar (d : Nat) : Char :=
  if d < 10 then Char.ofNat (48 + d) else Char.ofNat (87 + d)

/-- The digits of a positive number in front of the digits already written. -/
def digitsOnto (base n : Nat) (acc : List Char) : List Char :=
  if _h : 1 < base ∧ 0 < n then digitsOnto base (n / base) (digitChar (n % base) :: acc) else acc
termination_by n
decreasing_by exact Nat.div_lt_self (by omega) (by omega)

def digits (base n : Nat) : List Char :=
  if n = 0 then ['0'] else digitsOnto base n []

def decimal (n : Nat) : String :=
  String.ofList (digits 10 n)

def decimalInt : Int → String
  | .ofNat n => decimal n
  | .negSucc n => "-" ++ decimal (n + 1)

def padded (base width n : Nat) : List Char :=
  let ds := digits base n
  List.replicate (width - ds.length) '0' ++ ds

end Number
end MappingSweep
