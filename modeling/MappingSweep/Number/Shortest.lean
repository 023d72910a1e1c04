import MappingSweep.Number.Binary64
import MappingSweep.Number.Numeral

/-!
# Shortest decimal digits

The fewest decimal digits that read back to a given finite binary64 value, and among those the
nearest to it.  The reals that round to the value form an interval, with its ends included exactly
when the significand is even.  On each decimal grid only the two neighbours of the value are tried:
if any point of the grid lies in the interval then one of them does.
-/

namespace MappingSweep
namespace Number

structure Ratio where
  num : Nat
  den : Nat
  den_pos : 0 < den

namespace Ratio

def ofScaled (m : Nat) (base : Nat) (h : 0 < base) (e : Int) : Ratio :=
  match e with
  | .ofNat k => ⟨m * Nat.pow base k, 1, Nat.one_pos⟩
  | .negSucc k => ⟨m, Nat.pow base (k + 1), Nat.pow_pos h⟩

def timesTenTo (r : Ratio) : Int → Ratio
  | .ofNat k => ⟨r.num * Nat.pow 10 k, r.den, r.den_pos⟩
  | .negSucc k =>
    ⟨r.num, r.den * Nat.pow 10 (k + 1), Nat.mul_pos r.den_pos (Nat.pow_pos (Nat.succ_pos 9))⟩

def floor (r : Ratio) : Nat :=
  r.num / r.den

/-- The nearest natural number, a half going to the even neighbour. -/
def roundEven (r : Ratio) : Nat :=
  let q := r.num / r.den
  let twice := 2 * (r.num % r.den)
  if twice < r.den then q
  else if r.den < twice then q + 1
  else if q % 2 = 0 then q else q + 1

end Ratio

/-- The interval of reals that round to `significand * 2 ^ exponent`, in quarters of the unit in the
last place, together with the value itself. -/
structure Neighbourhood where
  low : Nat
  value : Nat
  high : Nat
  exponent : Int
  closed : Bool

def neighbourhood (significand : Nat) (exponent : Int) : Neighbourhood where
  low :=
    if significand = Nat.pow 2 52 ∧ -1074 < exponent then 4 * significand - 1
    else 4 * significand - 2
  value := 4 * significand
  high := 4 * significand + 2
  exponent := exponent - 2
  closed := significand % 2 = 0

namespace Neighbourhood

/-- Whether `c / 10 ^ places` lies in the interval. -/
def contains (n : Neighbourhood) (places : Int) (c : Nat) : Bool :=
  let at' (m : Nat) : Ratio := (Ratio.ofScaled m 2 Nat.two_pos n.exponent).timesTenTo places
  let low := at' n.low
  let high := at' n.high
  if n.closed then low.num ≤ c * low.den && c * high.den ≤ high.num
  else low.num < c * low.den && c * high.den < high.num

/-- The better of the two neighbours of the value on the grid of `places` decimal places. -/
def onGrid (n : Neighbourhood) (places : Int) : Option Nat :=
  let r := (Ratio.ofScaled n.value 2 Nat.two_pos n.exponent).timesTenTo places
  let down := r.floor
  let up := down + 1
  match n.contains places down, n.contains places up with
  | true, true => if 2 * (r.num % r.den) < r.den then some down else some up
  | true, false => some down
  | false, true => some up
  | false, false => none

end Neighbourhood

/-- The least `k` with `value < 10 ^ k`, found upward from a start. -/
def decimalExponent (r : Ratio) : Nat → Int → Int
  | 0, k => k
  | fuel + 1, k =>
    let scaled := r.timesTenTo (-k)
    if scaled.num < scaled.den then k else decimalExponent r fuel (k + 1)

/-- Digits `coefficient * 10 ^ exponent`. -/
structure Digits where
  coefficient : Nat
  exponent : Int
deriving DecidableEq, Repr

namespace Digits

def dropZeros (c : Nat) (e : Int) (h : 0 < c) : Digits :=
  if hz : c % 10 = 0 then dropZeros (c / 10) (e + 1) (by omega) else ⟨c, e⟩
termination_by c

/-- The same value with no zero as its last digit. -/
def normal (d : Digits) : Digits :=
  if h : 0 < d.coefficient then dropZeros d.coefficient d.exponent h else ⟨0, 0⟩

end Digits

/-- The grids from `count` significant digits on, up to seventeen. -/
def shortestFrom (n : Neighbourhood) (k : Int) : Nat → Int → Digits
  | 0, count =>
    let r := (Ratio.ofScaled n.value 2 Nat.two_pos n.exponent).timesTenTo (count - k)
    ⟨r.floor, k - count⟩
  | fuel + 1, count =>
    match n.onGrid (count - k) with
    | some c => ⟨c, k - count⟩
    | none => shortestFrom n k fuel (count + 1)

/-- The shortest digits of `significand * 2 ^ exponent`. -/
def shortest (significand : Nat) (exponent : Int) : Digits :=
  if significand = 0 then ⟨0, 0⟩ else
  let r := Ratio.ofScaled significand 2 Nat.two_pos exponent
  let guess : Int := ((Nat.log2 significand : Int) + exponent) * 30103 / 100000 - 1
  let k := decimalExponent r 4 guess
  (shortestFrom (neighbourhood significand exponent) k 17 1).normal

end Number
end MappingSweep
