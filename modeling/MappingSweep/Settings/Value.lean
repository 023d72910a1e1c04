import MappingSweep.Number.Decimal

/-!
# Settings values

The values that settings come in, whatever they were written in, and their loose conversions: text,
numbers and truth values stand for one another as far as they can.
-/

namespace MappingSweep

open Number (Binary64)

inductive Setting where
  | null
  | bool (b : Bool)
  | int (n : Int)
  | float (x : Binary64)
  | text (s : String)
  | list (items : List Setting)
  | table (entries : List (String × Setting))
deriving Inhabited

namespace Setting

def lowered (s : String) : String :=
  String.ofList (s.toList.map Number.lower)

def trueWords : List String := ["true", "on", "yes"]

def falseWords : List String := ["false", "off", "no"]

def toText? : Setting → Option String
  | .text s => some s
  | .bool b => some (if b then "true" else "false")
  | .int n => some (Number.decimalInt n)
  | .float x => some x.toText
  | _ => none

/-- Zero is false, and every other number is true. -/
def toBool? : Setting → Option Bool
  | .bool b => some b
  | .int n => some (n != 0)
  | .float x => some (x.magnitude != .finite 0 (-1074))
  | .text s =>
    let word := lowered s
    if word ∈ "1" :: trueWords then some true
    else if word ∈ "0" :: falseWords then some false
    else none
  | _ => none

/-- Floats go to the nearest word; integers and text have to be words. -/
def toWord? : Setting → Option UInt64
  | .bool b => some (if b then 1 else 0)
  | .int n => if 0 ≤ n ∧ n < Number.wordBound then some (UInt64.ofNat n.toNat) else none
  | .float x => some (UInt64.ofNat (x.toNearest Number.wordBound).toNat)
  | .text s =>
    let word := lowered s
    if word ∈ trueWords then some 1
    else if word ∈ falseWords then some 0
    else Number.readWord s.toList
  | _ => none

def toList? : Setting → Option (List Setting)
  | .list items => some items
  | _ => none

/-- Sets a key in front of all others. -/
def setEntry (key : String) (v : Setting) (entries : List (String × Setting)) :
    List (String × Setting) :=
  (key, v) :: entries.filter (·.1 ≠ key)

/-- A part of a record, under its name in a table or at its place in a list. -/
def part? (name : String) (place : Nat) : Setting → Option Setting
  | .table entries => entries.lookup name
  | .list items => items[place]?
  | _ => none

end Setting
end MappingSweep
