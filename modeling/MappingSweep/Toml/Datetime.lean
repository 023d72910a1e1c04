import MappingSweep.Number.Numeral
import MappingSweep.Text.Reading

/-!
# TOML dates and times

A date, a time, or both with an optional offset.  The canonical text puts a `T` between date and
time and leaves out the zeros at the end of a fraction.  The hours of an offset carry its sign.
-/

namespace MappingSweep
namespace Toml

open Text (Reading)
open Text.Reading
open Number (decimal padded)

structure Date where
  year : Nat
  month : Nat
  day : Nat

structure Time where
  hour : Nat
  minute : Nat
  second : Nat
  nanosecond : Nat

inductive Offset where
  | utc
  | hours (h : Int) (minutes : Nat)

structure Datetime where
  date : Option Date
  time : Option Time
  offset : Option Offset

namespace Datetime

def digit : Reading Nat := do
  let c ← next
  if Number.isDigit c then ofOption (Number.digitValue c) else fail

def twoDigits : Reading Nat := do
  return 10 * (← digit) + (← digit)

def guardThat (p : Bool) : Reading Unit :=
  if p then pure () else fail

def readDate : Reading Date := do
  let year := 100 * (← twoDigits) + (← twoDigits)
  expect '-'
  let month ← twoDigits
  expect '-'
  let day ← twoDigits
  guardThat (1 ≤ month && month ≤ 12 && 1 ≤ day && day ≤ 31)
  return { year, month, day }

/-- The nanoseconds of a fraction; digits behind the ninth do not count. -/
def readFraction : Reading Nat := do
  let ds ← span Number.isDigit
  guardThat !ds.isEmpty
  ofOption (Number.readNat 10 (ds.take 9 ++ List.replicate (9 - ds.length) '0'))

def readTime : Reading Time := do
  let hour ← twoDigits
  expect ':'
  let minute ← twoDigits
  expect ':'
  let second ← twoDigits
  let nanosecond ← if ← accept '.' then readFraction else pure 0
  guardThat (hour ≤ 24 && minute ≤ 59 && second ≤ 59)
  return { hour, minute, second, nanosecond }

def readOffset : Reading (Option Offset) := do
  match ← peek with
  | none => return none
  | some c =>
    let _ ← next
    if c == 'Z' || c == 'z' then return some .utc
    guardThat (c == '+' || c == '-')
    let h ← twoDigits
    expect ':'
    return some (.hours (if c == '-' then -(h : Int) else h) (← twoDigits))

def dateSeparators : List Char := ['T', 't', ' ']

def readAny : Reading Datetime := do
  if (← remaining)[2]? = some ':' then
    return { date := none, time := some (← readTime), offset := none }
  let d ← readDate
  let t ← match ← peek with
    | some c =>
      if dateSeparators.contains c then
        let _ ← next
        some <$> readTime
      else pure none
    | none => pure none
  return { date := some d, time := t, offset := ← readOffset }

def read? (cs : List Char) : Option Datetime :=
  readAny.whole cs

def paddedText (width n : Nat) : String :=
  String.ofList (padded 10 width n)

def dateText (d : Date) : String :=
  paddedText 4 d.year ++ "-" ++ paddedText 2 d.month ++ "-" ++ paddedText 2 d.day

def fractionText (nanosecond : Nat) : String :=
  if nanosecond = 0 then "" else
  "." ++ String.ofList ((padded 10 9 nanosecond).reverse.dropWhile (· == '0')).reverse

def timeText (t : Time) : String :=
  paddedText 2 t.hour ++ ":" ++ paddedText 2 t.minute ++ ":" ++ paddedText 2 t.second ++
    fractionText t.nanosecond

def offsetText : Offset → String
  | .utc => "Z"
  | .hours h minutes =>
    (if h < 0 then "-" else "+") ++ paddedText 2 h.natAbs ++ ":" ++ paddedText 2 minutes

def text (d : Datetime) : String :=
  let time := d.time.map timeText
  let date := d.date.map dateText
  "T".intercalate (date.toList ++ time.toList) ++ (d.offset.map offsetText).getD ""

end Datetime
end Toml
end MappingSweep
