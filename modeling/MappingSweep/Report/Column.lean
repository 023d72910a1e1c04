import MappingSweep.Number.Decimal
import MappingSweep.Text.Blank

/-!
# Report columns

The name of a column says how its cells are shown: as text, as counts, with two places, or as a
percentage with two places.  Cells are trimmed, and blank cells stay blank in every column.
-/

namespace MappingSweep

inductive ColumnKind where
  | text
  | integer
  | decimal
  /-- A fraction shown in hundredths. -/
  | percent
deriving DecidableEq, Repr

namespace ColumnKind

def textColumns : List String :=
  ["pattern", "trace", "mapping"]

def percentColumns : List String :=
  ["bw_usage"]

def decimalColumns : List String :=
  ["avg_latency", "mid_latency"]

/-- The kind of a column; every other name is that of a count. -/
def ofName (name : String) : ColumnKind :=
  if name ∈ textColumns then .text
  else if name ∈ percentColumns then .percent
  else if name ∈ decimalColumns then .decimal
  else .integer

def label : ColumnKind → String
  | text => "Text"
  | integer => "Integer"
  | decimal => "Decimal"
  | percent => "Percent"

/-- The form of a number in a column.  Counts are exact while they fit in a word. -/
def formatNumber (kind : ColumnKind) (cell : List Char) : Option String :=
  match kind with
  | text => some (String.ofList cell)
  | integer =>
    match Number.readWord cell with
    | some n => some (Number.decimal n.toNat)
    | none => (Number.readBinary64 cell).map (·.toFixed 0)
  | decimal => (Number.readBinary64 cell).map (·.toFixed 2)
  | percent => (Number.readBinary64 cell).map fun x =>
      (Number.Binary64.ofFloat (x.toFloat * 100.0)).toFixed 2 ++ "%"

/-- The form of a cell, or the trimmed cell if it is no number where one is needed. -/
def format (kind : ColumnKind) (cell : String) : Except String String :=
  match Text.trimChars cell.toList with
  | [] => .ok ""
  | c :: cs =>
    match kind.formatNumber (c :: cs) with
    | some s => .ok s
    | none => .error (String.ofList (c :: cs))

end ColumnKind
end MappingSweep
