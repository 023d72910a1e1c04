import MappingSweep.Number.Numeral
import MappingSweep.Text.Blank

/-!
# Reading comma-separated records

Records end with a line feed, a carriage return, or both; empty lines are no records.  Quotes open a
field only at its start, and a doubled quote inside stands for one.  The first record is the header,
and every other record has to have as many fields.  Positions count octets, and lines by line feeds;
a record starts right behind the octet that ended the one before.
-/

namespace MappingSweep
namespace Csv

structure Position where
  byte : Nat := 0
  line : Nat := 1
deriving DecidableEq, Repr

structure RawRecord where
  start : Position
  fields : List (List UInt8)
deriving DecidableEq, Repr

inductive Mode where
  | betweenRecords
  | afterReturn
  | fieldStart
  | bare
  | quoted
  | afterQuote
deriving DecidableEq, Repr

/-- A record in the making, with its finished fields and the current one in reverse. -/
structure Partial where
  mode : Mode := .betweenRecords
  start : Position := {}
  here : Position := {}
  field : List UInt8 := []
  fields : List (List UInt8) := []

namespace Partial

def comma : UInt8 := 0x2C

def quote : UInt8 := 0x22

def isEnding (b : UInt8) : Bool :=
  b == 0x0A || b == 0x0D

def closed (p : Partial) : RawRecord :=
  ⟨p.start, (p.field.reverse :: p.fields).reverse⟩

def pass (p : Partial) (b : UInt8) : Partial :=
  { p with here := ⟨p.here.byte + 1, if b = 0x0A then p.here.line + 1 else p.here.line⟩ }

def push (p : Partial) (mode : Mode) (b : UInt8) : Partial :=
  { p with mode, field := b :: p.field }

def nextField (p : Partial) : Partial :=
  { p with mode := .fieldStart, field := [], fields := p.field.reverse :: p.fields }

/-- The state behind a record that the octet `b` ended. -/
def afterRecord (p : Partial) (b : UInt8) : Partial :=
  { mode := if b = 0x0D then .afterReturn else .betweenRecords, start := p.here, here := p.here }

/-- What an octet outside quotes does. -/
def outside (p : Partial) (b : UInt8) : Partial × Option RawRecord :=
  if b = comma then (p.nextField, none)
  else if isEnding b then (p.afterRecord b, some p.closed)
  else (p.push .bare b, none)

def atField (p : Partial) (b : UInt8) : Partial × Option RawRecord :=
  if b = quote then ({ p with mode := .quoted }, none) else p.outside b

def atRecord (p : Partial) (b : UInt8) : Partial × Option RawRecord :=
  if isEnding b then ({ p with mode := .betweenRecords }, none) else p.atField b

/-- Takes one octet, and answers the record that it ends if it ends one. -/
def step (p : Partial) (b : UInt8) : Partial × Option RawRecord :=
  let p := p.pass b
  match p.mode with
  | .betweenRecords => p.atRecord b
  | .afterReturn =>
    if b = 0x0A then ({ p with mode := .betweenRecords }, none) else p.atRecord b
  | .fieldStart => p.atField b
  | .bare => p.outside b
  | .quoted =>
    if b = quote then ({ p with mode := .afterQuote }, none) else (p.push .quoted b, none)
  | .afterQuote => if b = quote then (p.push .quoted b, none) else p.outside b

/-- The record that the end of the input ends. -/
def atEnd (p : Partial) : Option RawRecord :=
  match p.mode with
  | .betweenRecords | .afterReturn => none
  | _ => some p.closed

end Partial

def recordsFrom (p : Partial) : List UInt8 → List RawRecord
  | [] => p.atEnd.toList
  | b :: rest =>
    let (p, done) := p.step b
    done.toList ++ recordsFrom p rest

def byteOrderMark : List UInt8 := [0xEF, 0xBB, 0xBF]

/-- All records of an input, behind a byte order mark if there is one. -/
def rawRecords (input : List UInt8) : List RawRecord :=
  if byteOrderMark.isPrefixOf input then recordsFrom { here := ⟨3, 1⟩ } (input.drop 3)
  else recordsFrom {} input

inductive Fault where
  | width (record : Nat) (start : Position) (found expected : Nat)
  | encoding (record : Nat) (start : Position) (field valid : Nat)
deriving DecidableEq, Repr

open Number (decimal) in
def Fault.message : Fault → String
  | width record start found expected =>
    "CSV error: record " ++ decimal record ++ " (line: " ++ decimal start.line ++ ", byte: " ++
      decimal start.byte ++ "): found record with " ++ decimal found ++
      " fields, but the previous record has " ++ decimal expected ++ " fields"
  | encoding record start field valid =>
    "CSV parse error: record " ++ decimal record ++ " (line " ++ decimal start.line ++
      ", field: " ++ decimal field ++ ", byte: " ++ decimal start.byte ++
      "): invalid utf-8: invalid UTF-8 in field " ++ decimal field ++ " near byte index " ++
      decimal valid

/-- How many octets from `start` on are whole encoded characters. -/
def validFrom (bytes : ByteArray) : Nat → Nat → Nat
  | 0, i => i
  | fuel + 1, i =>
    match bytes.utf8DecodeChar? i with
    | some c => validFrom bytes fuel (i + c.utf8Size)
    | none => i

/-- A field as text, or how many of its octets are valid. -/
def decodeField (field : List UInt8) : Except Nat String :=
  let bytes := ByteArray.mk field.toArray
  match String.fromUTF8? bytes with
  | some s => .ok s
  | none => .error (validFrom bytes bytes.size 0)

def decodeFields (record : Nat) (start : Position) :
    Nat → List (List UInt8) → Except Fault (List String)
  | _, [] => .ok []
  | i, field :: rest =>
    match decodeField field with
    | .ok s => (decodeFields record start (i + 1) rest).map (s :: ·)
    | .error valid => .error (.encoding record start i valid)

/-- The blanks that are taken off before a field is decoded.  A vertical tab is not among them. -/
def isAsciiBlank (b : UInt8) : Bool :=
  b == 0x20 || b == 0x09 || b == 0x0A || b == 0x0C || b == 0x0D

def trimBytes (field : List UInt8) : List UInt8 :=
  ((field.dropWhile isAsciiBlank).reverse.dropWhile isAsciiBlank).reverse

/-- A header and the records under it, each one read or refused. -/
structure Table where
  header : List String
  rows : List (Except Fault (List String))

def readRow (width : Nat) (record : Nat) (raw : RawRecord) : Except Fault (List String) := do
  if raw.fields.length ≠ width then throw (.width record raw.start raw.fields.length width)
  let fields ← decodeFields record raw.start 0 (raw.fields.map trimBytes)
  return fields.map Text.trim

def readRows (width : Nat) : Nat → List RawRecord → List (Except Fault (List String))
  | _, [] => []
  | i, raw :: rest => readRow width i raw :: readRows width (i + 1) rest

/-- Reads a table, trimming every field.  An input without records has an empty header. -/
def readTable (input : ByteArray) : Except Fault Table := do
  match rawRecords input.toList with
  | [] => return ⟨[], []⟩
  | raw :: rest =>
    let header ← decodeFields 0 raw.start 0 raw.fields
    return ⟨header.map Text.trim, readRows raw.fields.length 1 rest⟩

/-- A record with all its blanks. -/
def readWhole (width : Nat) (record : Nat) (raw : RawRecord) : Except Fault (List String) := do
  if raw.fields.length ≠ width then throw (.width record raw.start raw.fields.length width)
  decodeFields record raw.start 0 raw.fields

def readWholeFrom (width : Nat) : Nat → List RawRecord → Except Fault (List (List String))
  | _, [] => .ok []
  | i, raw :: rest => do
    let fields ← readWhole width i raw
    return fields :: (← readWholeFrom width (i + 1) rest)

/-- Reads all records without trimming.  The first one says how wide the others have to be. -/
def readRecords (input : ByteArray) : Except Fault (List (List String)) :=
  match rawRecords input.toList with
  | [] => .ok []
  | raw :: rest => readWholeFrom raw.fields.length 0 (raw :: rest)

end Csv
end MappingSweep
