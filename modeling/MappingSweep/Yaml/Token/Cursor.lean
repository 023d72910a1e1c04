import MappingSweep.Number.Numeral

/-!
# Reading position

A cursor is the text that is still to be read together with where it stands: how many characters
were read, and the line and column.  Five characters or pairs end a line.
-/

namespace MappingSweep
namespace Yaml

def isSpaceOrTab (c : Char) : Bool :=
  c == ' ' || c == '\t'

def isBreak (c : Char) : Bool :=
  c == '\n' || c == '\r' || c == '\u0085' || c == '\u2028' || c == '\u2029'

/-- Letters, digits, underscore and dash, all ASCII. -/
def isWordChar (c : Char) : Bool :=
  c.isAlphanum || c == '_' || c == '-'

def isAllowed (c : Char) : Bool :=
  let n := c.toNat
  n == 9 || n == 10 || n == 13 || (0x20 ≤ n && n ≤ 0x7E) || n == 0x85 ||
    (0xA0 ≤ n && n ≤ 0xD7FF) || (0xE000 ≤ n && n ≤ 0xFFFD) || 0x10000 ≤ n

def endsWord : List Char → Bool
  | [] => true
  | c :: _ => isSpaceOrTab c || isBreak c

def endsLine : List Char → Bool
  | [] => true
  | c :: _ => isBreak c

structure Cursor where
  rest : List Char
  index : Nat := 0
  line : Nat := 0
  column : Nat := 0

namespace Cursor

def advance (cur : Cursor) (n : Nat) : Cursor :=
  { cur with
    rest := cur.rest.drop n
    index := cur.index + n
    column := cur.column + n }

/-- The longest run of characters with a property, and the cursor behind it. -/
def span (cur : Cursor) (p : Char → Bool) : List Char × Cursor :=
  let run := cur.rest.takeWhile p
  (run, cur.advance run.length)

def skipWhile (cur : Cursor) (p : Char → Bool) : Cursor :=
  (cur.span p).2

def nextLine (cur : Cursor) (n : Nat) : Cursor where
  rest := cur.rest.drop n
  index := cur.index + n
  line := cur.line + 1
  column := 0

/-- A line break as it counts in a scalar, and the cursor on the next line. -/
def breakLine? (cur : Cursor) : Option (Char × Cursor) :=
  match cur.rest with
  | '\r' :: '\n' :: _ => some ('\n', cur.nextLine 2)
  | c :: _ =>
    if c == '\u2028' || c == '\u2029' then some (c, cur.nextLine 1)
    else if isBreak c then some ('\n', cur.nextLine 1)
    else none
  | [] => none

/-- Whether the line starts with three of the given character and then ends the word. -/
def atMarker (cur : Cursor) (c : Char) : Bool :=
  cur.column == 0 && cur.rest.take 3 == [c, c, c] && endsWord (cur.rest.drop 3)

def atDocumentMarker (cur : Cursor) : Bool :=
  cur.atMarker '-' || cur.atMarker '.'

end Cursor
end Yaml
end MappingSweep
