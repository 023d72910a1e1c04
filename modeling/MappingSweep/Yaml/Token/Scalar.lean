import MappingSweep.Yaml.Fault
import MappingSweep.Yaml.Token.Cursor

/-!
# Scalar content

The text that plain, quoted and block scalars stand for.  Line breaks fold: a single one between
two pieces of text becomes a space, and of several the first is dropped.
-/

namespace MappingSweep
namespace Yaml

/-- What separates two pieces: blanks on one line, or line breaks.  Lists are in reverse. -/
structure Gap where
  broken : Bool := false
  blanks : List Char := []
  firstBreak : Option Char := none
  moreBreaks : List Char := []

namespace Gap

def text (g : Gap) : List Char :=
  if g.broken then
    match g.firstBreak with
    | some '\n' => if g.moreBreaks.isEmpty then [' '] else g.moreBreaks.reverse
    | some c => c :: g.moreBreaks.reverse
    | none => g.moreBreaks.reverse
  else g.blanks.reverse

def addBreak (g : Gap) (c : Char) : Gap :=
  if g.broken then { g with moreBreaks := c :: g.moreBreaks }
  else { g with broken := true, blanks := [], firstBreak := some c }

def addBlank (g : Gap) (c : Char) : Gap :=
  if g.broken then g else { g with blanks := c :: g.blanks }

end Gap

/-- Reads blanks and breaks.  A tab left of `indent` at the start of a line is a fault. -/
def readGap (indent : Option Int) : Nat → Gap → Cursor → Except Fault (Gap × Cursor)
  | 0, g, cur => .ok (g, cur)
  | fuel + 1, g, cur =>
    match cur.breakLine? with
    | some (c, next) => readGap indent fuel (g.addBreak c) next
    | none =>
      match cur.rest with
      | c :: _ =>
        if c = '\t' ∧ g.broken ∧ indent.any (fun i => (cur.column : Int) < i) then .error .tabIndent
        else if isSpaceOrTab c then readGap indent fuel (g.addBlank c) (cur.advance 1)
        else .ok (g, cur)
      | [] => .ok (g, cur)

def isFlowIndicator (c : Char) : Bool :=
  c == ',' || c == '[' || c == ']' || c == '{' || c == '}'

/-- The piece of a plain scalar up to a blank, a break or an indicator that ends it. -/
def plainPiece (inFlow : Bool) : List Char → Except Fault (List Char)
  | [] => .ok []
  | ':' :: rest =>
    if inFlow ∧ rest.head?.any (fun c => isFlowIndicator c || c == '?') then .error .colonInFlow
    else if endsWord rest then .ok []
    else (plainPiece inFlow rest).map (':' :: ·)
  | c :: rest =>
    if isSpaceOrTab c ∨ isBreak c ∨ (inFlow ∧ isFlowIndicator c) then .ok []
    else (plainPiece inFlow rest).map (c :: ·)

/-- Reads pieces and gaps.  The answer tells whether the scalar was followed by a line break. -/
def readPlain (inFlow : Bool) (indent : Int) :
    Nat → List Char → Gap → Cursor → Except Fault (List Char × Bool × Cursor)
  | 0, acc, g, cur => .ok (acc, g.broken, cur)
  | fuel + 1, acc, g, cur => do
    if cur.atDocumentMarker ∨ cur.rest.head? = some '#' then return (acc, g.broken, cur)
    let piece ← plainPiece inFlow cur.rest
    if piece.isEmpty then return (acc, g.broken, cur)
    let acc := acc ++ g.text ++ piece
    let cur := cur.advance piece.length
    if cur.rest.isEmpty ∨ ¬ endsWord cur.rest then return (acc, false, cur)
    let (g, cur) ← readGap (some indent) (cur.rest.length + 1) {} cur
    if ¬ inFlow ∧ (cur.column : Int) < indent then return (acc, g.broken, cur)
    readPlain inFlow indent fuel acc g cur

def shortEscape? : Char → Option Char
  | '0' => some '\x00'
  | 'a' => some '\x07'
  | 'b' => some '\x08'
  | 't' => some '\t'
  | '\t' => some '\t'
  | 'n' => some '\n'
  | 'v' => some '\x0b'
  | 'f' => some '\x0c'
  | 'r' => some '\r'
  | 'e' => some '\x1b'
  | ' ' => some ' '
  | '"' => some '"'
  | '/' => some '/'
  | '\\' => some '\\'
  | 'N' => some '\u0085'
  | '_' => some '\u00a0'
  | 'L' => some '\u2028'
  | 'P' => some '\u2029'
  | _ => none

def escapeWidth? : Char → Option Nat
  | 'x' => some 2
  | 'u' => some 4
  | 'U' => some 8
  | _ => none

def isScalarValue (n : Nat) : Bool :=
  n < 0xD800 || (0xDFFF < n && n ≤ 0x10FFFF)

/-- The character that an escape stands for and the length of the escape after the backslash. -/
def readEscape (cs : List Char) : Except Fault (Char × Nat) :=
  match cs with
  | [] => .error .escape
  | c :: rest =>
    match shortEscape? c, escapeWidth? c with
    | some d, _ => .ok (d, 1)
    | none, some width =>
      let ds := rest.take width
      match Number.readNat 16 ds with
      | some n =>
        if ds.length = width ∧ isScalarValue n then .ok (Char.ofNat n, width + 1)
        else .error .escape
      | none => .error .escape
    | none, none => .error .escape

/-- A run of a quoted scalar without blanks.  The answer tells whether an escaped line break ended
it; the characters are in reverse. -/
def quotedRun (single : Bool) :
    Nat → List Char → Cursor → Except Fault (List Char × Bool × Cursor)
  | 0, acc, cur => .ok (acc, false, cur)
  | fuel + 1, acc, cur =>
    match cur.rest with
    | [] => .ok (acc, false, cur)
    | c :: rest =>
      if isSpaceOrTab c ∨ isBreak c then .ok (acc, false, cur)
      else if single then
        if c = '\'' then
          if rest.head? = some '\'' then quotedRun single fuel ('\'' :: acc) (cur.advance 2)
          else .ok (acc, false, cur)
        else quotedRun single fuel (c :: acc) (cur.advance 1)
      else if c = '"' then .ok (acc, false, cur)
      else if c = '\\' then
        match (cur.advance 1).breakLine? with
        | some (_, next) => .ok (acc, true, next)
        | none => do
          let (d, n) ← readEscape rest
          quotedRun single fuel (d :: acc) (cur.advance (n + 1))
      else quotedRun single fuel (c :: acc) (cur.advance 1)

/-- The content of a quoted scalar from behind its opening quote, and the cursor behind the closing
one. -/
def readQuoted (single : Bool) :
    Nat → List Char → Cursor → Except Fault (List Char × Cursor)
  | 0, _, _ => .error .unclosedQuote
  | fuel + 1, acc, cur => do
    if cur.atDocumentMarker then throw .documentMarker
    if cur.rest.isEmpty then throw .unclosedQuote
    let (acc, escaped, cur) ← quotedRun single (cur.rest.length + 1) acc cur
    if cur.rest.head? = some (if single then '\'' else '"') then
      return (acc.reverse, cur.advance 1)
    let (g, cur) ← readGap none (cur.rest.length + 1) { broken := escaped } cur
    readQuoted single fuel (g.text.reverse ++ acc) cur

inductive Chomping where
  | strip
  | clip
  | keep
deriving DecidableEq

structure BlockHeader where
  chomping : Chomping := .clip
  increment : Option Nat := none

def chompingOf? : Char → Option Chomping
  | '+' => some .keep
  | '-' => some .strip
  | _ => none

def readBlockHeader (cs : List Char) : Except Fault (BlockHeader × Nat) :=
  let digit? (c : Char) : Option Nat := if Number.isDigit c then some (c.toNat - 48) else none
  match cs with
  | [] => .ok ({}, 0)
  | c :: rest =>
    match chompingOf? c, digit? c with
    | some chomping, _ =>
      match rest.head?.bind digit? with
      | some 0 => .error .blockHeader
      | some d => .ok ({ chomping, increment := some d }, 2)
      | none => .ok ({ chomping }, 1)
    | none, some 0 => .error .blockHeader
    | none, some d =>
      match rest.head?.bind chompingOf? with
      | some chomping => .ok ({ chomping, increment := some d }, 2)
      | none => .ok ({ increment := some d }, 1)
    | none, none => .ok ({}, 0)

/-- Reads empty lines and the indentation of the next one.  Without an indentation given, answers
the greatest column that was reached. -/
def readBlockBreaks (indent : Option Nat) :
    Nat → Nat → List Char → Cursor → Except Fault (Nat × List Char × Cursor)
  | 0, reached, breaks, cur => .ok (reached, breaks, cur)
  | fuel + 1, reached, breaks, cur =>
    let room := match indent with
      | some i => i - cur.column
      | none => cur.rest.length
    let spaces := (cur.rest.take room).takeWhile (· == ' ')
    let cur := cur.advance spaces.length
    let reached := max reached cur.column
    if cur.rest.head? = some '\t' ∧ indent.all (cur.column < ·) then .error .tabIndent
    else match cur.breakLine? with
      | some (c, next) => readBlockBreaks indent fuel reached (c :: breaks) next
      | none => .ok (reached, breaks, cur)

structure BlockState where
  text : List Char := []
  leadingBreak : Option Char := none
  trailing : List Char := []
  leadingBlank : Bool := false

/-- The lines of a block scalar, with the text in reverse. -/
def readBlockLines (literal : Bool) (indent : Nat) :
    Nat → BlockState → Cursor → Except Fault (BlockState × Cursor)
  | 0, st, cur => .ok (st, cur)
  | fuel + 1, st, cur => do
    if cur.column ≠ indent ∨ cur.rest.isEmpty then return (st, cur)
    let blank := cur.rest.head?.any isSpaceOrTab
    let joined :=
      if ¬ literal ∧ st.leadingBreak = some '\n' ∧ ¬ st.leadingBlank ∧ ¬ blank then
        if st.trailing.isEmpty then [' '] else []
      else st.leadingBreak.toList
    let (line, cur) := cur.span (fun c => !isBreak c)
    let text := line.reverse ++ st.trailing ++ joined ++ st.text
    match cur.breakLine? with
    | some (c, next) =>
      let (_, trailing, next) ← readBlockBreaks (some indent) (next.rest.length + 1) 0 [] next
      readBlockLines literal indent fuel ⟨text, some c, trailing, blank⟩ next
    | none => return (⟨text, none, [], blank⟩, cur)

/-- A block scalar from behind its indicator, inside a block indented by `outer`. -/
def readBlock (literal : Bool) (outer : Int) (cur : Cursor) :
    Except Fault (List Char × Cursor) := do
  let (header, n) ← readBlockHeader cur.rest
  let cur := (cur.advance n).skipWhile isSpaceOrTab
  let cur := if cur.rest.head? = some '#' then cur.skipWhile (fun c => !isBreak c) else cur
  if ¬ endsLine cur.rest then throw .blockHeader
  let cur := match cur.breakLine? with
    | some (_, next) => next
    | none => cur
  let given := header.increment.map fun n => ((max outer 0) + n).toNat
  let (reached, breaks, cur) ← readBlockBreaks given (cur.rest.length + 1) 0 [] cur
  let indent := given.getD (max (max reached (outer + 1).toNat) 1)
  let (st, cur) ← readBlockLines literal indent (cur.rest.length + 1) { trailing := breaks } cur
  let text := match header.chomping with
    | .strip => st.text
    | .clip => st.leadingBreak.toList ++ st.text
    | .keep => st.trailing ++ st.leadingBreak.toList ++ st.text
  return (text.reverse, cur)

end Yaml
end MappingSweep
