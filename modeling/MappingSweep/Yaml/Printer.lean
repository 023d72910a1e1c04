import MappingSweep.Yaml.Resolution
import MappingSweep.Yaml.Token.Cursor

/-!
# Writing a document

A value as text in block layout, two columns for each level, sequences at the column of the key that
holds them.  Text stays plain where it reads back as the same text; otherwise it is single-quoted,
literal when it has line feeds, or double-quoted when it holds characters that need an escape.
-/

namespace MappingSweep
namespace Yaml

def isPlainPrintable (c : Char) : Bool :=
  let n := c.toNat
  n == 10 || (0x20 ≤ n && n ≤ 0x7E) || (0xA0 ≤ n && n ≤ 0xD7FF) ||
    (0xE000 ≤ n && n ≤ 0xFFFD && n != 0xFEFF) || 0x10000 ≤ n

def anyPair (p : Char → Char → Bool) (cs : List Char) : Bool :=
  (cs.zip (cs.drop 1)).any fun (a, b) => p a b

def opensIndicator (c : Char) : Bool :=
  "#,[]\x7b\x7d&*!|>'\"%@\x60".toList.contains c

/-- A colon that a blank follows, behind the first character. -/
def hasInnerColon : List Char → Bool
  | [] => false
  | c :: rest => (c == ':' && endsWord rest) || hasInnerColon rest

/-- Whether the text would be taken for something else than one plain scalar. -/
def hasIndicator (cs : List Char) : Bool :=
  match cs with
  | [] => false
  | c :: rest =>
    cs.take 3 == ['-', '-', '-'] || cs.take 3 == ['.', '.', '.'] || opensIndicator c ||
      ((c == '?' || c == ':' || c == '-') && endsWord rest) || hasInnerColon rest ||
        anyPair (fun a b => (isSpaceOrTab a || isBreak a) && b == '#') cs

def isSpecial (cs : List Char) : Bool :=
  cs.any (fun c => !isPlainPrintable c) || anyPair (fun a b => a == ' ' && isBreak b) cs

def isMultiline (cs : List Char) : Bool :=
  cs.any isBreak

def plainAllowed (cs : List Char) : Bool :=
  !(isSpecial cs || isMultiline cs || hasIndicator cs || cs.head? == some ' ' ||
    cs.getLast? == some ' ')

def singleQuotedAllowed (cs : List Char) : Bool :=
  !(isSpecial cs || anyPair (fun a b => isBreak a && b == ' ') cs)

def literalAllowed (cs : List Char) : Bool :=
  !(isSpecial cs || cs.getLast? == some ' ')

def readsAsText (s : String) : Bool :=
  match plainValue s with
  | .ok (.string _) => !isPaddedDigits s.toList
  | _ => false

def styleOf (isKey : Bool) (s : String) : ScalarStyle :=
  let cs := s.toList
  if isKey ∧ isMultiline cs then .doubleQuoted
  else if cs.contains '\n' then
    if literalAllowed cs ∧ ¬ isKey then .literal else .doubleQuoted
  else if readsAsText s ∧ plainAllowed cs then .plain
  else if singleQuotedAllowed cs then .singleQuoted
  else .doubleQuoted

/-- The text written so far, and where the next character goes. -/
structure Sheet where
  text : String := ""
  column : Nat := 0
  /-- The last thing written was blank. -/
  blank : Bool := true
  /-- Nothing but indentation and indicators stand on the line. -/
  indented : Bool := true

namespace Sheet

def put (s : Sheet) (c : Char) : Sheet :=
  { s with text := s.text.push c, column := s.column + 1 }

def putAll (s : Sheet) (cs : List Char) : Sheet :=
  cs.foldl put s

def putBreak (s : Sheet) (c : Char) : Sheet :=
  { s with text := s.text.push c, column := 0 }

/-- Goes to a column of a fresh line, staying on the line if only indentation stands on it. -/
def indentTo (s : Sheet) (indent : Nat) : Sheet :=
  let s := if ¬ s.indented ∨ indent < s.column ∨ (s.column = indent ∧ ¬ s.blank) then
    s.putBreak '\n' else s
  { s.putAll (List.replicate (indent - s.column) ' ') with blank := true, indented := true }

/-- Writes an indicator, after a space if one is needed and none is there. -/
def indicator (s : Sheet) (text : String) (needsBlank : Bool := true) (blank : Bool := false)
    (indents : Bool := false) : Sheet :=
  let s := if needsBlank ∧ ¬ s.blank then s.put ' ' else s
  { s.putAll text.toList with blank, indented := s.indented && indents }

def word (s : Sheet) (cs : List Char) : Sheet :=
  let s := if ¬ s.blank ∧ ¬ cs.isEmpty then s.put ' ' else s
  { s.putAll cs with blank := false, indented := false }

/-- The characters of a single-quoted scalar; lines after the first are indented. -/
def quotedChars (indent : Nat) : (broken : Bool) → Sheet → List Char → Sheet
  | broken, s, [] => if broken then s.indentTo indent else s
  | broken, s, c :: rest =>
    if c = ' ' then quotedChars indent broken (s.put ' ') rest
    else if isBreak c then
      let s := if ¬ broken ∧ c = '\n' then s.putBreak '\n' else s
      quotedChars indent true { s.putBreak c with indented := true } rest
    else
      let s := if broken then s.indentTo indent else s
      let s := if c = '\'' then s.put '\'' else s
      quotedChars indent false { s.put c with indented := false } rest

def singleQuoted (s : Sheet) (indent : Nat) (cs : List Char) : Sheet :=
  let s := quotedChars indent false (s.indicator "'") cs
  { s.indicator "'" false with blank := false, indented := false }

def shortEscapeOf? (c : Char) : Option Char :=
  match c with
  | '\x00' => some '0'
  | '\x07' => some 'a'
  | '\x08' => some 'b'
  | '\t' => some 't'
  | '\n' => some 'n'
  | '\x0b' => some 'v'
  | '\x0c' => some 'f'
  | '\r' => some 'r'
  | '\x1b' => some 'e'
  | '"' => some '"'
  | '\\' => some '\\'
  | '\u0085' => some 'N'
  | '\u00a0' => some '_'
  | '\u2028' => some 'L'
  | '\u2029' => some 'P'
  | _ => none

def upperHex (width n : Nat) : List Char :=
  (MappingSweep.Number.padded 16 width n).map Char.toUpper

def escaped (c : Char) : List Char :=
  if isPlainPrintable c ∧ ¬ isBreak c ∧ c ≠ '"' ∧ c ≠ '\\' then [c] else
  match shortEscapeOf? c with
  | some d => ['\\', d]
  | none =>
    if c.toNat ≤ 0xFF then '\\' :: 'x' :: upperHex 2 c.toNat
    else if c.toNat ≤ 0xFFFF then '\\' :: 'u' :: upperHex 4 c.toNat
    else '\\' :: 'U' :: upperHex 8 c.toNat

def doubleQuoted (s : Sheet) (cs : List Char) : Sheet :=
  let s := (s.indicator "\"").putAll (cs.flatMap escaped)
  { s.indicator "\"" false with blank := false, indented := false }

def literalHeader (cs : List Char) : List Char :=
  let first := if cs.head?.any (fun c => c == ' ' || isBreak c) then ['2'] else []
  let last := match cs.reverse with
    | [] => ['-']
    | [c] => if isBreak c then ['+'] else ['-']
    | c :: d :: _ => if isBreak c then (if isBreak d then ['+'] else []) else ['-']
  '|' :: (first ++ last)

def literalChars (indent : Nat) : (broken : Bool) → Sheet → List Char → Sheet
  | _, s, [] => s
  | broken, s, c :: rest =>
    if isBreak c then
      let c' := if c = '\u2028' ∨ c = '\u2029' then c else '\n'
      literalChars indent true { s.putBreak c' with indented := true } rest
    else
      let s := if broken then s.indentTo indent else s
      literalChars indent false { s.put c with indented := false } rest

def literal (s : Sheet) (indent : Nat) (cs : List Char) : Sheet :=
  let s := (s.indicator (String.ofList (literalHeader cs))).putBreak '\n'
  literalChars indent true { s with indented := true, blank := true } cs

/-- A text in its style.  `indent` is the column of continued lines. -/
def scalar (s : Sheet) (indent : Nat) (isKey : Bool) (text : String) : Sheet :=
  let cs := text.toList
  match styleOf isKey text with
  | .plain => s.word cs
  | .singleQuoted => s.singleQuoted indent cs
  | .literal => s.literal indent cs
  | _ => s.doubleQuoted cs

end Sheet

/-- The longest key, in octets, that is written on one line with its colon. -/
def simpleKeyBound : Nat := 128

def isSimpleKey : Value → Bool
  | .string s => !isMultiline s.toList && s.utf8ByteSize ≤ simpleKeyBound
  | .sequence items => items.isEmpty
  | .mapping entries => entries.isEmpty
  | .tagged .. => false
  | _ => true

structure Place where
  /-- The column of the enclosing block; none at the root. -/
  indent : Option Nat := none
  isKey : Bool := false
  isMappingPart : Bool := false

def Place.textIndent (p : Place) : Nat :=
  match p.indent with
  | some i => i + 2
  | none => 2

def Place.blockIndent (p : Place) : Nat :=
  match p.indent with
  | some i => i + 2
  | none => 0

mutual

def Sheet.node (s : Sheet) (p : Place) : Value → Sheet
  | .null => s.word "null".toList
  | .bool b => s.word (boolText b).toList
  | .number n => s.word n.text.toList
  | .string text => s.scalar p.textIndent p.isKey text
  | .sequence [] => (s.indicator "[" true true).indicator "]" false
  | .mapping [] => (s.indicator "\x7b" true true).indicator "\x7d" false
  | .sequence items =>
    let indent := if p.isMappingPart ∧ ¬ s.indented then p.indent.getD 0 else p.blockIndent
    s.items indent items
  | .mapping entries => s.entries p.blockIndent entries
  | .tagged tag v => (s.indicator (Value.shownTag tag)).node p v

def Sheet.items (s : Sheet) (indent : Nat) : List Value → Sheet
  | [] => s
  | v :: rest =>
    let s := (s.indentTo indent).indicator "-" true false true
    (s.node { indent } v).items indent rest

def Sheet.entries (s : Sheet) (indent : Nat) : List (Value × Value) → Sheet
  | [] => s
  | (k, v) :: rest =>
    let part : Place := { indent, isMappingPart := true }
    let s := s.indentTo indent
    let s :=
      if isSimpleKey k then (s.node { part with isKey := true } k).indicator ":" false
      else ((s.indicator "?" true false true).node part k).indentTo indent
          |>.indicator ":" true false true
    (s.node part v).entries indent rest

end

def print (v : Value) : String :=
  (({} : Sheet).node {} v |>.indentTo 0).text

end Yaml
end MappingSweep
