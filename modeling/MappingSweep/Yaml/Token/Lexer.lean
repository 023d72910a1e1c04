import MappingSweep.Yaml.Token
import MappingSweep.Yaml.Token.Scalar

/-!
# From text to tokens

The lexer keeps the indentation of the open blocks and, for each open flow collection, the token
that may still turn out to be a mapping key.  When the colon after such a token is found, the key
token, and if need be the start of a block mapping, are put in front of it.
-/

namespace MappingSweep
namespace Yaml

/-- A token that becomes a key if a colon follows it on its line. -/
structure PendingKey where
  /-- The block structure leaves no other reading. -/
  required : Bool
  /-- How many tokens stand before it. -/
  position : Nat
  index : Nat
  line : Nat
  column : Nat

/-- A pending key has to end on its line and within this many characters. -/
def keyReach : Nat := 1024

structure Lexer where
  cursor : Cursor
  tokens : Array Token := #[]
  /-- One entry for the block context and one for each open flow collection, innermost first. -/
  pending : List (Option PendingKey) := [none]
  flowDepth : Nat := 0
  indent : Int := -1
  outerIndents : List Int := []
  keyAllowed : Bool := true

namespace Lexer

def inFlow (lx : Lexer) : Bool :=
  lx.flowDepth != 0

def emit (lx : Lexer) (t : Token) : Lexer :=
  { lx with tokens := lx.tokens.push t }

def emitAt (lx : Lexer) (position : Nat) (t : Token) : Lexer :=
  { lx with tokens := lx.tokens.insertIdxIfInBounds position t }

def advance (lx : Lexer) (n : Nat) : Lexer :=
  { lx with cursor := lx.cursor.advance n }

/-- Closes the blocks that are indented further than `column`. -/
def closeBlocks (column : Int) (lx : Lexer) : List Int → Lexer
  | [] => lx
  | outer :: more =>
    if column < lx.indent then
      closeBlocks column { lx.emit .blockEnd with indent := outer, outerIndents := more } more
    else lx

def unindent (lx : Lexer) (column : Int) : Lexer :=
  if lx.inFlow then lx else lx.closeBlocks column lx.outerIndents

/-- Opens a block at `column` unless one is open there, with its token at the given position. -/
def openBlock (lx : Lexer) (column : Nat) (t : Token) (position : Option Nat) : Lexer :=
  if lx.inFlow ∨ ¬ lx.indent < column then lx else
  let lx := { lx with indent := column, outerIndents := lx.indent :: lx.outerIndents }
  match position with
  | some i => if i < lx.tokens.size then lx.emitAt i t else lx.emit t
  | none => lx.emit t

/-- Gives up keys that a line end or their length has ruled out. -/
def dropStale (lx : Lexer) : Except Fault Lexer := do
  let pending ← lx.pending.mapM fun
    | some k =>
      if k.line < lx.cursor.line ∨ k.index + keyReach < lx.cursor.index then
        if k.required then throw .keyWithoutValue else pure none
      else pure (some k)
    | none => pure none
  return { lx with pending }

def setPending (lx : Lexer) (k : Option PendingKey) : Lexer :=
  { lx with pending := k :: lx.pending.drop 1 }

def forgetKey (lx : Lexer) : Except Fault Lexer :=
  if lx.pending.head?.join.any (·.required) then .error .keyWithoutValue
  else .ok (lx.setPending none)

/-- Remembers that the next token may be a key. -/
def rememberKey (lx : Lexer) : Except Fault Lexer := do
  if ¬ lx.keyAllowed then return lx
  let cur := lx.cursor
  let k : PendingKey :=
    { required := !lx.inFlow && lx.indent == cur.column
      position := lx.tokens.size
      index := cur.index
      line := cur.line
      column := cur.column }
  return (← lx.forgetKey).setPending (some k)

def skipBlank : Nat → Lexer → Lexer
  | 0, lx => lx
  | fuel + 1, lx =>
    let cur := lx.cursor
    let cur := if cur.index = 0 ∧ cur.rest.head? = some '\ufeff' then cur.advance 1 else cur
    let tabs := lx.inFlow || !lx.keyAllowed
    let cur := cur.skipWhile fun c => c == ' ' || (tabs && c == '\t')
    let cur := if cur.rest.head? = some '#' then cur.skipWhile (fun c => !isBreak c) else cur
    match cur.breakLine? with
    | some (_, next) =>
      skipBlank fuel { lx with cursor := next, keyAllowed := lx.keyAllowed || !lx.inFlow }
    | none => { lx with cursor := cur }

def uriChar (verbatim : Bool) (c : Char) : Bool :=
  isWordChar c || ";/?:@&=+$.!~*'()".toList.contains c ||
    (verbatim && [',', '[', ']'].contains c)

def percentOctet? : List Char → Option (Nat × List Char)
  | '%' :: a :: b :: rest => (Number.readNat 16 [a, b]).map fun n => (n, rest)
  | _ => none

/-- The length that the first octet of an encoded character announces. -/
def encodedLength? (octet : Nat) : Option Nat :=
  if octet < 0x80 then some 1
  else if 0xC0 ≤ octet ∧ octet < 0xE0 then some 2
  else if 0xE0 ≤ octet ∧ octet < 0xF0 then some 3
  else if 0xF0 ≤ octet ∧ octet < 0xF8 then some 4
  else none

/-- The following octets of an encoded character. -/
def followingOctets : Nat → List Char → Option (List Nat × List Char)
  | 0, cs => some ([], cs)
  | n + 1, cs => do
    let (octet, rest) ← percentOctet? cs
    if octet / 64 ≠ 2 then none else
    let (more, rest) ← followingOctets n rest
    some (octet :: more, rest)

def percentChar? (cs : List Char) : Option (Char × List Char) := do
  let (first, rest) ← percentOctet? cs
  let length ← encodedLength? first
  let (more, rest) ← followingOctets (length - 1) rest
  let bytes := ByteArray.mk ((first :: more).map (UInt8.ofNat ·)).toArray
  let s ← String.fromUTF8? bytes
  let c ← s.toList.head?
  some (c, rest)

/-- The characters of a tag's suffix or prefix, and what follows them. -/
def uriText (verbatim : Bool) : Nat → List Char → Except Fault (List Char × List Char)
  | 0, cs => .ok ([], cs)
  | fuel + 1, cs =>
    match cs with
    | [] => .ok ([], [])
    | '%' :: _ => do
      let some (c, rest) := percentChar? cs | throw .tag
      let (more, rest) ← uriText verbatim fuel rest
      return (c :: more, rest)
    | c :: rest =>
      if uriChar verbatim c then do
        let (more, rest) ← uriText verbatim fuel rest
        return (c :: more, rest)
      else .ok ([], cs)

def readUri (verbatim : Bool) (cur : Cursor) : Except Fault (List Char × Cursor) := do
  let (text, rest) ← uriText verbatim (cur.rest.length + 1) cur.rest
  return (text, cur.advance (cur.rest.length - rest.length))

/-- An exclamation mark, word characters, and the closing exclamation mark if there is one. -/
def readHandle (cur : Cursor) : Except Fault (List Char × Cursor) := do
  if cur.rest.head? ≠ some '!' then throw .tag
  let (word, cur) := (cur.advance 1).span isWordChar
  if cur.rest.head? = some '!' then return ('!' :: (word ++ ['!']), cur.advance 1)
  else return ('!' :: word, cur)

/-- At the end of a directive only blanks and a comment may follow. -/
def endDirective (cur : Cursor) : Except Fault Cursor := do
  let cur := cur.skipWhile isSpaceOrTab
  let cur := if cur.rest.head? = some '#' then cur.skipWhile (fun c => !isBreak c) else cur
  if ¬ endsLine cur.rest then throw .directive
  match cur.breakLine? with
  | some (_, next) => return next
  | none => return cur

def readVersionNumber (cur : Cursor) : Except Fault (Nat × Cursor) := do
  let (ds, cur) := cur.span Number.isDigit
  if 9 < ds.length then throw .directive
  match Number.readNat 10 ds with
  | some n => return (n, cur)
  | none => throw .directive

def readDirective (cur : Cursor) : Except Fault (Token × Cursor) := do
  let (name, cur) := (cur.advance 1).span isWordChar
  if ¬ endsWord cur.rest then throw .directive
  let cur := cur.skipWhile isSpaceOrTab
  if name = "YAML".toList then
    let (major, cur) ← readVersionNumber cur
    if cur.rest.head? ≠ some '.' then throw .directive
    let (minor, cur) ← readVersionNumber (cur.advance 1)
    return (.version major minor, ← endDirective cur)
  else if name = "TAG".toList then
    let (handle, cur) ← readHandle cur
    if handle ≠ ['!'] ∧ (handle.length = 1 ∨ handle.getLast? ≠ some '!') then throw .directive
    if ¬ cur.rest.head?.any isSpaceOrTab then throw .directive
    let (text, cur) ← readUri true (cur.skipWhile isSpaceOrTab)
    if text.isEmpty ∨ ¬ endsWord cur.rest then throw .directive
    return (.tagHandle (String.ofList handle) (String.ofList text), ← endDirective cur)
  else throw .directive

/-- A tag in its three forms: verbatim, with a named handle, and with the primary handle. -/
def readTag (inFlow : Bool) (cur : Cursor) : Except Fault (Token × Cursor) := do
  let (handle, suffix, cur) ←
    if cur.rest.drop 1 |>.head?.any (· == '<') then do
      let (text, cur) ← readUri true (cur.advance 2)
      if text.isEmpty ∨ cur.rest.head? ≠ some '>' then throw .tag
      pure ([], text, cur.advance 1)
    else do
      let (handle, cur) ← readHandle cur
      let (text, cur) ← readUri false cur
      if 1 < handle.length ∧ handle.getLast? = some '!' then
        if text.isEmpty then throw .tag
        pure (handle, text, cur)
      else
        let suffix := handle.drop 1 ++ text
        if suffix.isEmpty then pure ([], ['!'], cur) else pure (['!'], suffix, cur)
  if ¬ endsWord cur.rest ∧ ¬ (inFlow ∧ cur.rest.head? = some ',') then throw .tag
  return (.tag (String.ofList handle) (String.ofList suffix), cur)

def readName (cur : Cursor) : Except Fault (String × Cursor) := do
  let (name, cur) := (cur.advance 1).span isWordChar
  if name.isEmpty ∨ ¬ (endsWord cur.rest ∨ cur.rest.head?.any "?:,]\x7d%@\x60".toList.contains) then
    throw .anchorName
  return (String.ofList name, cur)

/-! ## One token -/

def plainStart (inFlow : Bool) (c : Char) (rest : List Char) : Bool :=
  !("-?:,[]\x7b\x7d#&*!|>'\"%@\x60".toList.contains c || isSpaceOrTab c || isBreak c) ||
    (c == '-' && !rest.head?.any isSpaceOrTab) ||
    (!inFlow && (c == '?' || c == ':') && !endsWord rest)

/-- A token that only the block context or the start of a document has. -/
def single (lx : Lexer) (n : Nat) (t : Token) : Lexer :=
  (lx.advance n).emit t

def lexScalar (lx : Lexer) (style : ScalarStyle) (text : List Char) (cur : Cursor) : Lexer :=
  { lx.emit (.scalar (String.ofList text) style) with cursor := cur }

def lexFlowStart (lx : Lexer) (t : Token) : Except Fault Lexer := do
  let lx ← lx.rememberKey
  return { lx.single 1 t with
    pending := none :: lx.pending
    flowDepth := lx.flowDepth + 1
    keyAllowed := true }

def lexFlowEnd (lx : Lexer) (t : Token) : Except Fault Lexer := do
  let lx ← lx.forgetKey
  let lx := if lx.inFlow then
    { lx with flowDepth := lx.flowDepth - 1, pending := lx.pending.drop 1 } else lx
  return { lx.single 1 t with keyAllowed := false }

def lexEntry (lx : Lexer) : Except Fault Lexer := do
  if ¬ lx.inFlow ∧ ¬ lx.keyAllowed then throw .entryNotAllowed
  let lx ← (lx.openBlock lx.cursor.column .blockSequenceStart none).forgetKey
  return { lx.single 1 .blockEntry with keyAllowed := true }

def lexKey (lx : Lexer) : Except Fault Lexer := do
  if ¬ lx.inFlow ∧ ¬ lx.keyAllowed then throw .keyNotAllowed
  let lx ← (lx.openBlock lx.cursor.column .blockMappingStart none).forgetKey
  return { lx.single 1 .key with keyAllowed := !lx.inFlow }

def lexValue (lx : Lexer) : Except Fault Lexer := do
  match lx.pending.head?.join with
  | some k =>
    let lx := lx.emitAt k.position .key
    let lx := (lx.openBlock k.column .blockMappingStart (some k.position)).setPending none
    return { lx.single 1 .value with keyAllowed := false }
  | none =>
    if ¬ lx.inFlow ∧ ¬ lx.keyAllowed then throw .valueNotAllowed
    let lx := lx.openBlock lx.cursor.column .blockMappingStart none
    return { lx.single 1 .value with keyAllowed := !lx.inFlow }

/-- Closes all blocks, as the markers of a document and the end of the text do. -/
def leaveDocument (lx : Lexer) : Except Fault Lexer := do
  let lx ← (lx.unindent (-1)).forgetKey
  return { lx with keyAllowed := false }

/-- Reads the token at the cursor, which stands on its first character. -/
def lexToken (lx : Lexer) (c : Char) (rest : List Char) : Except Fault Lexer := do
  let cur := lx.cursor
  if cur.column = 0 ∧ c = '%' then
    let lx ← lx.leaveDocument
    let (t, cur) ← readDirective cur
    return { lx.emit t with cursor := cur }
  if cur.atMarker '-' then return (← lx.leaveDocument).single 3 .documentStart
  if cur.atMarker '.' then return (← lx.leaveDocument).single 3 .documentEnd
  if c = '[' then return ← lx.lexFlowStart .flowSequenceStart
  if c = '{' then return ← lx.lexFlowStart .flowMappingStart
  if c = ']' then return ← lx.lexFlowEnd .flowSequenceEnd
  if c = '}' then return ← lx.lexFlowEnd .flowMappingEnd
  if c = ',' then return { (← lx.forgetKey).single 1 .flowEntry with keyAllowed := true }
  if c = '-' ∧ endsWord rest then return ← lx.lexEntry
  if c = '?' ∧ (lx.inFlow ∨ endsWord rest) then return ← lx.lexKey
  if c = ':' ∧ (lx.inFlow ∨ endsWord rest) then return ← lx.lexValue
  if c = '*' ∨ c = '&' then
    let lx ← lx.rememberKey
    let (name, cur) ← readName cur
    return { lx.emit (if c = '*' then .alias name else .anchor name) with
      cursor := cur, keyAllowed := false }
  if c = '!' then
    let lx ← lx.rememberKey
    let (t, cur) ← readTag lx.inFlow cur
    return { lx.emit t with cursor := cur, keyAllowed := false }
  if (c = '|' ∨ c = '>') ∧ ¬ lx.inFlow then
    let lx ← lx.forgetKey
    let (text, cur) ← readBlock (c == '|') lx.indent (cur.advance 1)
    return { lx.lexScalar (if c = '|' then .literal else .folded) text cur with keyAllowed := true }
  if c = '\'' ∨ c = '"' then
    let lx ← lx.rememberKey
    let (text, cur) ← readQuoted (c == '\'') (rest.length + 1) [] (cur.advance 1)
    return { lx.lexScalar (if c = '\'' then .singleQuoted else .doubleQuoted) text cur with
      keyAllowed := false }
  if plainStart lx.inFlow c rest then
    let lx ← lx.rememberKey
    let (text, broken, cur) ←
      readPlain lx.inFlow (lx.indent + 1) (cur.rest.length + 1) [] {} cur
    return { lx.lexScalar .plain text cur with keyAllowed := broken }
  throw .strayCharacter

def run : Nat → Lexer → Except Fault (Array Token)
  | 0, _ => .error .strayCharacter
  | fuel + 1, lx => do
    let lx ← (lx.skipBlank (lx.cursor.rest.length + 1)).dropStale
    let lx := lx.unindent lx.cursor.column
    match lx.cursor.rest with
    | [] => return (← lx.leaveDocument).tokens.push .streamEnd
    | c :: rest => run fuel (← lx.lexToken c rest)

end Lexer

def tokenize (text : List Char) : Except Fault (Array Token) :=
  if text.all isAllowed then Lexer.run (text.length + 1) { cursor := { rest := text } }
  else .error .forbiddenCharacter

end Yaml
end MappingSweep
