import MappingSweep.Yaml.Fault
import MappingSweep.Yaml.Token

/-!
# From tokens to nodes

The structure of one document.  Aliases stay in place and carry the number of their anchor.  An
anchor's number is how many names were in use before it, so an anchor that reuses a name takes the
number that the next new name takes as well; the node that took a number last is the one an alias
with that number stands for.
-/

namespace MappingSweep
namespace Yaml

inductive Node where
  | scalar (tag : Option String) (text : String) (style : ScalarStyle)
  | sequence (tag : Option String) (items : List Node)
  | mapping (tag : Option String) (entries : List (Node × Node))
  | alias (number : Nat)
deriving Inhabited

/-- A document: its root, unless the text holds no document at all, and its anchored nodes. -/
structure Document where
  root : Option Node
  anchored : List (Nat × Node)
  /-- Scalars and aliases count once, collections twice. -/
  size : Nat

namespace Node

structure Builder where
  tokens : List Token
  handles : List (String × String) := []
  names : List (String × Nat) := []
  /-- Which anchored node took a number, latest first. -/
  holders : List (Nat × Nat) := []
  finished : List (Nat × Node) := []
  size : Nat := 0

abbrev Build (α : Type) : Type :=
  StateT Builder (Except Fault) α

namespace Build

def peek : Build Token := do
  return (← get).tokens.head?.getD .streamEnd

def skip : Build Unit :=
  modify fun b => { b with tokens := b.tokens.drop 1 }

/-- Skips the next token if it is the given one, and tells whether it was. -/
def accept (t : Token) : Build Bool := do
  if (← peek) = t then skip; return true else return false

def expect (t : Token) : Build Unit := do
  unless ← accept t do throw .grammar

def count (n : Nat) : Build Unit :=
  modify fun b => { b with size := b.size + n }

def nextIsOneOf (ts : List Token) : Build Bool := do
  return ts.contains (← peek)

def resolveTag (handle suffix : String) : Build String := do
  if handle.isEmpty then return suffix
  match (← get).handles.lookup handle with
  | some text => return text ++ suffix
  | none => throw .undefinedHandle

/-- Gives the next anchored node its number, and answers its place in the order of anchors. -/
def register (name : String) : Build Nat := do
  let b ← get
  let number := b.names.length
  let place := b.holders.length
  set { b with
    names := (name, number) :: b.names.filter (·.1 ≠ name)
    holders := (number, place) :: b.holders }
  return place

def finish (place : Option Nat) (n : Node) : Build Node := do
  match place with
  | some p => modify fun b => { b with finished := (p, n) :: b.finished }
  | none => pure ()
  return n

structure Properties where
  anchor : Option String := none
  tag : Option String := none

def anchorProperty : Build (Option String) := do
  match ← peek with
  | .anchor name => skip; return some name
  | _ => return none

def tagProperty : Build (Option String) := do
  match ← peek with
  | .tag handle suffix => skip; return some (← resolveTag handle suffix)
  | _ => return none

/-- An anchor and a tag, each at most once, in either order. -/
def properties : Build Properties := do
  match ← anchorProperty with
  | some name => return { anchor := some name, tag := ← tagProperty }
  | none =>
    match ← tagProperty with
    | some tag => return { anchor := ← anchorProperty, tag := some tag }
    | none => return {}

def emptyScalar : Build Node := do
  count 1
  return .scalar none "" .plain

/-! ## Nodes -/

def afterIndentless : List Token := [.blockEntry, .key, .value, .blockEnd]

def afterBlockKey : List Token := [.key, .value, .blockEnd]

def afterFlowKey : List Token := [.value, .flowEntry, .flowMappingEnd]

mutual

/-- One node.  `block` allows block collections, `indentless` a sequence at its parent's column. -/
def node : Nat → (block indentless : Bool) → Build Node
  | 0, _, _ => throw .grammar
  | fuel + 1, block, indentless => do
    if let .alias name ← peek then
      match (← get).names.lookup name with
      | some number => skip; count 1; return .alias number
      | none => throw .unknownAnchor
    let props ← properties
    let place ← props.anchor.mapM register
    match ← peek with
    | .scalar text style =>
      skip; count 1
      let tag := if props.tag = some "!" then none else props.tag
      finish place (.scalar tag text style)
    | .blockEntry =>
      if indentless then
        count 2
        finish place (.sequence props.tag (← indentlessEntries fuel))
      else propertiesOnly props place
    | .flowSequenceStart =>
      skip; count 2
      finish place (.sequence props.tag (← flowItems fuel true))
    | .flowMappingStart =>
      skip; count 2
      finish place (.mapping props.tag (← flowEntries fuel true))
    | .blockSequenceStart =>
      if block then
        skip; count 2
        finish place (.sequence props.tag (← blockItems fuel))
      else propertiesOnly props place
    | .blockMappingStart =>
      if block then
        skip; count 2
        finish place (.mapping props.tag (← blockEntries fuel))
      else propertiesOnly props place
    | _ => propertiesOnly props place
where
  propertiesOnly (props : Properties) (place : Option Nat) : Build Node := do
    if props.anchor.isNone ∧ props.tag.isNone then throw .grammar
    count 1
    finish place (.scalar props.tag "" .plain)

def blockItems : Nat → Build (List Node)
  | 0 => throw .grammar
  | fuel + 1 => do
    if ← accept .blockEnd then return []
    expect .blockEntry
    let item ←
      if ← nextIsOneOf [.blockEntry, .blockEnd] then emptyScalar else node fuel true false
    return item :: (← blockItems fuel)

def indentlessEntries : Nat → Build (List Node)
  | 0 => throw .grammar
  | fuel + 1 => do
    if ← accept .blockEntry then
      let item ← if ← nextIsOneOf afterIndentless then emptyScalar else node fuel true false
      return item :: (← indentlessEntries fuel)
    else return []

def blockEntries : Nat → Build (List (Node × Node))
  | 0 => throw .grammar
  | fuel + 1 => do
    if ← accept .blockEnd then return []
    expect .key
    let k ← if ← nextIsOneOf afterBlockKey then emptyScalar else node fuel true true
    let v ←
      if ← accept .value then
        if ← nextIsOneOf afterBlockKey then emptyScalar else node fuel true true
      else emptyScalar
    return (k, v) :: (← blockEntries fuel)

def flowItems : Nat → (first : Bool) → Build (List Node)
  | 0, _ => throw .grammar
  | fuel + 1, first => do
    if ← accept .flowSequenceEnd then return []
    unless first do expect .flowEntry
    if ← accept .flowSequenceEnd then return []
    let item ←
      if ← accept .key then
        count 2
        let k ←
          if ← nextIsOneOf [.value, .flowEntry, .flowSequenceEnd] then skip; emptyScalar
          else node fuel false false
        let v ←
          if ← accept .value then
            if ← nextIsOneOf [.flowEntry, .flowSequenceEnd] then emptyScalar
            else node fuel false false
          else emptyScalar
        pure (.mapping none [(k, v)])
      else node fuel false false
    return item :: (← flowItems fuel false)

def flowEntries : Nat → (first : Bool) → Build (List (Node × Node))
  | 0, _ => throw .grammar
  | fuel + 1, first => do
    if ← accept .flowMappingEnd then return []
    unless first do expect .flowEntry
    if ← accept .flowMappingEnd then return []
    let entry ←
      if ← accept .key then
        let k ← if ← nextIsOneOf afterFlowKey then emptyScalar else node fuel false false
        let v ←
          if ← accept .value then
            if ← nextIsOneOf [.flowEntry, .flowMappingEnd] then emptyScalar
            else node fuel false false
          else emptyScalar
        pure (k, v)
      else do
        let k ← node fuel false false
        pure (k, ← emptyScalar)
    return entry :: (← flowEntries fuel false)

end

def directives : Nat → (seenVersion : Bool) → Build Unit
  | 0, _ => throw .grammar
  | fuel + 1, seenVersion => do
    match ← peek with
    | .version major minor =>
      if seenVersion ∨ major ≠ 1 ∨ (minor ≠ 1 ∧ minor ≠ 2) then throw .directive
      skip
      directives fuel true
    | .tagHandle handle text =>
      let b ← get
      if (b.handles.lookup handle).isSome then throw .directive
      set { b with handles := (handle, text) :: b.handles }
      skip
      directives fuel seenVersion
    | _ => pure ()

def defaultHandles : List (String × String) :=
  [("!", "!"), ("!!", "tag:yaml.org,2002:")]

def isDocumentBoundary : Token → Bool
  | .version .. | .tagHandle .. | .documentStart | .documentEnd | .streamEnd => true
  | _ => false

/-- The root of the only document, or nothing if the text holds none. -/
def root (fuel : Nat) : Build (Option Node) := do
  let first ← peek
  if first = .streamEnd then return none
  if isDocumentBoundary first ∧ first ≠ .documentEnd then
    directives fuel false
    modify fun b => { b with handles := b.handles ++ defaultHandles }
    expect .documentStart
    if isDocumentBoundary (← peek) then return some (← emptyScalar)
    return some (← node fuel true false)
  else
    modify fun b => { b with handles := defaultHandles }
    return some (← node fuel true false)

def documentEnds : Nat → Build Unit
  | 0 => throw .grammar
  | fuel + 1 => do
    if ← accept .documentEnd then documentEnds fuel

def document (fuel : Nat) : Build (Option Node) := do
  let n ← root fuel
  documentEnds fuel
  if (← peek) ≠ .streamEnd then throw .severalDocuments
  return n

end Build

end Node

def Document.ofTokens? (tokens : List Token) : Except Fault Document := do
  let (root, b) ← (Node.Build.document (2 * tokens.length + 2)).run { tokens }
  return {
    root
    anchored := b.holders.filterMap fun (number, place) =>
      (b.finished.lookup place).map fun n => (number, n)
    size := b.size }

end Yaml
end MappingSweep
