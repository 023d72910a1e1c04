import MappingSweep.Yaml.Node
import MappingSweep.Yaml.Resolution
import MappingSweep.Yaml.Token.Lexer

/-!
# Reading a document

From text to a value.  Aliases are replaced by what they stand for, within a limit on how often that
may happen, and collections nest to a limited depth.  A mapping with two equal keys is a fault.
-/

namespace MappingSweep
namespace Yaml

def depthLimit : Nat := 128

/-- How many aliases may be followed for each unit of a document's size. -/
def aliasFactor : Nat := 100

namespace Document

/-- Values are built while counting the aliases that were followed. -/
abbrev Resolve (α : Type) : Type :=
  StateT Nat (Except Fault) α

def follow (doc : Document) : Node → Resolve Node
  | .alias number => do
    let followed := (← get) + 1
    if doc.size * aliasFactor < followed then throw .tooManyAliases
    set followed
    match doc.anchored.lookup number with
    | some n => return n
    | none => throw .unknownAnchor
  | n => return n

def tagWith (tag : Option String) (v : Value) : Value :=
  match applicationTag? tag with
  | some name => .tagged name v
  | none => v

/-- Adds entries in order, refusing a key that is there already. -/
def addEntries (value : Node → Resolve Value) :
    List (Value × Value) → List (Node × Node) → Resolve (List (Value × Value))
  | acc, [] => return acc.reverse
  | acc, (k, v) :: rest => do
    let key ← value k
    if acc.any fun entry => entry.1.sameKey key then throw .duplicateKey
    let content ← value v
    addEntries value ((key, content) :: acc) rest

def valueOf (doc : Document) : Nat → Node → Resolve Value
  | depth, n => do
    match ← doc.follow n with
    | .scalar tag text style =>
      match tag with
      | none => untaggedScalar text style
      | some t =>
        if (applicationTag? tag).isSome then return tagWith tag (← untaggedScalar text style)
        else taggedScalar t text
    | .sequence tag items =>
      match depth with
      | 0 => throw .tooDeep
      | d + 1 => return tagWith tag (.sequence (← items.mapM (valueOf doc d)))
    | .mapping tag entries =>
      match depth with
      | 0 => throw .tooDeep
      | d + 1 => return tagWith tag (.mapping (← addEntries (valueOf doc d) [] entries))
    | .alias _ => throw .unknownAnchor

/-- The value of a document; a text without a document has the value null. -/
def value (doc : Document) : Except Fault Value :=
  match doc.root with
  | none => .ok .null
  | some n => (·.1) <$> (doc.valueOf depthLimit n).run 0

end Document

def read (text : String) : Except Fault Value := do
  let tokens ← tokenize text.toList
  (← Document.ofTokens? tokens.toList).value

end Yaml
end MappingSweep
