import MappingSweep.Settings.Document

/-!
# Layers of settings

Settings come in layers, each stronger than the ones before it.  A key of a stronger layer takes the
place of the same key below it; only tables are merged, entry by entry, and lists are never joined.
A key may be a path into what lies below: names behind points, and places in lists between brackets.
-/

namespace MappingSweep

inductive KeyStep where
  | child (name : String)
  | item (place : Nat)
deriving DecidableEq, Repr

structure KeyPath where
  name : String
  steps : List KeyStep
deriving DecidableEq, Repr

namespace KeyPath

def isNameChar (c : Char) : Bool :=
  c.isAlphanum || c == ' ' || c == '_' || c == '-'

def place? (cs : List Char) : Option Nat :=
  Number.readNat 10 ((cs.dropWhile (· == ' ')).reverse.dropWhile (· == ' ')).reverse

/-- The steps that a text spells, none if it spells something else. -/
def steps? : Nat → List Char → Option (List KeyStep)
  | _, [] => some []
  | 0, _ => none
  | fuel + 1, '.' :: rest => do
    let name := rest.takeWhile isNameChar
    if name.isEmpty then none
    else return .child (String.ofList name) :: (← steps? fuel (rest.dropWhile isNameChar))
  | fuel + 1, '[' :: rest => do
    let place ← place? (rest.takeWhile (· != ']'))
    match rest.dropWhile (· != ']') with
    | _ :: rest => return .item place :: (← steps? fuel rest)
    | [] => none
  | _, _ => none

/-- The path that a key spells; a key that spells none is a name as a whole. -/
def ofKey (key : String) : KeyPath :=
  let cs := key.toList
  let name := cs.takeWhile isNameChar
  let steps := if name.isEmpty then none else steps? cs.length (cs.dropWhile isNameChar)
  match steps with
  | some steps => ⟨String.ofList name, steps⟩
  | none => ⟨key, []⟩

end KeyPath

namespace Setting

def entries : Setting → SettingsTable
  | .table es => es
  | _ => []

def items : Setting → List Setting
  | .list xs => xs
  | _ => []

mutual

def layOver (below : Option Setting) : (above : Setting) → Setting
  | .table [] => below.getD (.table [])
  | .table es => .table (setEntries (below.map entries |>.getD []) es)
  | .list xs => .list xs
  | .text s => .text s
  | .float x => .float x
  | .int n => .int n
  | .bool b => .bool b
  | .null => .null

def setEntries (below : SettingsTable) : (above : SettingsTable) → SettingsTable
  | [] => below
  | (k, v) :: rest => setEntries (Setting.setEntry k (layOver (below.lookup k) v) below) rest

end

def setItem (xs : List Setting) (place : Nat) (v : Setting) : List Setting :=
  (xs ++ List.replicate (place + 1 - xs.length) Setting.null).set place v

/-- Sets what a path leads to, making the tables and lists on the way. -/
def setAt (v : Setting) : List KeyStep → Option Setting → Setting
  | [], below => layOver below v
  | [.item place], below => .list (setItem (below.map items |>.getD []) place v)
  | .child name :: rest, below =>
    let es := below.map entries |>.getD []
    .table (Setting.setEntry name (setAt v rest (es.lookup name)) es)
  | .item place :: rest, below =>
    let xs := below.map items |>.getD []
    .list (setItem xs place (setAt v rest xs[place]?))

end Setting

namespace SettingsTable

def setPath (below : SettingsTable) (key : String) (v : Setting) : SettingsTable :=
  let path := KeyPath.ofKey key
  Setting.setEntry path.name (Setting.setAt v path.steps (below.lookup path.name)) below

def overlay (below above : SettingsTable) : SettingsTable :=
  above.foldl (fun acc e => setPath acc e.1 e.2) below

def ofLayers (layers : List SettingsTable) : SettingsTable :=
  layers.foldl overlay []

end SettingsTable
end MappingSweep
