import MappingSweep.Settings.Value

/-!
# TOML tables

How the sections of a document come together.  A dotted key opens tables inside its own section
only.  A header opens a table once, though a table that exists only because of longer headers may
still be opened; a double header adds one more table to a list of tables.
-/

namespace MappingSweep
namespace Toml

inductive Slot where
  | value (s : Setting)
  /-- A table that dotted keys of one section made. -/
  | dotted (entries : List (String × Slot))
  /-- A table that headers made, opened by a header of its own or not. -/
  | table (opened : Bool) (entries : List (String × Slot))
  /-- A list of tables with the latest one in front. -/
  | tables (latest : List (String × Slot)) (earlier : List (List (String × Slot)))
deriving Inhabited

abbrev Slots : Type := List (String × Slot)

namespace Slots

def replace (key : String) (slot : Slot) (slots : Slots) : Slots :=
  slots.map fun e => if e.1 = key then (key, slot) else e

/-- Sets a dotted key; every key may be set once. -/
def insert : List String → Setting → Slots → Option Slots
  | [], _, _ => none
  | [key], v, slots =>
    if (slots.lookup key).isSome then none else some (slots ++ [(key, .value v)])
  | key :: rest, v, slots =>
    match slots.lookup key with
    | none => do return slots ++ [(key, .dotted (← insert rest v []))]
    | some (.dotted inner) => do return replace key (.dotted (← insert rest v inner)) slots
    | some _ => none

def insertAll (entries : List (List String × Setting)) : Option Slots :=
  entries.foldlM (fun slots e => insert e.1 e.2 slots) []

/-- Adds the entries of a section to a table that has none of their keys. -/
def join (slots body : Slots) : Option Slots :=
  if body.any fun e => (slots.lookup e.1).isSome then none else some (slots ++ body)

def place (isList : Bool) (body : Slots) : List String → Slots → Option Slots
  | [], slots => join slots body
  | [key], slots =>
    match slots.lookup key, isList with
    | none, true => some (slots ++ [(key, .tables body [])])
    | none, false => some (slots ++ [(key, .table true body)])
    | some (.tables latest earlier), true =>
      some (replace key (.tables body (latest :: earlier)) slots)
    | some (.table false inner), false => do
      return replace key (.table true (← join inner body)) slots
    | _, _ => none
  | key :: rest, slots =>
    match slots.lookup key with
    | none => do return slots ++ [(key, .table false (← place isList body rest []))]
    | some (.table opened inner) => do
      return replace key (.table opened (← place isList body rest inner)) slots
    | some (.tables latest earlier) => do
      return replace key (.tables (← place isList body rest latest) earlier) slots
    | some _ => none

end Slots

mutual

def Slot.toSetting : Slot → Setting
  | .value s => s
  | .dotted entries => .table (toSettings entries)
  | .table _ entries => .table (toSettings entries)
  | .tables latest earlier => .list (toTables earlier [.table (toSettings latest)])

def toSettings : List (String × Slot) → List (String × Setting)
  | [] => []
  | (k, s) :: rest => (k, s.toSetting) :: toSettings rest

def toTables : List (List (String × Slot)) → List Setting → List Setting
  | [], done => done
  | entries :: rest, done => toTables rest (.table (toSettings entries) :: done)

end

/-- A header with the keys under it; the entries in front of the first header have none. -/
structure Section where
  header : List String := []
  isList : Bool := false
  entries : List (List String × Setting) := []

def tableOf? (sections : List Section) : Option (List (String × Setting)) := do
  let slots ← sections.foldlM (fun slots s => do
    Slots.place s.isList (← Slots.insertAll s.entries) s.header slots) []
  return toSettings slots

end Toml
end MappingSweep
