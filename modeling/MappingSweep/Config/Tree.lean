import MappingSweep.Keyed
import MappingSweep.Number.Numeral
import MappingSweep.Text.Blank

/-!
# Configuration trees

Leaves, lists and maps with text keys.  Maps keep their entries in the order of the keys and hold a
key at most once.  Merging walks two trees together: maps merge key by key, and everything else in
the overriding tree replaces what it meets.
-/

namespace MappingSweep

inductive Scalar where
  | null
  | bool (b : Bool)
  | int (n : Int)
  | float (x : Float)
  | str (s : String)
deriving DecidableEq, Inhabited

inductive Config where
  | scalar (s : Scalar)
  | list (items : List Config)
  | map (entries : List (String × Config))
deriving Inhabited

namespace Config

abbrev Entries : Type := Keyed Config

def mapOf (entries : Entries) : Config :=
  .map (Keyed.ofList entries)

def str (s : String) : Config :=
  .scalar (.str s)

def isMap : Config → Bool
  | .map _ => true
  | _ => false

/-- One step down: into a map by its key, into a list by the decimal index. -/
def child? (key : List Char) : Config → Option Config
  | .map entries => Keyed.get? (String.ofList key) entries
  | .list items => (Number.readWord key).bind fun i => items[i.toNat]?
  | .scalar _ => none

def lookup (t : Config) (dotted : String) : Option Config :=
  (Text.splitOn '.' dotted.toList).foldlM (fun node key => node.child? key) t

def text? : Config → Option String
  | .scalar (.str s) => some s
  | _ => none

def scalarText? : Config → Option String
  | .scalar (.str s) => some s
  | .scalar (.int n) => some (Number.decimalInt n)
  | _ => none

mutual

/-- Lays `overrides` over `base`. -/
def merge (base : Config) : (overrides : Config) → Config
  | .map above =>
    match base with
    | .map entries => .map (mergeEntries entries above)
    | _ => .map above
  | .list items => .list items
  | .scalar s => .scalar s

/-- Sets every overriding key, merging into what the key holds already. -/
def mergeEntries (base : Entries) : (overrides : Entries) → Entries
  | [] => base
  | (key, value) :: rest =>
    let merged := match Keyed.get? key base with
      | some held => merge held value
      | none => value
    mergeEntries (Keyed.insert key merged base) rest

end

end Config
end MappingSweep
