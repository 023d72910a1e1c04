import MappingSweep.Config.Tree
import MappingSweep.Error
import MappingSweep.Yaml.Printer
import MappingSweep.Yaml.Reader

/-!
# Configuration trees and documents

A document's value becomes a tree: scalar keys become text, tags are dropped, and integers beyond
the signed range become floats.  Of keys that become the same text the last one counts.  Any other
key is refused.
-/

namespace MappingSweep
namespace Config

def keyText : Yaml.Value → Except LoadFault String
  | .string s => .ok s
  | .number n => .ok n.text
  | .bool b => .ok (Yaml.boolText b)
  | other => .error (.unsupportedKey other.shown)

def ofNumber : Yaml.Number → Scalar
  | .int n => if n < Number.signedBound then .int n else .float (Float.ofInt n)
  | .float x => .float x

mutual

def ofDocument : Yaml.Value → Except LoadFault Config
  | .null => .ok (.scalar .null)
  | .bool b => .ok (.scalar (.bool b))
  | .number n => .ok (.scalar (ofNumber n))
  | .string s => .ok (.scalar (.str s))
  | .sequence items => (ofItems items).map .list
  | .mapping entries => (ofEntries [] entries).map .map
  | .tagged _ v => ofDocument v

def ofItems : List Yaml.Value → Except LoadFault (List Config)
  | [] => .ok []
  | v :: rest => do
    let first ← ofDocument v
    return first :: (← ofItems rest)

def ofEntries (acc : Entries) : List (Yaml.Value × Yaml.Value) → Except LoadFault Entries
  | [] => .ok acc
  | (k, v) :: rest => do
    let key ← keyText k
    let value ← ofDocument v
    ofEntries (Keyed.insert key value acc) rest

end

mutual

def toDocument : Config → Yaml.Value
  | .scalar .null => .null
  | .scalar (.bool b) => .bool b
  | .scalar (.int n) => .number (.int n)
  | .scalar (.float x) => .number (.float x)
  | .scalar (.str s) => .string s
  | .list items => .sequence (toItems items)
  | .map entries => .mapping (toEntries entries)

def toItems : List Config → List Yaml.Value
  | [] => []
  | t :: rest => toDocument t :: toItems rest

def toEntries : Entries → List (Yaml.Value × Yaml.Value)
  | [] => []
  | (k, t) :: rest => (.string k, toDocument t) :: toEntries rest

end

def documentText (t : Config) : String :=
  Yaml.print t.toDocument

end Config
end MappingSweep
