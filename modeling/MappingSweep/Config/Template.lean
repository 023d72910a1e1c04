import MappingSweep.Config.Document

/-!
# Configuration templates

The base configuration of the simulator, loaded once.  Materializing lays overrides over the base
and writes the result to a file; the base itself stays as it is.
-/

namespace MappingSweep

structure Template where
  source : Path
  base : Config
deriving Inhabited

namespace Template

def ofConfig (base : Config) : Template :=
  ⟨⟨""⟩, base⟩

def parse (text : String) : Except LoadFault Config := do
  let value ← (Yaml.read text).mapError .document
  let base ← Config.ofDocument value
  if base.isMap then return base else throw .notMapping

def load (fs : FileSystem) (path : Path) : Except SweepError Template :=
  let base : Except LoadFault Config := do
    parse (← (fs.readText path).mapError .io)
  match base with
  | .ok base => .ok ⟨path, base⟩
  | .error reason => .error (.configLoad path reason)

/-- Writes the base under the overrides to `target`, and answers the merged tree. -/
def materialize (t : Template) (overrides : Config) (target : Path) (fs : FileSystem) :
    Except SweepError (Config × FileSystem) :=
  let config := t.base.merge overrides
  match fs.writeText target config.documentText with
  | .ok fs => .ok (config, fs)
  | .error e => .error (.io target e)

end Template
end MappingSweep
