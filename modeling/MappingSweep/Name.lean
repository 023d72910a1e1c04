import MappingSweep.FileSystem.Path

/-!
# Names of mappings and patterns

A name becomes one component of a path: it is not empty, not a dot or two, and holds no separator.
Mappings and patterns carry that fact, so every value of their types is safe to join to a path.
-/

namespace MappingSweep

inductive NameFault where
  | empty
  | dots
  | separator
deriving DecidableEq, Repr

def nameFault? (name : String) : Option NameFault :=
  if name = "" then some .empty
  else if name = "." ∨ name = ".." then some .dots
  else if name.toList.any (fun c => c == '/' || c == '\\' || c == '\x00') then some .separator
  else none

def NameFault.message (kind name : String) : NameFault → String
  | empty => kind ++ " name is empty"
  | dots => kind ++ " name `" ++ name ++ "` is not a valid directory name"
  | separator => kind ++ " name `" ++ name ++ "` contains a path separator"

structure Mapping where
  name : String
  safe : nameFault? name = none
deriving DecidableEq

structure Pattern where
  name : String
  path : Path
  safe : nameFault? name = none
deriving DecidableEq

namespace Mapping

def ofName (name : String) : Except NameFault Mapping :=
  match h : nameFault? name with
  | none => .ok ⟨name, h⟩
  | some f => .error f

def faultMessage (name : String) (f : NameFault) : String :=
  f.message "mapping" name

end Mapping

namespace Pattern

def ofName (name : String) (path : Path) : Except NameFault Pattern :=
  match h : nameFault? name with
  | none => .ok ⟨name, path, h⟩
  | some f => .error f

def faultMessage (name : String) (f : NameFault) : String :=
  f.message "trace pattern" name

end Pattern
end MappingSweep
