import MappingSweep.Text.Blank

/-!
# Paths

A path is text.  Joining keeps the text of both sides as written, since messages show it; where a
path leads depends only on its components.
-/

namespace MappingSweep

structure Path where
  text : String
deriving DecidableEq, Inhabited, Repr

namespace Path

def isAbsolute (p : Path) : Bool :=
  p.text.toList.head? == some '/'

def endsWithSlash (p : Path) : Bool :=
  p.text.toList.getLast? == some '/'

/-- The path of `name` inside the directory `p`. -/
def join (p : Path) (name : String) : Path :=
  if name.toList.head? = some '/' ∨ p.text.isEmpty then ⟨name⟩
  else if p.endsWithSlash then ⟨p.text ++ name⟩
  else ⟨p.text ++ "/" ++ name⟩

/-- The components as they stand in a text. -/
def written (cs : List Char) : List (List Char) :=
  (Text.splitOn '/' cs).filter (!·.isEmpty)

/-- The components that matter: single dots lead nowhere. -/
def components (p : Path) : List String :=
  ((written p.text.toList).filter (· != ['.'])).map String.ofList

/-- Whether the last component is a single dot, which asks for a directory. -/
def endsWithDot (p : Path) : Bool :=
  (written p.text.toList).getLast? == some ['.']

def ofComponents (absolute : Bool) (cs : List String) : Path :=
  ⟨(if absolute then "/" else "") ++ "/".intercalate cs⟩

/-- The path without its last component; none for a path without components. -/
def parent? (p : Path) : Option Path :=
  match p.components with
  | [] => none
  | cs => some (ofComponents p.isAbsolute cs.dropLast)

end Path
end MappingSweep
