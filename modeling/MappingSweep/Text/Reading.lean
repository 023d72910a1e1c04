/-!
# Reading a text

A reading takes characters from the front of a text and may fail.  These are its smallest steps.
-/

namespace MappingSweep
namespace Text

abbrev Reading (α : Type) : Type :=
  StateT (List Char) Option α

namespace Reading

def fail {α : Type} : Reading α := fun _ =>
  none

def peek : Reading (Option Char) := fun cs =>
  some (cs.head?, cs)

def next : Reading Char
  | [] => none
  | c :: rest => some (c, rest)

/-- Takes the given character if it comes next, and tells whether it did. -/
def accept (c : Char) : Reading Bool
  | [] => some (false, [])
  | d :: rest => if d = c then some (true, rest) else some (false, d :: rest)

def expect (c : Char) : Reading Unit := do
  unless ← accept c do fail

def acceptAll (text : List Char) : Reading Bool := fun cs =>
  if text.isPrefixOf cs then some (true, cs.drop text.length) else some (false, cs)

def span (p : Char → Bool) : Reading (List Char) := fun cs =>
  some (cs.takeWhile p, cs.dropWhile p)

def skipWhile (p : Char → Bool) : Reading Unit := fun cs =>
  some ((), cs.dropWhile p)

def remaining : Reading (List Char) := fun cs =>
  some (cs, cs)

def ofOption {α : Type} (x : Option α) : Reading α := fun cs =>
  x.map (·, cs)

def whole {α : Type} (r : Reading α) (cs : List Char) : Option α :=
  match r cs with
  | some (x, []) => some x
  | _ => none

end Reading
end Text
end MappingSweep
