import MappingSweep.Shell.Session

/-!
# Fields

What an expanded word becomes: fields, which end at separators that came out of an expansion without
quotes; one text; or a pattern, in which quoted characters stand for themselves.
-/

namespace MappingSweep
namespace Shell

/-- A piece of an expanded word.  Text written in the script is not split, but it may be a pattern;
kept text is neither. -/
inductive Piece where
  | written (cs : List Char)
  | expanded (cs : List Char)
  | kept (cs : List Char)
  | boundary
deriving DecidableEq, Repr

namespace Piece

def chars : Piece → List Char
  | written cs => cs
  | expanded cs => cs
  | kept cs => cs
  | boundary => [' ']

def text (pieces : List Piece) : String :=
  String.ofList (pieces.flatMap chars)

/-- The characters of a pattern.  Only kept ones are quoted from the start. -/
def patternChars : Piece → List PatternChar
  | kept cs => Pattern.marked true cs
  | p => Pattern.marked false p.chars

def pattern (pieces : List Piece) : Pattern :=
  Pattern.ofText (pieces.flatMap patternChars)

/-- Fields that are complete, the one that is being put together, and whether a blank has just ended
one. -/
structure Split where
  done : List (List Char) := []
  current : Option (List Char) := none
  blankBefore : Bool := false

namespace Split

def close (s : Split) : Split where
  done := s.done ++ s.current.toList
  blankBefore := s.blankBefore

def add (s : Split) (cs : List Char) : Split :=
  { s with current := some (s.current.getD [] ++ cs), blankBefore := false }

/-- A separator ends a field.  Blanks around it belong to it, and without a field in front of it
there is an empty one. -/
def separate (s : Split) (c : Char) : Split :=
  if Text.isBlank c then
    if s.current.isSome then { s.close with blankBefore := true } else s
  else if s.current.isNone && !s.blankBefore then { s with done := s.done ++ [[]] }
  else { s.close with blankBefore := false }

def addExpanded (separators : List Char) (s : Split) (c : Char) : Split :=
  if c ∈ separators then s.separate c else s.add [c]

def addPiece (separators : List Char) (s : Split) : Piece → Split
  | written cs => s.add cs
  | expanded cs => cs.foldl (addExpanded separators) s
  | kept cs => s.add cs
  | boundary => s.close

end Split

def fields (separators : List Char) (pieces : List Piece) : List String :=
  ((pieces.foldl (Split.addPiece separators) {}).close.done).map String.ofList

end Piece

def Session.separators (s : Session) : List Char :=
  match s.valueOf "IFS" with
  | some text => text.toList
  | none => [' ', '\t', '\n']

def Session.joint (s : Session) : String :=
  String.ofList (s.separators.take 1)

/-- The fields of a line that is read into several variables: the last one takes the rest. -/
def lineFields (separators : List Char) : Nat → List Char → List (List Char)
  | 0, _ => []
  | 1, cs =>
    let isSeparator := fun c => separators.contains c
    [((cs.dropWhile isSeparator).reverse.dropWhile isSeparator).reverse]
  | n + 1, cs =>
    let isSeparator := fun c => separators.contains c
    let cs := cs.dropWhile isSeparator
    let field := cs.takeWhile fun c => !isSeparator c
    field :: lineFields separators n (cs.drop field.length)

end Shell
end MappingSweep
