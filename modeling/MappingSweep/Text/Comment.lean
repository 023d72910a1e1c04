import MappingSweep.Text.Reading

/-!
# Comments

What may stand between the tokens of a notation: spaces, the rest of a line behind two slashes, and
text between `/*` and `*/`.  In some notations the latter nests.
-/

namespace MappingSweep
namespace Text

/-- The text behind a comment that has been opened, with the given number of comments around it. -/
def afterComment? (nests : Bool) : (around : Nat) → List Char → Option (List Char)
  | _, [] => none
  | 0, '*' :: '/' :: rest => some rest
  | around + 1, '*' :: '/' :: rest => afterComment? nests around rest
  | around, '/' :: '*' :: rest =>
    if nests then afterComment? nests (around + 1) rest
    else afterComment? nests around ('*' :: rest)
  | around, _ :: rest => afterComment? nests around rest
termination_by _ cs => cs.length

structure Gaps where
  isSpace : Char → Bool
  endsLine : Char → Bool
  nests : Bool

open Reading in
def Gaps.skip (g : Gaps) : Nat → Reading Unit
  | 0 => fail
  | fuel + 1 => do
    skipWhile g.isSpace
    if ← acceptAll ['/', '/'] then
      skipWhile fun c => !g.endsLine c
      g.skip fuel
    else if ← acceptAll ['/', '*'] then
      set (← ofOption (afterComment? g.nests 0 (← remaining)))
      g.skip fuel
    else pure ()

end Text
end MappingSweep
