/-!
# Patterns

A pattern matches a whole text: a star any run of characters, a question mark one character, and a
bracketed set one of its members.  Quoted characters stand for themselves, inside a set as well.
-/

namespace MappingSweep
namespace Shell

inductive PatternItem where
  | exactly (c : Char)
  | anyChar
  | anyRun
  | oneOf (ranges : List (Char × Char)) (negated : Bool)
deriving DecidableEq, Repr

abbrev Pattern : Type := List PatternItem

/-- A character of the text of a pattern, and whether it is quoted. -/
structure PatternChar where
  char : Char
  quoted : Bool
deriving DecidableEq, Repr

namespace Pattern

def marked (quoted : Bool) (cs : List Char) : List PatternChar :=
  cs.map (⟨·, quoted⟩)

/-- A backslash that is left without quotes quotes what follows it. -/
def escapes : List PatternChar → List PatternChar
  | ⟨'\\', false⟩ :: c :: rest => ⟨c.char, true⟩ :: escapes rest
  | c :: rest => c :: escapes rest
  | [] => []

/-- The member of a set that begins with a character, and what stands behind it. -/
def member (c : PatternChar) (rest : List PatternChar) : (Char × Char) × List PatternChar :=
  match rest with
  | ⟨'-', false⟩ :: d :: behind =>
    if d = ⟨']', false⟩ then ((c.char, c.char), rest) else ((c.char, d.char), behind)
  | _ => ((c.char, c.char), rest)

/-- The members of a set up to its closing bracket, and what stands behind that.  A closing bracket
in first place is a member. -/
def members : Nat → Bool → List PatternChar → Option (List (Char × Char) × List PatternChar)
  | 0, _, _ => none
  | _, _, [] => none
  | fuel + 1, first, c :: rest =>
    if c = ⟨']', false⟩ ∧ first = false then some ([], rest)
    else
      let (m, rest) := member c rest
      (members fuel false rest).map fun (ms, rest) => (m :: ms, rest)

/-- The set that opens in front of these characters. -/
def set (cs : List PatternChar) : Option (PatternItem × List PatternChar) :=
  let (negated, cs) := match cs with
    | ⟨'!', false⟩ :: rest => (true, rest)
    | cs => (false, cs)
  (members cs.length true cs).map fun (ms, rest) => (.oneOf ms negated, rest)

def itemsOf : Nat → List PatternChar → Pattern
  | 0, _ => []
  | _, [] => []
  | fuel + 1, ⟨'*', false⟩ :: rest => .anyRun :: itemsOf fuel rest
  | fuel + 1, ⟨'?', false⟩ :: rest => .anyChar :: itemsOf fuel rest
  | fuel + 1, ⟨'[', false⟩ :: rest =>
    match set rest with
    | some (item, rest) => item :: itemsOf fuel rest
    | none => .exactly '[' :: itemsOf fuel rest
  | fuel + 1, c :: rest => .exactly c.char :: itemsOf fuel rest

def ofText (cs : List PatternChar) : Pattern :=
  let cs := escapes cs
  itemsOf cs.length cs

end Pattern

namespace PatternItem

def admits (c : Char) : PatternItem → Bool
  | exactly d => c == d
  | anyChar => true
  | anyRun => true
  | oneOf ranges negated => ranges.any (fun r => r.1 ≤ c && c ≤ r.2) != negated

end PatternItem

namespace Pattern

def accepts : Pattern → List Char → Bool
  | [], cs => cs.isEmpty
  | .anyRun :: items, [] => accepts items []
  | .anyRun :: items, c :: cs => accepts items (c :: cs) || accepts (.anyRun :: items) cs
  | item :: items, c :: cs => item.admits c && accepts items cs
  | _ :: _, [] => false
termination_by items cs => items.length + cs.length

def trimStart (p : Pattern) (longest : Bool) (cs : List Char) : List Char :=
  let cuts := List.range (cs.length + 1)
  match (if longest then cuts.reverse else cuts).find? fun n => accepts p (cs.take n) with
  | some n => cs.drop n
  | none => cs

def trimEnd (p : Pattern) (longest : Bool) (cs : List Char) : List Char :=
  let cuts := List.range (cs.length + 1)
  match (if longest then cuts else cuts.reverse).find? fun n => accepts p (cs.drop n) with
  | some n => cs.take n
  | none => cs

end Pattern
end Shell
end MappingSweep
