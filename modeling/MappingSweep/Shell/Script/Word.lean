import MappingSweep.Shell.Script.Basic

/-!
# Reading words

A word goes on to the next blank or operator that is not quoted.  Single quotes keep everything as
it is, double quotes all but dollar signs, backquotes and some backslashes.
-/

namespace MappingSweep
namespace Shell

inductive WordContext where
  | bare
  | quotes
  | braces (quoted : Bool)
  | document
deriving DecidableEq, Repr

namespace WordContext

def stops (c : Char) : WordContext → Bool
  | bare => isMeta c
  | quotes => c == '"'
  | braces _ => c == '\x7d'
  | document => false

def quoted : WordContext → Bool
  | bare => false
  | quotes => true
  | braces q => q
  | document => true

/-- What is wrong if the text ends here. -/
def endFault? : WordContext → Option SyntaxFault
  | bare => none
  | quotes => some .unterminatedQuote
  | braces _ => some (.missing "\x7d")
  | document => none

/-- Whether a backslash takes the meaning from a character. -/
def escapes (c : Char) : WordContext → Bool
  | document => c ∈ ['$', '\x60', '\\']
  | braces true => c ∈ ['$', '\x60', '\\', '"', '\x7d']
  | quotes => c ∈ ['$', '\x60', '\\', '"']
  | _ => true

end WordContext

/-- The text up to the parenthesis that closes, given how many are open inside and in which quotes
the text stands. -/
def enclosed : Nat → Option Char → List Char → Option (List Char)
  | _, _, [] => none
  | depth, some '\'', c :: rest =>
    (enclosed depth (if c = '\'' then none else some '\'') rest).map (c :: ·)
  | depth, q, '\\' :: c :: rest => (enclosed depth q rest).map fun cs => '\\' :: c :: cs
  | depth, some q, c :: rest => (enclosed depth (if c = q then none else some q) rest).map (c :: ·)
  | 0, none, ')' :: _ => some []
  | depth + 1, none, ')' :: rest => (enclosed depth none rest).map (')' :: ·)
  | depth, none, '(' :: rest => (enclosed (depth + 1) none rest).map ('(' :: ·)
  | depth, none, c :: rest =>
    (enclosed depth (if c = '\'' ∨ c = '"' then some c else none) rest).map (c :: ·)

/-- The script between backquotes, and the number of characters up to the closing one. -/
def backquoted : List Char → Option (List Char × Nat)
  | [] => none
  | '\x60' :: _ => some ([], 1)
  | '\\' :: c :: rest => (backquoted rest).map fun (cs, n) =>
    if c ∈ ['$', '\x60', '\\'] then (c :: cs, n + 2) else ('\\' :: c :: cs, n + 2)
  | c :: rest => (backquoted rest).map fun (cs, n) => (c :: cs, n + 1)

def expression? : List Char → Option (List Char)
  | '(' :: rest => if rest.getLast? = some ')' then some rest.dropLast else none
  | _ => none

/-- The parameter in front of these characters, with its length. -/
def parameter? (manyDigits : Bool) : List Char → Option (Parameter × Nat)
  | '@' :: _ => some (.arguments false, 1)
  | '*' :: _ => some (.arguments true, 1)
  | '#' :: _ => some (.argumentCount, 1)
  | '?' :: _ => some (.lastStatus, 1)
  | '$' :: _ => some (.processNumber, 1)
  | cs =>
    let digits := (cs.takeWhile Char.isDigit).take (if manyDigits then cs.length else 1)
    if digits.isEmpty then
      let name := cs.takeWhile isNameChar
      if name.isEmpty then none else some (.named (String.ofList name), name.length)
    else some (.positional (digits.foldl (fun n c => 10 * n + (c.toNat - 48)) 0), digits.length)

/-- The treatment in front of these characters, with its length. -/
def treatment? : List Char → Option (Treatment × Nat)
  | '\x7d' :: _ => some (.plain, 0)
  | '%' :: '%' :: _ => some (.trimEnd true, 2)
  | '%' :: _ => some (.trimEnd false, 1)
  | '#' :: '#' :: _ => some (.trimStart true, 2)
  | '#' :: _ => some (.trimStart false, 1)
  | ':' :: '-' :: _ => some (.fallback true, 2)
  | '-' :: _ => some (.fallback false, 1)
  | _ => none

/-- Trimming takes a pattern, which is not quoted by quotes around the whole. -/
def operandContext (quoted : Bool) : Treatment → WordContext
  | .trimStart _ => .braces false
  | .trimEnd _ => .braces false
  | _ => .braces quoted

namespace ScriptReading

mutual

def parts : Nat → WordContext → ScriptReading Word
  | 0, _ => pure []
  | fuel + 1, ctx => do
    match ← remaining with
    | [] =>
      match ctx.endFault? with
      | some f => fail f
      | none => pure []
    | c :: rest =>
      if ctx.stops c then pure [] else
      advance 1
      if c = '\\' then
        match rest with
        | '\n' :: _ => do
          advance 1
          parts fuel ctx
        | d :: _ =>
          if ctx.escapes d then do
            advance 1
            return Word.addChar d true (← parts fuel ctx)
          else return Word.addChar '\\' ctx.quoted (← parts fuel ctx)
        | [] => return Word.addChar '\\' ctx.quoted (← parts fuel ctx)
      else if c = '$' then return (← dollar fuel ctx.quoted) :: (← parts fuel ctx)
      else if c = '\x60' then
        match backquoted rest with
        | none => fail .unterminatedBackquote
        | some (script, n) =>
          let line := (← get).line
          advance n
          return .output line script ctx.quoted :: (← parts fuel ctx)
      else if c = '"' ∧ ctx.quoted = false then
        let inner ← parts fuel .quotes
        advance 1
        let inner := if inner.isEmpty then [.text [] true] else inner
        return inner ++ (← parts fuel ctx)
      else if c = '\'' ∧ ctx.quoted = false then
        let inner ← span (· != '\'')
        unless ← accept ['\''] do fail .unterminatedQuote
        return .text inner true :: (← parts fuel ctx)
      else return Word.addChar c ctx.quoted (← parts fuel ctx)

def dollar : Nat → Bool → ScriptReading WordPart
  | 0, quoted => pure (.text ['$'] quoted)
  | fuel + 1, quoted => do
    match ← remaining with
    | '(' :: rest =>
      let doubled := rest.head? = some '('
      match enclosed 0 none rest with
      | none => fail (if doubled then .missing "))" else .unexpected "end of file" (some ")"))
      | some inner =>
        let line := (← get).line
        advance (inner.length + 2)
        match expression? inner with
        | some e =>
          match parts fuel .document (.ofText e line) with
          | .ok (w, _) => return .arithmetic w quoted
          | .error f => fail f.fault
        | none => if doubled then fail (.missing "))") else return .output line inner quoted
    | '\x7b' :: _ =>
      advance 1
      braced fuel quoted
    | cs =>
      match parameter? false cs with
      | some (p, n) =>
        advance n
        return .parameter p .plain [] quoted
      | none => return .text ['$'] quoted

/-- A parameter in braces, behind the opening one. -/
def braced : Nat → Bool → ScriptReading WordPart
  | 0, _ => fail .badSubstitution
  | fuel + 1, quoted => do
    let cs ← remaining
    match parameter? true cs with
    | none => fail (if cs.isEmpty then .missing "\x7d" else .badSubstitution)
    | some (p, n) =>
      advance n
      let cs ← remaining
      match treatment? cs with
      | none => fail (if cs.isEmpty then .missing "\x7d" else .badSubstitution)
      | some (t, n) =>
        advance n
        let operand ← parts fuel (operandContext quoted t)
        advance 1
        return .parameter p t operand quoted

end

/-- The next word, which is empty if an operator comes next. -/
def word (fuel : Nat) : ScriptReading Word :=
  parts fuel .bare

end ScriptReading
end Shell
end MappingSweep
