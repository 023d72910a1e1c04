import MappingSweep.Shell.Script.Word

/-!
# Reading commands

A script is read one line of commands at a time, so that what stands in front of a fault is still
run.  Compound commands are read to their closing word across lines.
-/

namespace MappingSweep
namespace Shell

/-- The name and the value of an assignment, if a word is one. -/
def assignment? : Word → Option (String × Word)
  | .text content false :: parts =>
    let name := content.takeWhile (· != '=')
    match content.drop name.length with
    | _ :: value =>
      if isName name then
        some (String.ofList name,
          if value.isEmpty then parts else .text value false :: parts)
      else none
    | [] => none
  | _ => none

/-- Takes the lines of a here document out of the text behind the current line. -/
def takeDocument (delimiter : List Char) (dropTabs : Bool) (cs : List Char) :
    List Char × List Char × Nat :=
  let current := cs.takeWhile (· != '\n')
  let trimmed := fun line => if dropTabs then line.dropWhile (· == '\t') else line
  let rec lines : Nat → List Char → List Char × List Char × Nat
    | 0, cs => ([], cs, 0)
    | _, [] => ([], [], 0)
    | fuel + 1, cs =>
      let line := cs.takeWhile (· != '\n')
      let after := cs.drop line.length
      if trimmed line = delimiter then ([], after.drop 1, 1) else
      let (body, rest, n) := lines fuel (after.drop 1)
      (trimmed line ++ after.take 1 ++ body, rest, n + 1)
  let (body, after, n) := lines (cs.length + 1) (cs.drop (current.length + 1))
  (body, current ++ '\n' :: after, n)

/-- The text of a word without its quotes, and whether any part is quoted. -/
def delimiterOf (w : Word) : List Char × Bool :=
  (w.flatMap fun | .text cs _ => cs | _ => [], w.any fun | .text _ q => q | _ => false)

/-- The operator of a redirection, with its kind, its length and its usual descriptor. -/
def redirection? : List Char → Option (RedirectionKind × Nat × Nat)
  | '<' :: '<' :: '-' :: _ => some (.here, 3, 0)
  | '<' :: '<' :: _ => some (.here, 2, 0)
  | '<' :: '&' :: _ => some (.duplicate, 2, 0)
  | '<' :: _ => some (.read, 1, 0)
  | '>' :: '>' :: _ => some (.append, 2, 1)
  | '>' :: '&' :: _ => some (.duplicate, 2, 1)
  | '>' :: '|' :: _ => some (.write, 2, 1)
  | '>' :: _ => some (.write, 1, 1)
  | _ => none

def closingWords : List String :=
  ["then", "elif", "else", "fi", "do", "done", "esac", "\x7d"]

def endsList (cs : List Char) : Bool :=
  cs.isEmpty || cs.head? == some ')' || [';', ';'].isPrefixOf cs ||
    (match reserved? cs with
      | some w => decide (w ∈ closingWords)
      | none => false)

namespace ScriptReading

def operand (fuel : Nat) : ScriptReading Word := do
  skipGap
  let w ← word fuel
  if w.isEmpty then unexpected none else return w

def hereDocument (fuel : Nat) (dropTabs : Bool) (delimiter : Word) : ScriptReading Word := do
  let (text, quoted) := delimiterOf delimiter
  let s ← get
  let (body, rest, n) := takeDocument text dropTabs s.rest
  set { s with rest, withheld := s.withheld + n }
  if quoted then return [.text body true]
  match parts fuel .document (.ofText body (s.line + 1 + s.withheld)) with
  | .ok (w, _) => return w
  | .error f => fail f.fault

/-- A redirection, if one comes next; a number may stand right in front of it. -/
def redirection (fuel : Nat) : ScriptReading (Option Redirection) := do
  let cs ← remaining
  let digits := cs.takeWhile Char.isDigit
  match redirection? (cs.drop digits.length) with
  | none => return none
  | some (kind, n, usual) =>
    advance (digits.length + n)
    let descriptor := digits.foldl (fun n c => 10 * n + (c.toNat - 48)) 0
    let descriptor := if digits.isEmpty then usual else descriptor
    let target ← operand fuel
    match kind with
    | .here => return some ⟨descriptor, .here, ← hereDocument fuel (n == 3) target⟩
    | .duplicate =>
      if target.bareText? = some "-" then return some ⟨descriptor, .close, target⟩
      else return some ⟨descriptor, .duplicate, target⟩
    | kind => return some ⟨descriptor, kind, target⟩

def redirections : Nat → ScriptReading (List Redirection)
  | 0 => pure []
  | fuel + 1 => do
    skipGap
    match ← redirection fuel with
    | some r => return r :: (← redirections fuel)
    | none => return []

def values : Nat → ScriptReading (List Word)
  | 0 => pure []
  | fuel + 1 => do
    skipGap
    let w ← word fuel
    if w.isEmpty then return [] else return w :: (← values fuel)

def patterns : Nat → ScriptReading (List Word)
  | 0 => pure []
  | fuel + 1 => do
    let w ← operand fuel
    skipGap
    if ← accept ['|'] then return w :: (← patterns fuel)
    expectOperator ")"
    return [w]

/-- What is put together while a simple command is read; its line is where its first word ends. -/
structure SimpleParts where
  line : Nat
  assignments : List (String × Word) := []
  words : List Word := []
  redirections : List Redirection := []

def SimpleParts.isEmpty (p : SimpleParts) : Bool :=
  p.assignments.isEmpty && p.words.isEmpty && p.redirections.isEmpty

mutual

/-- Commands on one or more lines, up to a word or an operator that closes them; whatever has to
close them finds the end of the text for itself. -/
def list : Nat → ScriptReading Command
  | 0 => unexpected none
  | fuel + 1 => do
    skipLines fuel
    let cs ← remaining
    if cs.isEmpty then return .nothing
    if endsList cs then unexpected none
    let first ← andOr fuel
    listRest fuel first

def listRest : Nat → Command → ScriptReading Command
  | 0, _ => unexpected none
  | fuel + 1, first => do
    skipGap
    let cs ← remaining
    if [';', ';'].isPrefixOf cs then return first
    let separated ←
      if cs.head? = some '\n' ∨ cs.head? = some ';' ∨ cs.head? = some '&' then do
        advance 1
        skipLines fuel
        pure true
      else pure false
    if endsList (← remaining) then return first
    unless separated do unexpected none
    let second ← andOr fuel
    listRest fuel (.sequence first second)

/-- Pipelines between conditional operators, which group to the left. -/
def andOr : Nat → ScriptReading Command
  | 0 => unexpected none
  | fuel + 1 => do
    let first ← pipeline fuel
    andOrRest fuel first

def andOrRest : Nat → Command → ScriptReading Command
  | 0, _ => unexpected none
  | fuel + 1, left => do
    skipGap
    if ← accept ['&', '&'] then
      skipLines fuel
      let right ← pipeline fuel
      andOrRest fuel (.both left right)
    else if ← accept ['|', '|'] then
      skipLines fuel
      let right ← pipeline fuel
      andOrRest fuel (.either left right)
    else return left

def pipeline : Nat → ScriptReading Command
  | 0 => unexpected none
  | fuel + 1 => do
    skipGap
    if reserved? (← remaining) = some "!" then
      advance 1
      return .negation (← pipeline fuel)
    let first ← command fuel
    pipelineRest fuel first

def pipelineRest : Nat → Command → ScriptReading Command
  | 0, _ => unexpected none
  | fuel + 1, left => do
    skipGap
    let cs ← remaining
    if cs.head? = some '|' ∧ ¬ ['|', '|'].isPrefixOf cs then
      advance 1
      skipLines fuel
      let right ← command fuel
      pipelineRest fuel (.pipe left right)
    else return left

def command : Nat → ScriptReading Command
  | 0 => unexpected none
  | fuel + 1 => do
    skipGap
    let compound : ScriptReading (Option Command) := do
      match reserved? (← remaining) with
      | some "if" =>
        advance 2
        some <$> conditional fuel
      | some "while" =>
        advance 5
        some <$> repeated fuel true
      | some "until" =>
        advance 5
        some <$> repeated fuel false
      | some "for" =>
        advance 3
        some <$> eachValue fuel
      | some "case" =>
        advance 4
        some <$> selection fuel
      | some "\x7b" =>
        advance 1
        let c ← list fuel
        expectReserved "\x7d"
        return some c
      | some _ => unexpected none
      | none =>
        if ← accept ['('] then
          let c ← list fuel
          expectOperator ")"
          return some (.subshell c)
        else return none
    match ← compound with
    | some c =>
      let rs ← redirections fuel
      return if rs.isEmpty then c else .redirected c rs
    | none => simple fuel { line := (← get).line }

/-- The words, assignments and redirections of a simple command, which may turn out to define a
function. -/
def simple : Nat → SimpleParts → ScriptReading Command
  | 0, _ => unexpected none
  | fuel + 1, p => do
    skipGap
    match ← redirection fuel with
    | some r =>
      let here := (← get).line
      let line := if p.isEmpty then here else p.line
      simple fuel { p with line, redirections := p.redirections ++ [r] }
    | none =>
      let w ← word fuel
      if w.isEmpty then
        match p.words with
        | [name] =>
          if p.assignments.isEmpty ∧ p.redirections.isEmpty then
            if ← accept ['('] then
              skipGap
              expectOperator ")"
              skipLines fuel
              let body ← command fuel
              return .definition ((name.bareText?).getD "") body
        | _ => pure ()
        if p.isEmpty ∨ (← remaining).head? = some '(' then unexpected none
        return .simple p.line p.assignments p.words p.redirections
      else
        let here := (← get).line
        let line := if p.isEmpty then here else p.line
        match p.words, assignment? w with
        | [], some a => simple fuel { p with line, assignments := p.assignments ++ [a] }
        | _, _ => simple fuel { p with line, words := p.words ++ [w] }

def conditional : Nat → ScriptReading Command
  | 0 => unexpected none
  | fuel + 1 => do
    let condition ← list fuel
    expectReserved "then"
    let body ← list fuel
    match reserved? (← remaining) with
    | some "elif" =>
      advance 4
      return .choice condition body (← conditional fuel)
    | some "else" =>
      advance 4
      let otherwise ← list fuel
      expectReserved "fi"
      return .choice condition body otherwise
    | _ =>
      expectReserved "fi"
      return .choice condition body .nothing

def doGroup : Nat → ScriptReading Command
  | 0 => unexpected none
  | fuel + 1 => do
    expectReserved "do"
    let body ← list fuel
    expectReserved "done"
    return body

def repeated : Nat → Bool → ScriptReading Command
  | 0, _ => unexpected none
  | fuel + 1, whileTrue => do
    let condition ← list fuel
    return .loop whileTrue condition (← doGroup fuel)

def eachValue : Nat → ScriptReading Command
  | 0 => unexpected none
  | fuel + 1 => do
    skipGap
    let name ← span fun c => !isMeta c
    unless isName name do fail .badLoopVariable
    skipLines fuel
    let listed ←
      if (← remaining).takeWhile (fun c => !isMeta c) = ['i', 'n'] then do
        advance 2
        some <$> values fuel
      else pure none
    skipGap
    let _ ← accept [';']
    skipLines fuel
    return .each (String.ofList name) listed (← doGroup fuel)

def selection : Nat → ScriptReading Command
  | 0 => unexpected none
  | fuel + 1 => do
    let subject ← operand fuel
    skipLines fuel
    if (← remaining).takeWhile (fun c => !isMeta c) ≠ ['i', 'n'] then unexpected (some "in")
    advance 2
    return .selection subject (← branches fuel)

def branches : Nat → ScriptReading (List (List Word × Command))
  | 0 => unexpected none
  | fuel + 1 => do
    skipLines fuel
    if reserved? (← remaining) = some "esac" then
      advance 4
      return []
    skipGap
    let _ ← accept ['(']
    let ps ← patterns fuel
    skipLines fuel
    let body ← if endsList (← remaining) then pure .nothing else list fuel
    if ← accept [';', ';'] then return (ps, body) :: (← branches fuel)
    expectReserved "esac"
    return [(ps, body)]

end

/-- The commands of one line behind the first of them. -/
def lineRest : Nat → Command → ScriptReading Command
  | 0, _ => unexpected none
  | fuel + 1, first => do
    skipGap
    match ← remaining with
    | [] => return first
    | '\n' :: _ =>
      advance 1
      return first
    | c :: rest =>
      if (c = ';' ∧ rest.head? ≠ some ';') ∨ c = '&' then
        advance 1
        skipGap
        match ← remaining with
        | [] => return first
        | '\n' :: _ =>
          advance 1
          return first
        | _ =>
          let second ← andOr fuel
          lineRest fuel (.sequence first second)
      else unexpected none

end ScriptReading

namespace Script

/-- A bound for the depth of reading: no step goes deeper than eight levels without taking a
character. -/
def depth (s : Script) : Nat :=
  8 * (s.rest.length + 2)

/-- The next line of commands and the rest of the script; none at its end. -/
def nextCommand (s : Script) : Except ScriptFault (Option Command × Script) :=
  let read : ScriptReading (Option Command) := do
    ScriptReading.skipLines s.depth
    if (← ScriptReading.remaining).isEmpty then return none
    let first ← ScriptReading.andOr s.depth
    some <$> ScriptReading.lineRest s.depth first
  read s

end Script
end Shell
end MappingSweep
