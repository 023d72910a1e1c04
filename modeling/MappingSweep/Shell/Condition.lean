import MappingSweep.FileSystem.Basic
import MappingSweep.Text.Blank

/-!
# Conditions

What `test` and `[` decide from their arguments: comparisons of two operands, tests of one, and
negations of these.
-/

namespace MappingSweep
namespace Shell

inductive ConditionFault where
  | illegalNumber (text : String)
  | unexpectedOperator (text : String)
  | missingOperand (op : String)
  | missingBracket
deriving DecidableEq, Repr

def ConditionFault.message : ConditionFault → String
  | illegalNumber text => "Illegal number: " ++ text
  | unexpectedOperator text => text ++ ": unexpected operator"
  | missingOperand op => op ++ ": argument expected"
  | missingBracket => "missing ]"

namespace Condition

abbrev Result (α : Type) : Type := Except ConditionFault α

/-- An integer, with blanks around it at most. -/
def number (text : String) : Result Int :=
  match Number.readInt 10 (Text.trimChars text.toList) with
  | some n => .ok n
  | none => .error (.illegalNumber text)

def comparisons : List (String × (Int → Int → Bool)) :=
  [("-eq", (· == ·)), ("-ne", (· != ·)), ("-lt", fun a b => a < b), ("-le", fun a b => a ≤ b),
    ("-gt", fun a b => b < a), ("-ge", fun a b => b ≤ a)]

def isBinary (word : String) : Bool :=
  word ∈ ["=", "!="] || (comparisons.lookup word).isSome

def compare (left op right : String) : Result Bool :=
  if op = "=" then .ok (left == right)
  else if op = "!=" then .ok (left != right)
  else match comparisons.lookup op with
    | some test => do return test (← number left) (← number right)
    | none => .error (.unexpectedOperator op)

def entryTests : List (String × (Entry → Bool)) :=
  [("-e", fun _ => true), ("-r", fun _ => true), ("-w", fun _ => true),
    ("-d", fun | .directory => true | .file .. => false),
    ("-f", fun | .directory => false | .file .. => true),
    ("-s", fun | .directory => true | .file content _ => content.size != 0),
    ("-x", fun | .directory => true | .file _ executable => executable)]

def isUnary (word : String) : Bool :=
  word ∈ ["-n", "-z"] || (entryTests.lookup word).isSome

/-- A test of one operand, which may lead to an entry. -/
def examine (look : String → Option Entry) (op operand : String) : Bool :=
  if op = "-n" then !operand.isEmpty
  else if op = "-z" then operand.isEmpty
  else match entryTests.lookup op with
    | some test => (look operand).any test
    | none => false

/-- What is decided from the front of the words, and the words that are left. -/
def decideFront (look : String → Option Entry) : List String → Result (Bool × List String)
  | [] => .ok (false, [])
  | [word] => .ok (!word.isEmpty, [])
  | [left, op] =>
    if left = "!" then .ok (op.isEmpty, [])
    else if isUnary left then .ok (examine look left op, [])
    else if isBinary op then .error (.missingOperand op)
    else .ok (!left.isEmpty, [op])
  | left :: op :: right :: rest =>
    if isBinary op then do return (← compare left op right, rest)
    else if left = "!" then do
      let (b, rest) ← decideFront look (op :: right :: rest)
      return (!b, rest)
    else if isUnary left then .ok (examine look left op, right :: rest)
    else .ok (!left.isEmpty, op :: right :: rest)

/-- Whether the arguments of `test` hold. -/
def holds (look : String → Option Entry) (words : List String) : Result Bool := do
  let (value, rest) ← decideFront look words
  if rest.isEmpty then return value
  throw (.unexpectedOperator (words.getD (words.length - rest.length - 1) ""))

/-- Whether the arguments of `[` hold; the last one has to be the closing bracket. -/
def holdsBracketed (look : String → Option Entry) (words : List String) : Result Bool :=
  if words.getLast? = some "]" then holds look words.dropLast else .error .missingBracket

end Condition
end Shell
end MappingSweep
