import MappingSweep.Keyed
import MappingSweep.Number.Numeral
import MappingSweep.Shell.Command

/-!
# Arithmetic

The expressions of a script over signed 64-bit integers, which wrap.  A variable stands for the
numeral that it holds, and for zero if it is empty or not set.
-/

namespace MappingSweep
namespace Shell

inductive UnaryOperator where
  | identity
  | negate
  | isZero
deriving DecidableEq, Repr

inductive BinaryOperator where
  | or | and | equal | notEqual | less | lessEqual | greater | greaterEqual | add | subtract
  | multiply | divide | remainder
deriving DecidableEq, Repr

inductive Expression where
  | number (n : Int)
  | reference (name : String)
  | unary (op : UnaryOperator) (e : Expression)
  | binary (op : BinaryOperator) (left right : Expression)

inductive ArithmeticFault where
  | expected (what : String)
  | divisionByZero
  | illegalNumber (text : String)
deriving DecidableEq, Repr

def ArithmeticFault.message (expression : String) : ArithmeticFault → String
  | expected what => "arithmetic expression: expecting " ++ what ++ ": \"" ++ expression ++ "\""
  | divisionByZero => "arithmetic expression: division by zero: \"" ++ expression ++ "\""
  | illegalNumber text => "Illegal number: " ++ text

/-- The value of a numeral in base ten, or in base eight or sixteen if it says so. -/
def integer? : List Char → Option Int
  | '0' :: 'x' :: cs => (Number.readNat 16 cs).map fun n => (n : Int)
  | '0' :: c :: cs => (Number.readNat 8 (c :: cs)).map fun n => (n : Int)
  | cs => (Number.readNat 10 cs).map fun n => (n : Int)

/-- The operators by their texts with their ranks, longer texts first. -/
def BinaryOperator.table : List (List Char × Nat × BinaryOperator) :=
  [(['|', '|'], 1, or), (['&', '&'], 2, and), (['=', '='], 3, equal), (['!', '='], 3, notEqual),
    (['<', '='], 4, lessEqual), (['>', '='], 4, greaterEqual), (['<'], 4, less),
    (['>'], 4, greater), (['+'], 5, add), (['-'], 5, subtract), (['*'], 6, multiply),
    (['/'], 6, divide), (['%'], 6, remainder)]

namespace Expression

abbrev Reading (α : Type) : Type :=
  StateT (List Char) (Except ArithmeticFault) α

def isGap (c : Char) : Bool :=
  c ∈ [' ', '\t', '\n']

/-- The characters behind the gap in front of them. -/
def remaining : Reading (List Char) := fun cs =>
  .ok (cs.dropWhile isGap, cs.dropWhile isGap)

def advance (n : Nat) : Reading Unit := fun cs =>
  .ok ((), cs.drop n)

def fail {α : Type} (f : ArithmeticFault) : Reading α := fun _ =>
  .error f

mutual

def primary : Nat → Reading Expression
  | 0 => fail (.expected "primary")
  | fuel + 1 => do
    match ← remaining with
    | '(' :: _ =>
      advance 1
      let e ← ranked fuel 1
      unless (← remaining).head? = some ')' do fail (.expected "')'")
      advance 1
      return e
    | '+' :: _ => advance 1; return .unary .identity (← primary fuel)
    | '-' :: _ => advance 1; return .unary .negate (← primary fuel)
    | '!' :: _ => advance 1; return .unary .isZero (← primary fuel)
    | cs =>
      let word := cs.takeWhile isNameChar
      advance word.length
      if isName word then return .reference (String.ofList word)
      match integer? word with
      | some n => return .number n
      | none => fail (.expected "primary")

/-- An operand with the operators of at least a rank behind it. -/
def ranked : Nat → Nat → Reading Expression
  | 0, _ => fail (.expected "primary")
  | fuel + 1, rank => do
    let left ← primary fuel
    rankedRest fuel rank left

def rankedRest : Nat → Nat → Expression → Reading Expression
  | 0, _, left => pure left
  | fuel + 1, rank, left => do
    let cs ← remaining
    match BinaryOperator.table.find? fun entry => entry.1.isPrefixOf cs with
    | none => return left
    | some (text, r, op) =>
      if r < rank then return left
      advance text.length
      let right ← ranked fuel (r + 1)
      rankedRest fuel rank (.binary op left right)

end

/-- The expression that a text writes; an empty text writes zero. -/
def ofText (cs : List Char) : Except ArithmeticFault Expression :=
  if cs.all isGap then .ok (.number 0) else
  match (do
    let e ← ranked (4 * (cs.length + 2)) 1
    if (← remaining).isEmpty then return e else fail (.expected "EOF") : Reading Expression) cs with
  | .ok (e, _) => .ok e
  | .error f => .error f

def wrapped (n : Int) : Int :=
  Int.bmod n Number.wordBound

def ofBool (b : Bool) : Int :=
  if b then 1 else 0

end Expression

open Expression

def UnaryOperator.apply (n : Int) : UnaryOperator → Int
  | identity => n
  | negate => wrapped (-n)
  | isZero => ofBool (n == 0)

def BinaryOperator.apply (a b : Int) : BinaryOperator → Except ArithmeticFault Int
  | or => .ok (ofBool (a != 0 || b != 0))
  | and => .ok (ofBool (a != 0 && b != 0))
  | equal => .ok (ofBool (a == b))
  | notEqual => .ok (ofBool (a != b))
  | less => .ok (ofBool (a < b))
  | lessEqual => .ok (ofBool (a ≤ b))
  | greater => .ok (ofBool (b < a))
  | greaterEqual => .ok (ofBool (b ≤ a))
  | add => .ok (wrapped (a + b))
  | subtract => .ok (wrapped (a - b))
  | multiply => .ok (wrapped (a * b))
  | divide => if b = 0 then .error .divisionByZero else .ok (wrapped (Int.tdiv a b))
  | remainder => if b = 0 then .error .divisionByZero else .ok (Int.tmod a b)

namespace Expression

/-- The value of a variable. -/
def held (bindings : Keyed String) (name : String) : Except ArithmeticFault Int :=
  let text := (Keyed.get? name bindings).getD ""
  let number := match text.toList with
    | [] => some 0
    | '-' :: cs => (integer? cs).map (-·)
    | cs => integer? cs
  match number with
  | some n => .ok n
  | none => .error (.illegalNumber text)

/-- The value of an expression.  The second operand of a conditional operator counts only if the
first one does not decide. -/
def value (bindings : Keyed String) : Expression → Except ArithmeticFault Int
  | number n => .ok (wrapped n)
  | reference name => held bindings name
  | unary op e => do return op.apply (← value bindings e)
  | binary op left right => do
    let a ← value bindings left
    if (op = .or ∧ a ≠ 0) ∨ (op = .and ∧ a = 0) then return ofBool (a != 0)
    op.apply a (← value bindings right)

end Expression
end Shell
end MappingSweep
