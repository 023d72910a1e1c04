import MappingSweep.Number.Decimal
import MappingSweep.Text.Quoted

/-!
# Values of configuration documents

A document's value with its key order, its types and its application tags.  Integers cover the
signed and the unsigned 64-bit range.  Two values are equal as mapping keys when they have the same
type and content; mappings compare without regard to order, and all NaNs count as one value.
-/

namespace MappingSweep
namespace Yaml

inductive Number where
  | int (n : Int)
  | float (x : Float)
deriving DecidableEq, Inhabited

namespace Number

def text : Number → String
  | int n => MappingSweep.Number.decimalInt n
  | float x => (MappingSweep.Number.Binary64.ofFloat x).toDocumentText

def sameKey : Number → Number → Bool
  | int a, int b => a == b
  | float a, float b => (a.isNaN && b.isNaN) || a == b
  | _, _ => false

end Number

inductive Value where
  | null
  | bool (b : Bool)
  | number (n : Number)
  | string (s : String)
  | sequence (items : List Value)
  | mapping (entries : List (Value × Value))
  | tagged (tag : String) (value : Value)
deriving Inhabited

def boolText (b : Bool) : String :=
  if b then "true" else "false"

namespace Value

mutual

def sameKey : Value → Value → Bool
  | null, null => true
  | bool a, bool b => a == b
  | number a, number b => a.sameKey b
  | string a, string b => a == b
  | sequence xs, sequence ys => sameItems xs ys
  | mapping xs, mapping ys => xs.length == ys.length && sameEntries xs ys
  | tagged s v, tagged t w => s == t && sameKey v w
  | _, _ => false

def sameItems : List Value → List Value → Bool
  | [], [] => true
  | x :: xs, y :: ys => sameKey x y && sameItems xs ys
  | _, _ => false

def sameEntries : List (Value × Value) → List (Value × Value) → Bool
  | [], _ => true
  | (k, v) :: xs, ys => (ys.any fun e => sameKey k e.1 && sameKey v e.2) && sameEntries xs ys

end

/-- A tag is shown with one leading exclamation mark. -/
def shownTag (tag : String) : String :=
  match tag.toList with
  | ['!'] => "!!"
  | '!' :: rest => "!" ++ String.ofList rest
  | _ => "!" ++ tag

mutual

def shown : Value → String
  | null => "Null"
  | bool b => "Bool(" ++ boolText b ++ ")"
  | number n => "Number(" ++ n.text ++ ")"
  | string s => "String(" ++ Text.quoted s ++ ")"
  | sequence xs => "Sequence [" ++ ", ".intercalate (shownItems xs) ++ "]"
  | mapping xs => "Mapping \x7b" ++ ", ".intercalate (shownEntries xs) ++ "\x7d"
  | tagged t v => "TaggedValue \x7b tag: " ++ shownTag t ++ ", value: " ++ shown v ++ " \x7d"

def shownItems : List Value → List String
  | [] => []
  | x :: xs => shown x :: shownItems xs

def shownEntries : List (Value × Value) → List String
  | [] => []
  | (k, v) :: xs =>
    let key := match k with
      | bool b => boolText b
      | number n => n.text
      | string s => Text.quoted s
      | k => shown k
    (key ++ ": " ++ shown v) :: shownEntries xs

end

end Value
end Yaml
end MappingSweep
