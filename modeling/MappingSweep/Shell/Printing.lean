import MappingSweep.Number.Numeral

/-!
# Printing

The output of `echo` and `printf` in octets: escapes that a backslash introduces, and the directives
of a format, which is used again as long as arguments are left.
-/

namespace MappingSweep
namespace Shell

def octets (cs : List Char) : List UInt8 :=
  (String.ofList cs).toUTF8.toList

def escapeOctet : Char → Option UInt8
  | 'a' => some 7
  | 'b' => some 8
  | 'f' => some 12
  | 'n' => some 10
  | 'r' => some 13
  | 't' => some 9
  | 'v' => some 11
  | '\\' => some 92
  | _ => none

def isOctal (c : Char) : Bool :=
  48 ≤ c.toNat && c.toNat ≤ 55

def octalOctet (cs : List Char) : UInt8 :=
  UInt8.ofNat (cs.foldl (fun n c => 8 * n + (c.toNat - 48)) 0)

/-- The octets of a text with escapes, and whether the escape that ends all output was met.  With
`zeroFirst`, a zero may stand in front of three octal digits. -/
def unescape (zeroFirst : Bool) : Nat → List Char → List UInt8 × Bool
  | 0, _ => ([], false)
  | _, [] => ([], false)
  | fuel + 1, '\\' :: rest =>
    let digits := if zeroFirst ∧ rest.head? = some '0'
      then rest.take 1 ++ ((rest.drop 1).takeWhile isOctal).take 3
      else (rest.takeWhile isOctal).take 3
    if zeroFirst ∧ rest.head? = some 'c' then ([], true)
    else if ¬ digits.isEmpty then
      let (more, stop) := unescape zeroFirst fuel (rest.drop digits.length)
      (octalOctet digits :: more, stop)
    else match rest.head?.bind escapeOctet with
      | some b =>
        let (more, stop) := unescape zeroFirst fuel (rest.drop 1)
        (b :: more, stop)
      | none =>
        let (more, stop) := unescape zeroFirst fuel rest
        (92 :: more, stop)
  | fuel + 1, c :: rest =>
    let (more, stop) := unescape zeroFirst fuel rest
    (octets [c] ++ more, stop)

/-- The output of `echo`. -/
def echoed (escapes : Bool) (arguments : List String) : List UInt8 :=
  let (newline, words) := match arguments with
    | "-n" :: rest => (false, rest)
    | words => (true, words)
  let text := (" ".intercalate words).toList
  let (bytes, stop) := if escapes then unescape true text.length text else (octets text, false)
  bytes ++ if newline && !stop then [10] else []

structure Placement where
  left : Bool := false
  zeros : Bool := false
  width : Nat := 0
  precision : Option Nat := none

inductive FormatPiece where
  | octets (bytes : List UInt8)
  | directive (p : Placement) (conversion : Char)

namespace FormatPiece

def number (cs : List Char) : Nat :=
  cs.foldl (fun n c => 10 * n + (c.toNat - 48)) 0

def directive? (cs : List Char) : Option (FormatPiece × List Char) := do
  let flags := cs.takeWhile fun c => c ∈ ['-', '0']
  let cs := cs.drop flags.length
  let width := cs.takeWhile Char.isDigit
  let cs := cs.drop width.length
  let (precision, cs) := match cs with
    | '.' :: rest =>
      let digits := rest.takeWhile Char.isDigit
      (some (number digits), rest.drop digits.length)
    | cs => (none, cs)
  match cs with
  | [] => none
  | c :: rest =>
    let p : Placement :=
      { left := '-' ∈ flags, zeros := '0' ∈ flags, width := number width, precision }
    some (.directive p c, rest)

def ofFormat : Nat → List Char → List FormatPiece
  | 0, _ => []
  | _, [] => []
  | fuel + 1, '%' :: '%' :: rest => .octets [37] :: ofFormat fuel rest
  | fuel + 1, '%' :: rest =>
    match directive? rest with
    | some (d, rest) => d :: ofFormat fuel rest
    | none => [.octets (Shell.octets ('%' :: rest))]
  | fuel + 1, cs =>
    let text := cs.takeWhile (· != '%')
    .octets (unescape false text.length text).1 :: ofFormat fuel (cs.drop text.length)

def takesArgument : FormatPiece → Bool
  | directive .. => true
  | octets _ => false

end FormatPiece

namespace Placement

def place (p : Placement) (text : List UInt8) : List UInt8 :=
  let gap := List.replicate (p.width - text.length) (32 : UInt8)
  if p.left then text ++ gap else gap ++ text

/-- Digits with their sign on the width, filled up behind the sign. -/
def placeNumber (p : Placement) (n : Int) : List UInt8 :=
  let digits := Number.digits 10 n.natAbs
  let digits := List.replicate ((p.precision.getD 1) - digits.length) '0' ++ digits
  let sign := if n < 0 then ['-'] else []
  let zeros := if p.zeros && !p.left && p.precision.isNone
    then List.replicate (p.width - (sign.length + digits.length)) '0' else []
  p.place (octets (sign ++ zeros ++ digits))

end Placement

/-- The output of `printf` so far, with what it complains about. -/
structure Printed where
  bytes : List UInt8 := []
  complaints : List String := []
  stopped : Bool := false
  status : Nat := 0

namespace Printed

def add (o : Printed) (bytes : List UInt8) : Printed :=
  { o with bytes := o.bytes ++ bytes }

/-- The argument of a directive as a number; a text that is none counts as zero. -/
def addNumber (o : Printed) (p : Placement) (argument : String) : Printed :=
  match if argument.isEmpty then some 0 else Number.readInt 10 argument.toList with
  | some n => o.add (p.placeNumber n)
  | none => { o.add (p.placeNumber 0) with
    complaints := o.complaints ++ [argument ++ ": expected numeric value"], status := 1 }

def convert (o : Printed) (p : Placement) (conversion : Char) (argument : String) : Printed :=
  match conversion with
  | 's' =>
    let text := octets argument.toList
    o.add (p.place (text.take (p.precision.getD text.length)))
  | 'd' => o.addNumber p argument
  | 'i' => o.addNumber p argument
  | c => { o with
    complaints := o.complaints ++ ["%" ++ String.ofList [c] ++ ": invalid directive"]
    stopped := true
    status := 2 }

/-- One use of a format; missing arguments count as empty. -/
def format (o : Printed) : List FormatPiece → List String → Printed × List String
  | [], arguments => (o, arguments)
  | piece :: rest, arguments =>
    if o.stopped then (o, []) else
    match piece with
    | .octets bytes => (o.add bytes).format rest arguments
    | .directive p c => (o.convert p c (arguments.head?.getD "")).format rest (arguments.drop 1)

/-- Uses a format until no arguments are left. -/
def formatAll : Nat → List FormatPiece → Printed → List String → Printed
  | 0, _, o, _ => o
  | fuel + 1, pieces, o, arguments =>
    match o.format pieces arguments with
    | (o, []) => o
    | (o, rest) => if pieces.any FormatPiece.takesArgument then formatAll fuel pieces o rest else o

/-- The output of `printf`. -/
def ofArguments (format : String) (arguments : List String) : Printed :=
  let pieces := FormatPiece.ofFormat (2 * format.length + 1) format.toList
  formatAll (arguments.length + 1) pieces {} arguments

end Printed
end Shell
end MappingSweep
