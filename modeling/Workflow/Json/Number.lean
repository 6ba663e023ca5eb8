import Workflow.Json.Scan
import Workflow.Json.Value
import Workflow.Text.Digits

/-!
# JSON numbers

A numeral is a sign, digits without a leading zero, and perhaps a fraction and an exponent.
`numeral` scans its parts and `Numeral.value` gives its value: an exact integer if it is written
as one in the range from `-2 ^ 63` to `2 ^ 64 - 1`, and a double otherwise.

The double is made from a significand below `2 ^ 64`, scaled once by a power of ten; digits that
no longer fit the significand count for their place only.
-/

namespace Workflow
namespace Json

/-- The parts of a numeral; a fraction or exponent that is absent has no digits. -/
structure Numeral where
  negative : Bool
  whole : List Char
  fraction : List Char
  exponentNegative : Bool
  exponent : List Char

/-- Reads one or more digits; `atEnd` tells what it means that the text ends before them. -/
def digits (atEnd : ReadError) : Scan (List Char)
  | [] => .error atEnd
  | c :: text =>
      if c.isDigit then
        .ok (c :: text.takeWhile Char.isDigit, text.dropWhile Char.isDigit)
      else
        .error .malformed

/-- Reads the whole part: a zero, or digits that do not start with one. -/
def wholePart (atEnd : ReadError) : Scan (List Char)
  | '0' :: text =>
      match text with
      | c :: _ => if c.isDigit then .error .malformed else .ok (['0'], text)
      | [] => .ok (['0'], text)
  | text => digits atEnd text

/-- Reads the fraction, if there is one. -/
def fractionPart (atEnd : ReadError) : Scan (List Char)
  | '.' :: text => digits atEnd text
  | text => .ok ([], text)

/-- Splits the sign off an exponent; the result tells whether it is a minus. -/
def exponentSign : List Char → Bool × List Char
  | '+' :: text => (false, text)
  | '-' :: text => (true, text)
  | text => (false, text)

/-- Reads the exponent, if there is one. -/
def exponentPart (atEnd : ReadError) : Scan (Bool × List Char)
  | [] => .ok ((false, []), [])
  | c :: text =>
      if c = 'e' ∨ c = 'E' then do
        let (negative, text) := exponentSign text
        let (ds, text) ← digits atEnd text
        .ok ((negative, ds), text)
      else
        .ok ((false, []), c :: text)

/-- Reads a numeral behind its sign. -/
def unsignedNumeral (negative : Bool) (atEnd : ReadError) : Scan Numeral := fun text => do
  let (whole, text) ← wholePart atEnd text
  let (fraction, text) ← fractionPart atEnd text
  let ((exponentNegative, exponent), text) ← exponentPart atEnd text
  .ok ({ negative, whole, fraction, exponentNegative, exponent }, text)

def numeral (atEnd : ReadError) : Scan Numeral
  | '-' :: text => unsignedNumeral true atEnd text
  | text => unsignedNumeral false atEnd text

/-- Whether a value that starts with `c` is a number. -/
def startsNumeral (c : Char) : Bool :=
  c = '-' || c.isDigit

/-- Appends digits to a significand while it stays below `2 ^ 64`, and counts those taken. -/
def absorb (significand : Nat) : List Char → Nat × Nat
  | [] => (significand, 0)
  | d :: ds =>
      let next := significand * 10 + Text.digitValue d
      if next < UInt64.size then
        let (result, taken) := absorb next ds
        (result, taken + 1)
      else
        (significand, 0)

/-- A power of ten up to `10 ^ 308`. -/
def powerOfTen (exponent : Nat) : Float :=
  Float.ofScientific 1 false exponent

/-- `x / 10 ^ exponent`, in steps of at most `10 ^ 308`. -/
def scaleDown (x : Float) (exponent : Nat) : Float :=
  if exponent ≤ 308 then x / powerOfTen exponent
  else if x == 0.0 then x
  else scaleDown (x / powerOfTen 308) (exponent - 308)
termination_by exponent

/-- `significand * 10 ^ exponent`, unless that is beyond the doubles.  For zero it never is. -/
def scaleUp (significand exponent : Nat) : Option Float :=
  let x := Float.ofNat significand
  if exponent ≤ 308 then
    let y := x * powerOfTen exponent
    if y.isInf then none else some y
  else if significand = 0 then some x
  else none

namespace Numeral

def isWhole (n : Numeral) : Bool :=
  n.fraction.isEmpty && n.exponent.isEmpty

/-- The double that a numeral stands for, if there is one. -/
def toFloat? (n : Numeral) : Option Float :=
  let (significand, kept) := absorb 0 n.whole
  let (significand, added) := absorb significand n.fraction
  let shift : Int := Text.natOfDigits n.exponent
  let exponent : Int :=
    (if n.exponentNegative then -shift else shift) + (n.whole.length - kept : Nat) - added
  let magnitude : Option Float :=
    if exponent < 0 then
      some (scaleDown (Float.ofNat significand) exponent.natAbs)
    else
      scaleUp significand exponent.natAbs
  magnitude.map fun x => if n.negative then -x else x

/-- The integer that a numeral stands for, if it is written as one in the range that is kept
exactly.  A negative zero is not. -/
def toInt? (n : Numeral) : Option Int :=
  let magnitude := Text.natOfDigits n.whole
  if n.isWhole = false then none
  else if n.negative then
    if 0 < magnitude ∧ magnitude ≤ Nat.pow 2 63 then some (-(magnitude : Int)) else none
  else
    if magnitude < Nat.pow 2 64 then some magnitude else none

/-- The value of a numeral; one that no double comes near is refused. -/
def value (n : Numeral) : Except ReadError Value :=
  match n.toInt? with
  | some i => .ok (.int i)
  | none =>
      match n.toFloat? with
      | some x => .ok (.real x)
      | none => .error .malformed

end Numeral

def number : Scan Value := fun text => do
  let (n, text) ← numeral .cutOff text
  let value ← n.value
  .ok (value, text)

end Json
end Workflow
