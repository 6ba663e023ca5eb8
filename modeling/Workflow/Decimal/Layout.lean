import Workflow.Decimal.Shortest

/-!
# Layout of decimals

A decimal is written positionally while the exponent of its leading digit lies in a given range,
and with an exponent elsewhere.  `Layout` holds what a format decides, `Layout.text` writes.
-/

namespace Workflow
namespace Decimal

/-- What a format decides about its numbers. -/
structure Layout where
  /-- The least exponent of the leading digit that is written positionally. -/
  least : Int
  /-- The greatest exponent of the leading digit that is written positionally. -/
  greatest : Int
  /-- Whether an exponent that is not negative has a plus sign. -/
  plus : Bool

def leading (d : Decimal) : Int :=
  d.exponent + (Nat.repr d.digits).length - 1

/-- A decimal with all its places, and with one place after the point if it has none. -/
def positional (d : Decimal) : String :=
  let digits := (Nat.repr d.digits).toList
  let lead := d.leading
  if 0 ≤ d.exponent then
    String.ofList (digits ++ List.replicate d.exponent.toNat '0' ++ ['.', '0'])
  else if 0 ≤ lead then
    let whole := lead.toNat + 1
    String.ofList (digits.take whole ++ ['.'] ++ digits.drop whole)
  else
    String.ofList (['0', '.'] ++ List.replicate (-lead - 1).toNat '0' ++ digits)

/-- A decimal with one digit before the point and an exponent. -/
def scientific (plus : Bool) (d : Decimal) : String :=
  let digits := (Nat.repr d.digits).toList
  let lead := d.leading
  let mantissa := if digits.length = 1 then digits else digits.take 1 ++ ['.'] ++ digits.drop 1
  let sign := if lead < 0 then ['-'] else if plus then ['+'] else []
  String.ofList (mantissa ++ ['e'] ++ sign ++ (Nat.repr lead.natAbs).toList)

def Layout.decimalText (layout : Layout) (d : Decimal) : String :=
  if layout.least ≤ d.leading ∧ d.leading ≤ layout.greatest then
    d.positional
  else
    d.scientific layout.plus

/-- The text of a finite double. -/
def Layout.text (layout : Layout) (x : Float) : String :=
  let bits := x.toBits
  let sign := if bits.toNat / Nat.pow 2 63 = 1 then "-" else ""
  let b := Binary.ofBits bits
  if b.significand = 0 then
    sign ++ "0.0"
  else
    sign ++ layout.decimalText (shortest b)

end Decimal
end Workflow
