/-!
# Shortest decimals

A double stands for every real number that rounds to it.  `shortest` picks the decimal with the
fewest digits among those, and of several the one nearest to the double: it goes down the grids
`10 ^ e` and stops at the first that has a point among those reals.  All arithmetic is exact.
-/

namespace Workflow

/-- The number `digits * 10 ^ exponent`. -/
structure Decimal where
  digits : Nat
  exponent : Int

namespace Decimal

/-- A positive double `significand * 2 ^ exponent`. -/
structure Binary where
  significand : Nat
  exponent : Int

/-- The double of some bits, its sign left out. -/
def Binary.ofBits (bits : UInt64) : Binary :=
  let field := (bits.toNat >>> 52) % 2048
  let fraction := bits.toNat % Nat.pow 2 52
  if field = 0 then
    ⟨fraction, -1074⟩
  else
    ⟨fraction + Nat.pow 2 52, (field : Int) - 1075⟩

/-- Four times the significand of the lower end of the reals that round to `b`.  Below a power of
two the neighbour is half as far away. -/
def Binary.lowerEnd (b : Binary) : Nat :=
  if b.significand = Nat.pow 2 52 ∧ b.exponent ≠ -1074 then
    4 * b.significand - 1
  else
    4 * b.significand - 2

/-- Four times the significand of the upper end of the reals that round to `b`. -/
def Binary.upperEnd (b : Binary) : Nat :=
  4 * b.significand + 2

/-- Factors that bring a multiple of `10 ^ e` and a quarter multiple of `2 ^ q` to one scale. -/
def scales (e q : Int) : Nat × Nat :=
  (Nat.pow 10 e.toNat * Nat.pow 2 (2 - q).toNat, Nat.pow 2 (q - 2).toNat * Nat.pow 10 (-e).toNat)

/-- Whether `digits * 10 ^ e` rounds to `b`; the ends do so for an even significand. -/
def roundsTo (b : Binary) (e : Int) (digits : Nat) : Bool :=
  let (ten, two) := scales e b.exponent
  let x := digits * ten
  let low := b.lowerEnd * two
  let high := b.upperEnd * two
  if b.significand % 2 = 0 then
    low ≤ x && x ≤ high
  else
    low < x && x < high

/-- The point of the grid `10 ^ e` that rounds to `b`, if any: of two the nearer, of two equally
near the even one. -/
def onGrid (b : Binary) (e : Int) : Option Nat :=
  let (ten, two) := scales e b.exponent
  let x := 4 * b.significand * two
  let below := x / ten
  let above := below + 1
  match roundsTo b e below, roundsTo b e above with
  | true, true =>
      let down := x - below * ten
      let up := above * ten - x
      if down < up ∨ (down = up ∧ below % 2 = 0) then some below else some above
  | true, false => some below
  | false, true => some above
  | false, false => none

/-- Tries `count` grids from `10 ^ e` downwards. -/
def search (b : Binary) : (count : Nat) → (e : Int) → Option Decimal
  | 0, _ => none
  | count + 1, e =>
      match onGrid b e with
      | some digits => some ⟨digits, e⟩
      | none => search b count (e - 1)

/-- The decimal with the fewest digits that rounds to `b`.  Doubles lie below `10 ^ 309`, and the
grid `10 ^ (-325)` is finer than any of them, so the search does not fail on a double. -/
def shortest (b : Binary) : Decimal :=
  (search b 635 309).getD ⟨0, 0⟩

end Decimal
end Workflow
