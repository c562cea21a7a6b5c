import ModelRegistry.Decimal.Digits

/-!
# The shortest decimal of a double

A finite positive double is `m · 2 ^ q`. The decimals that read back as it lie in the interval
between the midpoints to its two neighbours, the ends included when `m` is even. `shortest` takes
the coarsest decimal grid with a point in that interval, on it the point nearest to the double, and
of two equally near ones the even one.
-/

namespace ModelRegistry.Decimal

/-- A positive double as an integer multiple of a power of two. `tight` says that the gap to the
next smaller double is half the gap to the next larger one. -/
structure Binary where
  significand : Nat
  exponent : Int
  tight : Bool

/-- A decimal as an integer multiple of a power of ten. -/
structure Scaled where
  coefficient : Nat
  exponent : Int

namespace Binary

/-- The leading bit of the significand, which is not stored. -/
def implicitBit : Nat := 0x10000000000000

def ofBits (bits : Nat) : Binary :=
  let biased : Nat := bits / implicitBit % 0x800
  let fraction : Nat := bits % implicitBit
  if biased = 0 then ⟨fraction, -1074, false⟩
  else ⟨fraction + implicitBit, (biased : Int) - 1075, fraction == 0 && biased != 1⟩

/-- The best point of the grid of multiples of `10 ^ e`, if one reads back as the double. Lengths
are measured in quarters of the unit `2 ^ exponent`. -/
def onGrid (b : Binary) (e : Int) : Option Nat :=
  let q := b.exponent - 2
  let unit := Nat.pow 2 q.toNat * Nat.pow 10 (-e).toNat
  let step := Nat.pow 2 (-q).toNat * Nat.pow 10 e.toNat
  let middle := 4 * b.significand * unit
  let low := (4 * b.significand - if b.tight then 1 else 2) * unit
  let high := (4 * b.significand + 2) * unit
  let inside (c : Nat) : Bool :=
    if b.significand % 2 = 0 then low ≤ c * step && c * step ≤ high
    else low < c * step && c * step < high
  let below := middle / step
  let above := below + 1
  match below != 0 && inside below, inside above with
  | false, false => none
  | true, false => some below
  | false, true => some above
  | true, true =>
    let down := middle - below * step
    let up := above * step - middle
    if down < up || (down == up && below % 2 == 0) then some below else some above

/-- Tries the grids from `10 ^ (n - 325)` down to the finest one that is needed, `10 ^ (-324)`. -/
def search (b : Binary) : Nat → Scaled
  | 0 => ⟨0, 0⟩
  | n + 1 =>
    let e := (n : Int) - 324
    match b.onGrid e with
    | some c => ⟨c, e⟩
    | none => b.search n

end Binary

def shortest (b : Binary) : Scaled :=
  b.search 634

end ModelRegistry.Decimal
