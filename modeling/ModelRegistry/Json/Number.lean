import ModelRegistry.Decimal.Shortest

/-!
# Numbers in JSON

A number is an integer that fits 64 bits, signed or unsigned, or a double. Integers are written in
full. A double is written with the fewest digits that read back as it: positionally, with at least
one digit after the point, from `1e-5` up to but not including `1e16`, and otherwise with one digit
before the point and a signed exponent.
-/

namespace ModelRegistry.Json

/-- An integer of 64 bits, signed or unsigned. -/
abbrev Fits (i : Int) : Prop := -0x8000000000000000 ≤ i ∧ i < 0x10000000000000000

inductive Number
  | integer (i : Int) (fits : Fits i)
  | double (x : Float)
  deriving DecidableEq

namespace Number

/-- Whether two numbers are of one kind and equal in value; the two zeros of a double are. -/
def same : Number → Number → Bool
  | .integer i _, .integer j _ => i == j
  | .double x, .double y => x == y
  | _, _ => false

/-- The digits of a positive decimal in the layout of doubles. -/
def layout (s : Decimal.Scaled) : List Char :=
  let ds := Decimal.natText s.coefficient
  let point := (ds.length : Int) + s.exponent
  if 0 ≤ s.exponent ∧ point ≤ 16 then
    ds ++ List.replicate s.exponent.toNat '0' ++ ['.', '0']
  else if 0 < point ∧ point ≤ 16 then
    ds.take point.toNat ++ '.' :: ds.drop point.toNat
  else if -5 < point ∧ point ≤ 0 then
    '0' :: '.' :: List.replicate (-point).toNat '0' ++ ds
  else
    let e := point - 1
    let digits := match ds with
      | d :: rest@(_ :: _) => d :: '.' :: rest
      | ds => ds
    digits ++ 'e' :: (if e < 0 then '-' else '+') :: Decimal.natText e.natAbs

def signBit : Nat := 0x8000000000000000

def doubleText (x : Float) : List Char :=
  let bits := x.toBits.toNat
  let magnitude := bits % signBit
  let digits :=
    if magnitude = 0 then ['0', '.', '0']
    else layout (Decimal.shortest (.ofBits magnitude))
  if bits < signBit then digits else '-' :: digits

def text : Number → List Char
  | .integer i _ => Decimal.intText i
  | .double x => doubleText x

end Number

end ModelRegistry.Json
