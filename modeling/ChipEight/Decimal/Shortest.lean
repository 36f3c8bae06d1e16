import ChipEight.Decimal.Binary64

/-!
# Shortest decimals

The decimal number with the fewest digits that is nearer to a given binary number than to any
other, and its positional form. Of two such decimals the nearer one is taken, and the larger one if
both are equally near.
-/

set_option autoImplicit false

namespace ChipEight.Binary64

/-- The decimal number `digits * 10 ^ exponent`. -/
structure Decimal where
  digits : Nat
  exponent : Int
deriving DecidableEq, Repr

/-- The numbers that round to a number `x`, in quarters of its last place: both ends and the number
itself, and whether the ends belong to it. Below a power of two the next number is half as far. -/
structure Neighbourhood where
  low : Nat
  middle : Nat
  high : Nat
  closed : Bool

def neighbourhood (x : Binary64) : Neighbourhood where
  low := 4 * x.mantissa - if x.mantissa = 1 <<< 52 ∧ minExponent < x.exponent then 1 else 2
  middle := 4 * x.mantissa
  high := 4 * x.mantissa + 2
  closed := x.mantissa % 2 = 0

/-- `num / den` divided by `10 ^ k`, as a fraction. -/
def downScale (num den : Nat) (k : Int) : Nat × Nat :=
  if 0 ≤ k then (num, den * Nat.pow 10 k.toNat) else (num * Nat.pow 10 (-k).toNat, den)

/-- The least `p` in `0, 1, ...` with `num * 10 ^ p ≥ den`, looking at `fuel` of them. -/
def leadingZeros (num den : Nat) : Nat → Nat
  | 0 => 0
  | fuel + 1 => if den ≤ num then 0 else leadingZeros (num * 10) den fuel + 1

/-- The number of digits before the point; negative or zero for a fraction below a tenth or one. -/
def magnitude (num den : Nat) : Int :=
  if den ≤ num then (Nat.toDigits 10 (num / den)).length else 1 - leadingZeros num den 330

/-- The decimal with `count` significant digits nearest to `x`, if it rounds to `x`. -/
def roundTo? (x : Binary64) (count : Nat) : Option Decimal :=
  let near := x.neighbourhood
  let (unitNum, unitDen) := scale 1 1 (x.exponent - 2)
  let k := magnitude (near.middle * unitNum) unitDen - count
  -- One quarter of the last place is `num / den` of the decimal's own last place.
  let (num, den) := downScale unitNum unitDen k
  let inside (c : Nat) : Bool :=
    if near.closed then near.low * num ≤ c * den && c * den ≤ near.high * num
    else near.low * num < c * den && c * den < near.high * num
  let below := near.middle * num / den
  let above := below + 1
  let aboveNearer := decide (above * den - near.middle * num ≤ near.middle * num - below * den)
  if inside above && (aboveNearer || !inside below) then
    some (if above = Nat.pow 10 count then ⟨1, k + count⟩ else ⟨above, k⟩)
  else if inside below then some ⟨below, k⟩
  else none

/-- The decimal with the fewest digits, at most seventeen, that rounds to `x`. -/
def shortest (x : Binary64) : Decimal :=
  ((List.range 17).findSome? fun n => x.roundTo? (n + 1)).getD ⟨0, 0⟩

/-- A decimal in positional form with at least one digit on each side of the point. -/
def Decimal.text (d : Decimal) : String :=
  if 0 ≤ d.exponent then toString (d.digits * Nat.pow 10 d.exponent.toNat) ++ ".0"
  else
    let places := (-d.exponent).toNat
    let fraction := Nat.toDigits 10 (d.digits % Nat.pow 10 places)
    toString (d.digits / Nat.pow 10 places) ++ "." ++
      String.ofList (List.replicate (places - fraction.length) '0' ++ fraction)

/-- A number in positional form, with the fewest digits that tell it from every other. -/
def text (x : Binary64) : String := if x.mantissa = 0 then "0.0" else x.shortest.text

end ChipEight.Binary64
