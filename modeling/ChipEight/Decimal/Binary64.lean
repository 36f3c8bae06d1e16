/-!
# Binary floating-point numbers

Positive numbers of the form `mantissa * 2 ^ exponent` with a mantissa of 53 bits and exponents in
the double-precision range, and the number of this form nearest to a given fraction.
-/

set_option autoImplicit false

namespace ChipEight

/-- The number `mantissa * 2 ^ exponent`. -/
structure Binary64 where
  mantissa : Nat
  exponent : Int
deriving DecidableEq, Repr

namespace Binary64

/-- The exponent of the smallest positive number. -/
def minExponent : Int := -1074

/-- The fraction `num / den` times `2 ^ e`, as a fraction. -/
def scale (num den : Nat) (e : Int) : Nat × Nat :=
  if 0 ≤ e then (num <<< e.toNat, den) else (num, den <<< (-e).toNat)

/-- The integer nearest to `num / den`; a half goes to the even neighbour. -/
def roundHalfEven (num den : Nat) : Nat :=
  let q := num / den
  let twice := 2 * (num % den)
  if den < twice ∨ (twice = den ∧ q % 2 = 1) then q + 1 else q

/-- The greatest `e` with `2 ^ e ≤ num / den`, for positive `num` and `den`. -/
def log2 (num den : Nat) : Int :=
  let e : Int := num.log2 - den.log2
  let (n, d) := scale num den (-e)
  if d ≤ n then e else e - 1

/-- The number nearest to the positive fraction `num / den`, or `none` if it is too large. -/
def nearest? (num den : Nat) : Option Binary64 :=
  if num = 0 then some ⟨0, minExponent⟩
  else
    let e := max (log2 num den - 52) minExponent
    let (n, d) := scale num den (-e)
    let m := roundHalfEven n d
    let x : Binary64 := if m = 1 <<< 53 then ⟨1 <<< 52, e + 1⟩ else ⟨m, e⟩
    if 971 < x.exponent then none else some x

/-- The number nearest to `digits * 10 ^ exponent`. Exponents far beyond the range are decided by
the size of the number alone. -/
def ofDecimal? (digits : Nat) (exponent : Int) : Option Binary64 :=
  let size : Int := (Nat.toDigits 10 digits).length + exponent
  if digits = 0 ∨ size < -400 then some ⟨0, minExponent⟩
  else if 400 < size then none
  else if 0 ≤ exponent then nearest? (digits * Nat.pow 10 exponent.toNat) 1
  else nearest? digits (Nat.pow 10 (-exponent).toNat)

end Binary64

end ChipEight
