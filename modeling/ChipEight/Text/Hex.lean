/-!
# Hexadecimal text

Numbers written with a fixed count of upper-case hexadecimal digits. `value_digits` says that the
digits read back as the number, modulo what fits.
-/

set_option autoImplicit false

namespace ChipEight.Hex

/-- The digit of a number below sixteen. -/
def digit (n : Nat) : Char := if n < 10 then Char.ofNat (48 + n) else Char.ofNat (55 + n)

/-- The number of an upper-case digit. -/
def digitValue (c : Char) : Nat := if c.toNat < 58 then c.toNat - 48 else c.toNat - 55

/-- The last `width` digits of `n`. -/
def digits : Nat → Nat → List Char
  | 0, _ => []
  | width + 1, n => digits width (n / 16) ++ [digit (n % 16)]

/-- The number that a list of digits stands for. -/
def value (cs : List Char) : Nat := cs.foldl (fun n c => n * 16 + digitValue c) 0

/-- The last `width` digits of `n` as text. -/
def text (width n : Nat) : String := String.ofList (digits width n)

theorem digitValue_digit {n : Nat} (h : n < 16) : digitValue (digit n) = n := by
  have : ∀ n, n < 16 → digitValue (digit n) = n := by decide
  exact this n h

theorem length_digits (width n : Nat) : (digits width n).length = width := by
  induction width generalizing n with
  | zero => rfl
  | succ width ih => simp [digits, ih]

theorem value_digits (width n : Nat) : value (digits width n) = n % Nat.pow 16 width := by
  induction width generalizing n with
  | zero => simp [digits, value, Nat.mod_one]
  | succ width ih =>
    have h : n % 16 < 16 := Nat.mod_lt _ (by decide)
    have step : value (digits width (n / 16) ++ [digit (n % 16)]) =
        value (digits width (n / 16)) * 16 + digitValue (digit (n % 16)) := by
      simp [value, List.foldl_append]
    have hpow : Nat.pow 16 (width + 1) = 16 * Nat.pow 16 width := Nat.mul_comm ..
    rw [digits, step, ih, digitValue_digit h, hpow, Nat.mod_mul]
    omega

end ChipEight.Hex
