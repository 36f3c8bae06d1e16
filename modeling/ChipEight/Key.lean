/-!
# Keys

The sixteen keys of the hexadecimal keypad. `ofNat?_eq_some_iff` says that the codes `0` to `15`,
and no others, name a key.
-/

set_option autoImplicit false

namespace ChipEight

/-- A key, named by its code. -/
structure Key where
  code : Fin 16
deriving DecidableEq, Repr

namespace Key

/-- All keys in the order of their codes. -/
def all : List Key := (List.finRange 16).map Key.mk

/-- The key with code `n`, if there is one. -/
def ofNat? (n : Nat) : Option Key := if h : n < 16 then some ⟨⟨n, h⟩⟩ else none

/-- The key with the code in a byte, if there is one. -/
def ofByte? (b : UInt8) : Option Key := ofNat? b.toNat

/-- The code as a byte. -/
def toByte (k : Key) : UInt8 := UInt8.ofNat k.code

/-- The letter `k` and the code as a lower-case hexadecimal digit. -/
def name (k : Key) : String := "k".push (Nat.digitChar k.code)

/-- What a number must satisfy to be a key's code, in words. -/
def rangeMessage : String := "keycode must be in range 0 <= keycode < 16"

theorem ofNat?_eq_some_iff {n : Nat} {k : Key} : ofNat? n = some k ↔ n = k.code := by
  obtain ⟨⟨c, hc⟩⟩ := k
  unfold ofNat?
  split
  · simp
  · simp only [false_iff, reduceCtorEq]
    omega

@[simp] theorem ofNat?_code (k : Key) : ofNat? k.code = some k := ofNat?_eq_some_iff.2 rfl

@[simp] theorem toNat_toByte (k : Key) : k.toByte.toNat = k.code := by
  have := k.code.isLt
  simp [toByte, UInt8.toNat_ofNat']
  omega

@[simp] theorem ofByte?_toByte (k : Key) : ofByte? k.toByte = some k := by simp [ofByte?]

theorem mem_all (k : Key) : k ∈ all := by simp [all]

end Key

end ChipEight
