import ChipEight.Key

/-!
# Keypad

Which keys are held down, one bit for each. `isHeld_press` and `isHeld_release` say that an event
changes the key it names and no other.
-/

set_option autoImplicit false

namespace ChipEight

/-- The set of held keys; bit `c` is set while the key with code `c` is down. -/
structure Keypad where
  held : BitVec 16
deriving DecidableEq

namespace Keypad

/-- No key is held. -/
def empty : Keypad := ⟨0#16⟩

/-- Whether a key is down. -/
def isHeld (p : Keypad) (k : Key) : Bool := p.held.getLsbD k.code

/-- The bit of a key. -/
def bit (k : Key) : BitVec 16 := BitVec.twoPow 16 k.code

def press (p : Keypad) (k : Key) : Keypad := ⟨p.held ||| bit k⟩

def release (p : Keypad) (k : Key) : Keypad := ⟨p.held &&& ~~~bit k⟩

/-- Whether the key with the code in `b` is down; a byte that is no key's code never is. -/
def isHeldByte (p : Keypad) (b : UInt8) : Bool := (Key.ofByte? b).any p.isHeld

/-- The held keys in the order of their codes. -/
def toList (p : Keypad) : List Key := Key.all.filter p.isHeld

@[simp] theorem isHeld_empty (k : Key) : empty.isHeld k = false := by simp [empty, isHeld]

theorem isHeld_press (p : Keypad) (k j : Key) :
    (p.press k).isHeld j = (p.isHeld j || decide (j = k)) := by
  obtain ⟨⟨k, hk⟩⟩ := k
  obtain ⟨⟨j, hj⟩⟩ := j
  simp [press, isHeld, bit, BitVec.getLsbD_twoPow, hk, eq_comm]

theorem isHeld_release (p : Keypad) (k j : Key) :
    (p.release k).isHeld j = (p.isHeld j && !decide (j = k)) := by
  obtain ⟨⟨k, hk⟩⟩ := k
  obtain ⟨⟨j, hj⟩⟩ := j
  simp [release, isHeld, bit, hj, eq_comm]

theorem isHeldByte_iff (p : Keypad) (b : UInt8) :
    p.isHeldByte b = true ↔ ∃ k : Key, b.toNat = k.code ∧ p.isHeld k = true := by
  rw [isHeldByte, Option.any_eq_true]
  simp only [Key.ofByte?, Key.ofNat?_eq_some_iff]

theorem mem_toList (p : Keypad) (k : Key) : k ∈ p.toList ↔ p.isHeld k = true := by
  simp [toList, k.mem_all]

/-- Keypads with the same held keys are equal. -/
theorem ext_isHeld {p q : Keypad} (h : ∀ k, p.isHeld k = q.isHeld k) : p = q := by
  obtain ⟨p⟩ := p
  obtain ⟨q⟩ := q
  congr 1
  apply BitVec.eq_of_getLsbD_eq
  intro i hi
  exact h ⟨⟨i, hi⟩⟩

end Keypad

end ChipEight
