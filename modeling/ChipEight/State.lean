import ChipEight.CallStack
import ChipEight.Display
import ChipEight.Keypad
import ChipEight.Memory
import ChipEight.Random.Generator

/-!
# Machine state

Everything instructions read and write: registers, timers, keypad, memory, display and the random
generator. The program counter and the index register have sixteen bits; every access through them
wraps into memory.
-/

set_option autoImplicit false

namespace ChipEight

structure State where
  pc : UInt16
  /-- The index register `I`. -/
  index : UInt16
  registers : Bank UInt8 16
  stack : CallStack
  delay : UInt8
  sound : UInt8
  keypad : Keypad
  /-- The last key pressed that no key wait has taken. -/
  pending : Option Key
  /-- Whether the machine is waiting for a key. -/
  blocked : Bool
  memory : Memory
  display : Display
  random : Generator
deriving DecidableEq

namespace State

/-- The number of the register that receives carry, borrow and collision flags. -/
def flag : Nat := 15

/-- The state of a fresh machine. -/
def initial (g : Generator) : State where
  pc := UInt16.ofNat Memory.start
  index := 0
  registers := Bank.fill 16 0
  stack := .empty
  delay := 0
  sound := 0
  keypad := .empty
  pending := none
  blocked := false
  memory := .initial
  display := .blank
  random := g

/-- The value of register `x`. -/
def reg (s : State) (x : Nat) : UInt8 := s.registers.get x

def setReg (s : State) (x : Nat) (v : UInt8) : State := { s with registers := s.registers.set x v }

/-- Moves to the instruction after this one. -/
def next (s : State) : State := { s with pc := s.pc + 2 }

/-- A timer one tick later; it stays at zero. -/
def countDown (t : UInt8) : UInt8 := if t = 0 then 0 else t - 1

/-- Counts both timers down. -/
def tick (s : State) : State := { s with delay := countDown s.delay, sound := countDown s.sound }

/-- Records a key press and ends a key wait. -/
def press (s : State) (k : Key) : State :=
  { s with keypad := s.keypad.press k, pending := some k, blocked := false }

/-- Records that a key went up; a key wait goes on. -/
def release (s : State) (k : Key) : State := { s with keypad := s.keypad.release k }

theorem reg_setReg (s : State) (x y : Nat) (v : UInt8) :
    (s.setReg x v).reg y = if x % 16 = y % 16 then v else s.reg y :=
  s.registers.get_set x y v

theorem toNat_countDown (t : UInt8) : (countDown t).toNat = t.toNat - 1 := by
  unfold countDown
  split
  · next h => simp [h]
  · next h =>
    have : 1 ≤ t := by
      rw [UInt8.le_iff_toNat_le]
      have := mt UInt8.toNat_inj.1 h
      simp at this ⊢
      omega
    simp [UInt8.toNat_sub_of_le _ _ this]

end State

end ChipEight
