import ChipEight.Bank

/-!
# Call stack

Sixteen return addresses in a ring. Pushing onto a full stack overwrites the oldest entry, and
popping an empty one wraps to the top slot; neither fails, and both leave the number of the next
free slot in range (`sp_push_lt`, `sp_pop_lt`).
-/

set_option autoImplicit false

namespace ChipEight

/-- The slots and the number of the next free one. -/
structure CallStack where
  slots : Bank UInt16 16
  sp : Nat
deriving DecidableEq

namespace CallStack

/-- All slots are zero and the first is free. -/
def empty : CallStack := ⟨Bank.fill 16 0, 0⟩

/-- Puts an address into the free slot and moves to the one above. -/
def push (s : CallStack) (a : UInt16) : CallStack := ⟨s.slots.set s.sp a, (s.sp + 1) % 16⟩

/-- The address on top, in the slot below the free one. -/
def top (s : CallStack) : UInt16 := s.slots.get (s.sp + 15)

/-- Frees the slot on top; its contents stay. -/
def pop (s : CallStack) : CallStack := ⟨s.slots, (s.sp + 15) % 16⟩

theorem sp_push_lt (s : CallStack) (a : UInt16) : (s.push a).sp < 16 := Nat.mod_lt _ (by decide)

theorem sp_pop_lt (s : CallStack) : s.pop.sp < 16 := Nat.mod_lt _ (by decide)

end CallStack

end ChipEight
