import ChipEight.Proofs.Cells
import ChipEight.Proofs.History
import ChipEight.Proofs.Pixels
import Mathlib.Algebra.Group.Nat.Defs

/-!
# Checked accesses

Banks wrap addresses around and numbers are as large as they need to be, so nothing in a machine can
go wrong. Here are the same accesses on arrays and words of a fixed size: an index must lie within
its array (`Bank.get?`, `Bank.set?`) and a sum within its width (`Checked.add`), or it is a fault.
An access that passes its check is the wrapping one (`get?_of_lt`, `copy?_eq`).

The stack pointer is the only index that is kept from one moment to the next and used as it is. It
and the compile cursor are in range at every moment (`Machine.InRange`, `Linked.inRange`).
-/

set_option autoImplicit false

namespace ChipEight

/-- What stops an operation. -/
inductive Fault
  /-- An index outside its array. -/
  | index
  /-- A number that does not fit its width, or a shift by the whole width. -/
  | overflow
  /-- Arithmetic for an instruction that has none. -/
  | unreachable
deriving DecidableEq, Repr

/-! ## Numbers -/

namespace Checked

/-- A sum in a word of `bits` bits. -/
def add (bits a b : Nat) : Except Fault Nat :=
  if a + b < 2 ^ bits then pure (a + b) else throw .overflow

/-- A product in a word of `bits` bits. -/
def mul (bits a b : Nat) : Except Fault Nat :=
  if a * b < 2 ^ bits then pure (a * b) else throw .overflow

/-- A difference that is not negative. -/
def sub (a b : Nat) : Except Fault Nat := if b ≤ a then pure (a - b) else throw .overflow

/-- By how much a word of `bits` bits is shifted. -/
def shift (bits k : Nat) : Except Fault Nat := if k < bits then pure k else throw .overflow

theorem add_eq {bits a b : Nat} (h : a + b < 2 ^ bits) : add bits a b = pure (a + b) := if_pos h

theorem mul_eq {bits a b : Nat} (h : a * b < 2 ^ bits) : mul bits a b = pure (a * b) := if_pos h

theorem sub_eq {a b : Nat} (h : b ≤ a) : sub a b = pure (a - b) := if_pos h

theorem shift_eq {bits k : Nat} (h : k < bits) : shift bits k = pure k := if_pos h

/-- The place of element `k` of a list in memory, after a sum with 64 bits. -/
def place (a k : Nat) : Except Fault Nat := do
  let i ← add 64 a k
  return i % Memory.size

theorem place_eq {a k : Nat} (h : a + k < 2 ^ 64) : place a k = pure ((a + k) % 4096) := by
  rw [place, add_eq h, pure_bind]
  rfl

/-- Element `i` of a list. -/
def element? {α : Type} (l : List α) (i : Nat) : Except Fault α :=
  match l[i]? with
  | some a => pure a
  | none => throw .index

theorem element?_eq {α : Type} {l : List α} {i : Nat} {a : α} (h : l[i]? = some a) :
    element? l i = pure a := by
  rw [element?, h]

/-- Results of a list of computations that all succeed. -/
theorem mapM_eq {α β : Type} {f : α → Except Fault β} {g : α → β} {l : List α}
    (h : ∀ a ∈ l, f a = pure (g a)) : l.mapM f = pure (l.map g) := by
  induction l with
  | nil => rfl
  | cons a l ih =>
    obtain ⟨hhead, htail⟩ := List.forall_mem_cons.1 h
    rw [List.mapM_cons, hhead, pure_bind, ih htail, pure_bind, List.map_cons]

/-- A loop in which every step succeeds. -/
theorem foldlM_eq {α β : Type} {f : β → α → Except Fault β} {g : β → α → β} {l : List α} (b : β)
    (h : ∀ a ∈ l, ∀ b, f b a = pure (g b a)) : l.foldlM f b = pure (l.foldl g b) := by
  induction l generalizing b with
  | nil => rfl
  | cons a l ih =>
    obtain ⟨hhead, htail⟩ := List.forall_mem_cons.1 h
    rw [List.foldlM_cons, hhead, pure_bind, ih _ htail, List.foldl_cons]

end Checked

/-! ## Banks -/

namespace Bank

variable {α : Type} {n : Nat}

/-- The cell with index `i`. -/
def get? (b : Bank α n) (i : Nat) : Except Fault α :=
  if h : i < n then pure b.cells[i] else throw .index

/-- The bank with `a` at index `i`. -/
def set? (b : Bank α n) (i : Nat) (a : α) : Except Fault (Bank α n) :=
  if h : i < n then pure ⟨b.cells.set i a h⟩ else throw .index

/-- One element after the other, reads `count` elements and puts each at the index that `place`
computes. -/
def copy? (b : Bank α n) (count : Nat) (read : Nat → Except Fault α)
    (place : Nat → Except Fault Nat) : Except Fault (Bank α n) :=
  (List.range count).foldlM (fun b k => do
    let a ← read k
    let i ← place k
    b.set? i a) b

variable [Sized n]

theorem get?_of_lt (b : Bank α n) {i : Nat} (h : i < n) : b.get? i = pure (b.get i) := by
  rw [get?, dif_pos h, get_eq_getElem _ h]

theorem get?_mod (b : Bank α n) (i : Nat) : b.get? (i % n) = pure (b.get i) := by
  rw [get?_of_lt _ (mod_lt n i), get_mod]

theorem set?_of_lt (b : Bank α n) {i : Nat} (h : i < n) (a : α) :
    b.set? i a = pure (b.set i a) := by
  simp [set?, h, set, Nat.mod_eq_of_lt h]

theorem set?_mod (b : Bank α n) (i : Nat) (a : α) : b.set? (i % n) a = pure (b.set i a) := by
  rw [set?_of_lt _ (mod_lt n i), b.set_congr a (Nat.mod_mod i n)]

theorem foldl_set (b : Bank α n) (i count : Nat) (f : Nat → α) :
    (List.range count).foldl (fun b k => b.set (i + k) (f k)) b =
      b.write i ((List.range count).map f) := by
  induction count with
  | zero => rfl
  | succ count ih =>
    rw [List.range_succ, List.foldl_append, ih, List.map_append, write_append, List.length_map,
      List.length_range]
    rfl

theorem copy?_eq (b : Bank α n) {i count : Nat} {read : Nat → Except Fault α} {f : Nat → α}
    {place : Nat → Except Fault Nat} (hread : ∀ k < count, read k = pure (f k))
    (hplace : ∀ k < count, place k = pure ((i + k) % n)) :
    b.copy? count read place = pure (b.write i ((List.range count).map f)) := by
  rw [copy?, ← foldl_set]
  refine Checked.foldlM_eq b fun k hk b => ?_
  have hlt := List.mem_range.1 hk
  rw [hread k hlt, hplace k hlt, pure_bind, pure_bind, set?_mod]

/-- Copying a list. -/
theorem copy?_element? (b : Bank α n) {i : Nat} (as : List α) {place : Nat → Except Fault Nat}
    (hplace : ∀ k < as.length, place k = pure ((i + k) % n)) :
    b.copy? as.length (Checked.element? as) place = pure (b.write i as) := by
  cases as with
  | nil => rfl
  | cons a as =>
    have hread : ∀ k < (a :: as).length,
        Checked.element? (a :: as) k = pure ((a :: as)[k]?.getD a) := by
      intro k hk
      refine Checked.element?_eq ?_
      rw [List.getElem?_eq_getElem hk, Option.getD_some]
    have hall : (List.range (a :: as).length).map (fun k => (a :: as)[k]?.getD a) = a :: as := by
      refine List.ext_getElem (by simp) fun k _ hk => ?_
      rw [List.getElem_map, List.getElem_range, List.getElem?_eq_getElem hk, Option.getD_some]
    rw [b.copy?_eq hread hplace, hall]

end Bank

/-! ## The call stack -/

namespace CallStack

/-- Puts an address into the slot at the stack pointer. -/
def push? (s : CallStack) (a : UInt16) : Except Fault CallStack := do
  let slots ← s.slots.set? s.sp a
  let sp ← Checked.add 64 s.sp 1
  return ⟨slots, sp % 16⟩

/-- The address in the slot below the stack pointer, which wraps at zero. -/
def pop? (s : CallStack) : Except Fault (UInt16 × CallStack) := do
  let sp := (s.sp + (2 ^ 64 - 1)) % 2 ^ 64 % 16
  let a ← s.slots.get? sp
  return (a, ⟨s.slots, sp⟩)

theorem push?_eq {s : CallStack} (h : s.sp < 16) (a : UInt16) : s.push? a = pure (s.push a) := by
  rw [push?, Bank.set?_of_lt _ h, pure_bind, Checked.add_eq (by omega), pure_bind]
  rfl

/-- A stack pointer out of range is noticed. -/
example : push? ⟨Bank.fill 16 0, 16⟩ 0 = .error .index := rfl

theorem pop?_eq (s : CallStack) : s.pop? = pure (s.top, s.pop) := by
  have hsp : (s.sp + (2 ^ 64 - 1)) % 2 ^ 64 % 16 = (s.sp + 15) % 16 := by omega
  simp only [pop?, hsp, Bank.get?_mod, pure_bind]
  rfl

end CallStack

/-! ## The display -/

namespace Display

/-- The pixel with index `i`, counted row by row. -/
def get? (d : Display) (i : Nat) : Except Fault Bool :=
  if i < width * height then pure (d.pixel (i % width) (i / width)) else throw .index

/-- The display with the pixel with index `i` changed. -/
def flip? (d : Display) (i : Nat) : Except Fault Display :=
  if i < width * height then pure (d.toggle (i % width) (i / width)) else throw .index

/-- The index of a pixel whose column and row are masked. -/
def place (x y : Nat) : Nat := x % width + y % height * width

/-- Masked columns and rows never leave the display. -/
theorem place_lt (x y : Nat) : place x y < width * height := by
  simp only [place, width, height]
  omega

theorem column_place (x y : Nat) : place x y % width = x % width := by
  simp only [place, width, height]
  omega

theorem row_place (x y : Nat) : place x y / width = y % height := by
  simp only [place, width, height]
  omega

theorem get?_place (d : Display) (x y : Nat) : d.get? (place x y) = pure (d.pixel x y) := by
  rw [get?, if_pos (place_lt x y), column_place, row_place]
  exact congrArg pure (d.pixel_congr (Nat.mod_mod x 64) (Nat.mod_mod y 32))

theorem flip?_place (d : Display) (x y : Nat) : d.flip? (place x y) = pure (d.toggle x y) := by
  rw [flip?, if_pos (place_lt x y), column_place, row_place]
  exact congrArg pure (d.toggle_congr (Nat.mod_mod x 64) (Nat.mod_mod y 32))

end Display

/-! ## Range -/

theorem Instruction.sp_execute_lt (i : Instruction) {s : State} (h : s.stack.sp < 16) :
    (i.execute s).state.stack.sp < 16 := by
  rw [stack_execute]
  split
  · exact CallStack.sp_pop_lt _
  · exact CallStack.sp_push_lt _ _
  · exact h

namespace Machine

/-- The stack pointer and the compile cursor are indices of their arrays. -/
structure InRange (m : Machine) : Prop where
  sp : m.state.stack.sp < 16
  cursor : m.cursor < Memory.size

theorem inRange_initial (g : Generator) (seed : Option UInt64) :
    InRange ⟨.initial g, Bank.fill 4096 .illegal, Memory.start, seed⟩ where
  sp := Nat.succ_pos 15
  cursor := by
    show Memory.start < Memory.size
    decide

theorem InRange.compile {m : Machine} (h : m.InRange) (w : UInt16) : (m.compile w).InRange :=
  ⟨h.sp, Nat.mod_lt _ (by decide)⟩

theorem InRange.compileAll {m : Machine} (h : m.InRange) (ws : List UInt16) :
    (ws.foldl Machine.compile m).InRange := by
  induction ws generalizing m with
  | nil => exact h
  | cons w ws ih => exact ih (h.compile w)

theorem InRange.execute {m : Machine} (h : m.InRange) (i : Instruction) :
    (m.withState (i.execute m.state).state).InRange :=
  ⟨i.sp_execute_lt h.sp, h.cursor⟩

theorem InRange.after {e : Event} (h : e.machine.InRange) (hv : e.Valid) : e.after.InRange := by
  obtain ⟨m, move⟩ := e
  cases move with
  | execute i => exact h.execute i
  | command c =>
    cases c with
    | step n => exact absurd rfl (hv n)
    | reset entropy => exact inRange_initial _ _
    | load program entropy =>
      show (m.perform (.load program entropy)).machine.InRange
      rcases Nat.lt_or_ge Memory.maxProgram program.length with hlong | hfit
      · rw [perform_load_of_lt hlong]
        exact h
      · rw [perform_load_of_le hfit]
        exact (inRange_initial _ _).compileAll _
    | compile w => exact h.compile w
    | press k | release k => cases k <;> exact ⟨h.sp, h.cursor⟩
    | tick | setRegister x v | setIndex a | setDelay v | write a data => exact ⟨h.sp, h.cursor⟩

end Machine

theorem Linked.inRange {m : Machine} {es : List Event} (h : Linked m es) (hm : m.InRange) :
    (m.after es).InRange :=
  h.induction (P := fun _ m => m.InRange) (fun _ _ hv he => he.after hv) [] hm

namespace Machine

theorem InRange.perform {m : Machine} (h : m.InRange) (c : Command) :
    (m.perform c).machine.InRange := by
  rw [← after_commandEvents]
  exact (Linked.commandEvents m c).inRange h

theorem InRange.performAll {m : Machine} (h : m.InRange) (cs : List Command) :
    (m.performAll cs).1.InRange := by
  rw [← after_events]
  exact (Linked.events m cs).inRange h

theorem Reachable.inRange {m : Machine} (h : m.Reachable) : m.InRange :=
  h.induction (fun _ _ => inRange_initial _ _) fun _ hv he => he.after hv

end Machine

end ChipEight
