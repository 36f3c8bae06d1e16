/-!
# Banks of cells

A bank is a row of `n` cells addressed by any natural number, taken modulo `n`: memory, registers,
stack slots and display rows are all banks, so no access can fall outside one. `get_set` says what
a write does to every read, and `ext_get` that a bank is determined by its reads.
-/

set_option autoImplicit false

namespace ChipEight

/-- A row of `n` cells whose addresses wrap around. -/
structure Bank (α : Type) (n : Nat) where
  cells : Vector α n
deriving DecidableEq

namespace Bank

/-- Sizes of banks: an address modulo the size is that of a cell. -/
class Sized (n : Nat) : Prop where
  pos : 0 < n

instance sized_16 : Sized 16 := ⟨Nat.succ_pos 15⟩

instance sized_32 : Sized 32 := ⟨Nat.succ_pos 31⟩

instance sized_4096 : Sized 4096 := ⟨Nat.succ_pos 4095⟩

theorem mod_lt (n : Nat) [Sized n] (i : Nat) : i % n < n := Nat.mod_lt i Sized.pos

variable {α : Type} {n : Nat} [Sized n]

/-- Every cell holds `a`. -/
def fill (n : Nat) (a : α) : Bank α n := ⟨Vector.replicate n a⟩

/-- The cell at address `i`, modulo the size. -/
def get (b : Bank α n) (i : Nat) : α :=
  have := mod_lt n i
  b.cells[i % n]

/-- The bank with `a` at address `i`, modulo the size. -/
def set (b : Bank α n) (i : Nat) (a : α) : Bank α n :=
  ⟨b.cells.set (i % n) a (mod_lt n i)⟩

/-- Writes a list to consecutive cells from address `i` on; a list longer than the bank overwrites
its own beginning. -/
def write (b : Bank α n) (i : Nat) : List α → Bank α n
  | [] => b
  | a :: as => (b.set i a).write (i + 1) as

/-- The contents of `len` consecutive cells from address `i` on. -/
def window (b : Bank α n) (i len : Nat) : List α := (List.range len).map fun k => b.get (i + k)

/-- The cells in address order. -/
def toList (b : Bank α n) : List α := b.cells.toList

theorem get_eq_getElem (b : Bank α n) {i : Nat} (h : i < n) : b.get i = b.cells[i] := by
  simp [get, Nat.mod_eq_of_lt h]

@[simp] theorem get_fill (a : α) (i : Nat) : (fill n a).get i = a := by
  simp [fill, get]

theorem get_mod (b : Bank α n) (i : Nat) : b.get (i % n) = b.get i := by simp [get]

theorem get_congr (b : Bank α n) {i j : Nat} (h : i % n = j % n) : b.get i = b.get j := by
  rw [← b.get_mod i, h, b.get_mod]

/-- A write changes the cell it names and no other. -/
theorem get_set (b : Bank α n) (i j : Nat) (a : α) :
    (b.set i a).get j = if i % n = j % n then a else b.get j := by
  simp [get, set, Vector.getElem_set]

@[simp] theorem get_set_self (b : Bank α n) (i : Nat) (a : α) : (b.set i a).get i = a := by
  simp [get_set]

theorem get_set_of_ne (b : Bank α n) {i j : Nat} (a : α) (h : i % n ≠ j % n) :
    (b.set i a).get j = b.get j := by
  simp [get_set, h]

theorem set_congr (b : Bank α n) {i j : Nat} (a : α) (h : i % n = j % n) :
    b.set i a = b.set j a := by
  simp [set, h]

/-- Banks with the same reads are equal. -/
theorem ext_get {b c : Bank α n} (h : ∀ i, i < n → b.get i = c.get i) : b = c := by
  obtain ⟨b⟩ := b
  obtain ⟨c⟩ := c
  congr 1
  apply Vector.ext
  intro i hi
  simpa [get_eq_getElem _ hi] using h i hi

@[simp] theorem write_nil (b : Bank α n) (i : Nat) : b.write i [] = b := rfl

@[simp] theorem write_cons (b : Bank α n) (i : Nat) (a : α) (as : List α) :
    b.write i (a :: as) = (b.set i a).write (i + 1) as := rfl

@[simp] theorem length_window (b : Bank α n) (i len : Nat) : (b.window i len).length = len := by
  simp [window]

end Bank

end ChipEight
