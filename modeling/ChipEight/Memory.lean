import ChipEight.Bank
import ChipEight.Font

/-!
# Memory

Four kibibytes of bytes, and the operand fields of the two-byte big-endian word at an address. All
fields read the address and its successor modulo the size of memory, so they depend on the address
only modulo `4096` (`word_congr` and its like).
-/

set_option autoImplicit false

namespace ChipEight

abbrev Memory := Bank UInt8 4096

namespace Memory

/-- Number of bytes of memory. -/
def size : Nat := 4096

/-- Programs start here. -/
def start : Nat := 0x200

/-- The longest program that fits above `start`. -/
def maxProgram : Nat := size - start

/-- The font at the bottom and zero everywhere else. -/
def initial : Memory := (Bank.fill 4096 0).write 0 Font.glyphs

/-- The big-endian word at an address. -/
def word (m : Memory) (a : Nat) : UInt16 :=
  UInt16.ofNat ((m.get a).toNat * 256 + (m.get (a + 1)).toNat)

/-- Field `x`: the second hexadecimal digit. -/
def x (m : Memory) (a : Nat) : Nat := (m.get a).toNat % 16

/-- Field `y`: the third hexadecimal digit. -/
def y (m : Memory) (a : Nat) : Nat := (m.get (a + 1)).toNat / 16

/-- Field `n`: the last hexadecimal digit. -/
def n (m : Memory) (a : Nat) : Nat := (m.get (a + 1)).toNat % 16

/-- Field `kk`: the low byte. -/
def kk (m : Memory) (a : Nat) : UInt8 := m.get (a + 1)

/-- Field `nnn`: the last three hexadecimal digits. -/
def nnn (m : Memory) (a : Nat) : UInt16 :=
  UInt16.ofNat ((m.get a).toNat % 16 * 256 + (m.get (a + 1)).toNat)

theorem get_succ_congr (m : Memory) {a b : Nat} (h : a % 4096 = b % 4096) :
    m.get (a + 1) = m.get (b + 1) :=
  m.get_congr (by omega)

theorem word_congr (m : Memory) {a b : Nat} (h : a % 4096 = b % 4096) : m.word a = m.word b := by
  simp only [word, m.get_congr h, m.get_succ_congr h]

theorem x_congr (m : Memory) {a b : Nat} (h : a % 4096 = b % 4096) : m.x a = m.x b := by
  simp only [x, m.get_congr h]

theorem y_congr (m : Memory) {a b : Nat} (h : a % 4096 = b % 4096) : m.y a = m.y b := by
  simp only [y, m.get_succ_congr h]

theorem n_congr (m : Memory) {a b : Nat} (h : a % 4096 = b % 4096) : m.n a = m.n b := by
  simp only [n, m.get_succ_congr h]

theorem kk_congr (m : Memory) {a b : Nat} (h : a % 4096 = b % 4096) : m.kk a = m.kk b :=
  m.get_succ_congr h

theorem nnn_congr (m : Memory) {a b : Nat} (h : a % 4096 = b % 4096) : m.nnn a = m.nnn b := by
  simp only [nnn, m.get_congr h, m.get_succ_congr h]

/-! Fields of one digit are register numbers, and `nnn` is an address. -/

theorem x_lt (m : Memory) (a : Nat) : m.x a < 16 := Nat.mod_lt _ (by decide)

theorem y_lt (m : Memory) (a : Nat) : m.y a < 16 := by
  have := (m.get (a + 1)).toNat_lt
  rw [y]
  omega

theorem n_lt (m : Memory) (a : Nat) : m.n a < 16 := Nat.mod_lt _ (by decide)

theorem toNat_nnn_lt (m : Memory) (a : Nat) : (m.nnn a).toNat < 4096 := by
  have := (m.get (a + 1)).toNat_lt
  rw [nnn, UInt16.toNat_ofNat']
  omega

end Memory

end ChipEight
