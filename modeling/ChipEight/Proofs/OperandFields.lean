import ChipEight.Proofs.WrittenCells

/-!
# Operand fields

The operand fields of the word at an address, read by masks and shifts of its two bytes
(`Memory.Masked`), are the ones instructions use, and both are what division by powers of sixteen
makes of the word (`Memory.HasFields`). Reading inverts compiling: the fields of a compiled word are
read wherever the cursor stood, from any program counter that leads there, until one of its two
bytes is written again (`fields_of_compiled`).
-/

set_option autoImplicit false

namespace ChipEight

namespace Memory

/-- The fields that instructions read at an address are those of a word. -/
structure HasFields (m : Memory) (a : Nat) (w : UInt16) : Prop where
  word : m.word a = w
  nnn : (m.nnn a).toNat = w.toNat % 0x1000
  x : m.x a = w.toNat / 0x100 % 0x10
  y : m.y a = w.toNat / 0x10 % 0x10
  n : m.n a = w.toNat % 0x10
  kk : (m.kk a).toNat = w.toNat % 0x100

/-- What is read at an address are the fields of the word there. -/
theorem hasFields_word (m : Memory) (a : Nat) : m.HasFields a (m.word a) := by
  have hword := m.toNat_word a
  have hhi := (m.get a).toNat_lt
  have hlo := (m.get (a + 1)).toNat_lt
  refine ⟨rfl, ?_, ?_, ?_, ?_, ?_⟩
  · rw [toNat_nnn]
    omega
  · unfold x
    omega
  · unfold y
    omega
  · unfold n
    omega
  · unfold kk
    omega

/-- An address counts only modulo the size of memory. -/
theorem hasFields_congr (m : Memory) {a b : Nat} (h : a % size = b % size) :
    m.HasFields b (m.word a) := by
  rw [m.word_congr h]
  exact m.hasFields_word b

/-! ## Masks and shifts -/

namespace Masked

variable (m : Memory) (a : Nat)

/-- The bytes at an address and its successor, both masked. -/
def pair : UInt8 × UInt8 := (m.get (a &&& 0xFFF), m.get ((a + 1) &&& 0xFFF))

def word : UInt16 :=
  let (hi, lo) := pair m a
  hi.toUInt16 <<< 8 ||| lo.toUInt16

def nnn : UInt16 :=
  let (hi, lo) := pair m a
  (hi.toUInt16 &&& 0xF) <<< 8 ||| lo.toUInt16

def x : UInt8 := m.get (a &&& 0xFFF) &&& 0xF

def xkk : UInt8 × UInt8 :=
  let (hi, lo) := pair m a
  (hi &&& 0xF, lo)

def xyn : UInt8 × UInt8 × UInt8 :=
  let (hi, lo) := pair m a
  (hi &&& 0xF, (lo &&& 0xF0) >>> 4, lo &&& 0xF)

def xy : UInt8 × UInt8 :=
  let (x, y, _) := xyn m a
  (x, y)

/-- Every reader gives the fields of a word. -/
structure HasFields (w : UInt16) : Prop where
  word : word m a = w
  nnn : (nnn m a).toNat = w.toNat % 0x1000
  x : (x m a).toNat = w.toNat / 0x100 % 0x10
  xkk : (xkk m a).map UInt8.toNat UInt8.toNat = (w.toNat / 0x100 % 0x10, w.toNat % 0x100)
  xyn : (xyn m a).map UInt8.toNat (Prod.map UInt8.toNat UInt8.toNat) =
    (w.toNat / 0x100 % 0x10, w.toNat / 0x10 % 0x10, w.toNat % 0x10)
  xy : (xy m a).map UInt8.toNat UInt8.toNat = (w.toNat / 0x100 % 0x10, w.toNat / 0x10 % 0x10)

theorem and_mask : a &&& 0xFFF = a % 4096 := Nat.and_two_pow_sub_one_eq_mod a 12

theorem pair_eq : pair m a = (m.get a, m.get (a + 1)) := by
  unfold pair
  rw [and_mask, and_mask, Bank.get_mod, Bank.get_mod]

/-- The last digit of a byte. -/
theorem toNat_and_fifteen (b : UInt8) : (b &&& 0xF).toNat = b.toNat % 0x10 :=
  Nat.and_two_pow_sub_one_eq_mod b.toNat 4

/-- The first digit of a byte. -/
theorem toNat_high_digit (b : UInt8) : ((b &&& 0xF0) >>> 4).toNat = b.toNat / 0x10 := by
  have hb := b.toNat_lt
  have hmask : b.toNat >>> 4 &&& 0xF = b.toNat >>> 4 % 0x10 := Nat.and_two_pow_sub_one_eq_mod _ 4
  show (b.toNat &&& 0xF0) >>> 4 = b.toNat / 0x10
  rw [Nat.shiftRight_and_distrib]
  show b.toNat >>> 4 &&& 0xF = b.toNat / 0x10
  rw [hmask, Nat.shiftRight_eq_div_pow]
  omega

/-- Bytes side by side do not overlap. -/
theorem toNat_join {hi : UInt16} (lo : UInt8) (h : hi.toNat < 256) :
    (hi <<< 8 ||| lo.toUInt16).toNat = hi.toNat * 0x100 + lo.toNat := by
  have hlo : lo.toNat < 2 ^ 8 := lo.toNat_lt
  have hshift : (hi <<< 8).toNat = hi.toNat <<< 8 := by
    show hi.toNat <<< 8 % 2 ^ 16 = hi.toNat <<< 8
    rw [Nat.shiftLeft_eq]
    omega
  rw [UInt16.toNat_or, hshift, UInt8.toNat_toUInt16, ← Nat.shiftLeft_add_eq_or_of_lt hlo,
    Nat.shiftLeft_eq]

theorem word_eq : word m a = m.word a := by
  have hhi : (m.get a).toUInt16.toNat < 256 := by
    rw [UInt8.toNat_toUInt16]
    exact (m.get a).toNat_lt
  apply UInt16.toNat_inj.1
  unfold word
  rw [pair_eq]
  simp only
  rw [toNat_join _ hhi, UInt8.toNat_toUInt16, Memory.toNat_word]

theorem nnn_eq : nnn m a = m.nnn a := by
  have hdigit : ((m.get a).toUInt16 &&& 0xF).toNat = (m.get a).toNat % 0x10 :=
    Nat.and_two_pow_sub_one_eq_mod (m.get a).toNat 4
  apply UInt16.toNat_inj.1
  unfold nnn
  rw [pair_eq]
  simp only
  rw [toNat_join _ (by omega), hdigit, Memory.toNat_nnn]

variable {m a}

/-- Masks and shifts read what instructions use. -/
theorem hasFields {w : UInt16} (h : m.HasFields a w) : HasFields m a w := by
  have hx : (m.get a &&& 0xF).toNat = w.toNat / 0x100 % 0x10 := by
    rw [toNat_and_fifteen, ← h.x, Memory.x]
  have hy : ((m.get (a + 1) &&& 0xF0) >>> 4).toNat = w.toNat / 0x10 % 0x10 := by
    rw [toNat_high_digit, ← h.y, Memory.y]
  have hn : (m.get (a + 1) &&& 0xF).toNat = w.toNat % 0x10 := by
    rw [toNat_and_fifteen, ← h.n, Memory.n]
  refine ⟨?_, ?_, ?_, ?_, ?_, ?_⟩
  · rw [word_eq, h.word]
  · rw [nnn_eq, h.nnn]
  · unfold x
    rw [and_mask, Bank.get_mod, hx]
  · unfold xkk
    rw [pair_eq]
    simp only [Prod.map_apply, hx, ← h.kk, kk]
  · unfold xyn
    rw [pair_eq]
    simp only [Prod.map_apply, hx, hy, hn]
  · unfold xy xyn
    rw [pair_eq]
    simp only [Prod.map_apply, hx, hy]

end Masked

end Memory

/-! ## Compiled words -/

/-- A word is compiled at the cursor, and then events happen that write neither of its bytes. -/
theorem word_of_compiled (m : Machine) (w : UInt16) {past : List Event}
    (h : Linked (m.compile w) past)
    (hpast : ∀ e ∈ past, ¬e.WritesCell m.cursor ∧ ¬e.WritesCell (m.cursor + 1)) :
    ((m.compile w).after past).state.memory.word m.cursor = w := by
  have hhigh := (h.keeps_cell fun e he => (hpast e he).1).1
  have hlow := (h.keeps_cell fun e he => (hpast e he).2).1
  calc ((m.compile w).after past).state.memory.word m.cursor
      = (m.compile w).state.memory.word m.cursor := Memory.word_eq_of_get hhigh hlow
    _ = w := Memory.word_write_bytes _ _ _

/-- **Reading operand fields inverts compiling.** In every memory and at every address, the fields
that instructions use and the ones that masks and shifts give are those of the word there. That word
is made of the byte at the address and the next one, which behind the last cell is the first, and
depends on the address only modulo the size of memory. After a word was compiled at the cursor, all
readers give its fields at every address that leads to the cursor, at each moment of what follows
until one of the two bytes is written. -/
theorem fields_of_compiled :
    (∀ (m : Memory) (a b : Nat), a % Memory.size = b % Memory.size →
      m.HasFields b (m.word a) ∧ Memory.Masked.HasFields m b (m.word a)) ∧
    (∀ (m : Memory) (a : Nat),
      (m.word a).toNat = (m.get (a % Memory.size)).toNat * 0x100 +
        (m.get ((a + 1) % Memory.size)).toNat) ∧
    (∀ m : Memory, Memory.Masked.pair m 0xFFF = (m.get 0xFFF, m.get 0)) ∧
    ∀ (m : Machine) (w : UInt16) (cs : List Command),
      let m' := (m.perform (.compile w)).machine
      ∀ past, past <+: m'.events cs →
        (∀ e ∈ past, ¬e.WritesCell m.cursor ∧ ¬e.WritesCell (m.cursor + 1)) →
        ∀ a, a % Memory.size = m.cursor % Memory.size →
          (m'.after past).state.memory.HasFields a w ∧
            Memory.Masked.HasFields (m'.after past).state.memory a w := by
  refine ⟨fun m a b hab => ?_, fun m a => ?_, fun m => ?_, ?_⟩
  · have hfields := m.hasFields_congr hab
    exact ⟨hfields, Memory.Masked.hasFields hfields⟩
  · have hhi : m.get (a % Memory.size) = m.get a := m.get_mod a
    have hlo : m.get ((a + 1) % Memory.size) = m.get (a + 1) := m.get_mod (a + 1)
    rw [m.toNat_word, hhi, hlo]
  · rfl
  · intro m w cs m' past hpast hkept a ha
    have hlinked : Linked m' past := (Linked.events m' cs).take hpast
    have hword : (m'.after past).state.memory.word m.cursor = w :=
      word_of_compiled m w hlinked hkept
    have hfields := (m'.after past).state.memory.hasFields_congr ha.symm
    rw [hword] at hfields
    exact ⟨hfields, Memory.Masked.hasFields hfields⟩

/-- The word at the last address ends in the first cell. A draw is compiled and stays what it is
while bytes are written beside it, also for a program counter beyond the end of memory. -/
theorem fields_of_compiled_aroundEnd :
    let around : Memory := (Memory.initial.set 0xFFF 0x6A).set 0 0x42
    let m := Machine.new (some 7) default
    let m' := (m.perform (.compile 0xD12F)).machine
    let past := m'.events [.write 0x202 [0xFF], .setIndex 0x1F0, .step 1, .write 0x11FF [1]]
    let memory := (m'.after past).state.memory
    around.kk 0x1FFF = 0x42 ∧ (around.nnn 0x1FFF).toNat = 0xA42 ∧
      (∀ e ∈ past, ¬e.WritesCell 0x200 ∧ ¬e.WritesCell 0x201) ∧
      memory.x 0x3200 = 1 ∧ memory.y 0x3200 = 2 ∧ memory.n 0x3200 = 15 ∧
      Memory.Masked.word memory 0x3200 = 0xD12F := by
  intro around m m' past memory
  obtain ⟨hread, -, -, hcompiled⟩ := fields_of_compiled
  have haround := (hread around 0xFFF 0x1FFF rfl).1
  have hword : around.word 0xFFF = 0x6A42 := by decide +kernel
  rw [hword] at haround
  have hkept : ∀ e ∈ past, ¬e.WritesCell 0x200 ∧ ¬e.WritesCell 0x201 := by decide +kernel
  have hcursor : 0x3200 % Memory.size = m.cursor % Memory.size := by decide +kernel
  obtain ⟨hfields, hmasked⟩ :=
    hcompiled m 0xD12F _ past (List.prefix_refl past) hkept 0x3200 hcursor
  exact ⟨UInt8.toNat_inj.1 haround.kk, haround.nnn, hkept, hfields.x, hfields.y, hfields.n,
    hmasked.word⟩

end ChipEight
