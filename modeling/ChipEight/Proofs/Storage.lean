import ChipEight.Proofs.Cells
import ChipEight.Proofs.History

/-!
# Storing and loading registers

What a store writes to memory a later load reads back, wherever the index register points: the cells
may wrap around the end of memory or lie over the store itself (`Machine.Stores.loads`). It is only
the load that they must not cover, whose operand would be another one then. The digits of a number
are read back in the same way (`load_reads_back`).
-/

set_option autoImplicit false

namespace ChipEight

namespace Memory

/-- An address is one of `len` cells from address `i` on. -/
def Covers (i len a : Nat) : Prop := ∃ k < len, (i + k) % size = a % size

instance (i len a : Nat) : Decidable (Covers i len a) :=
  inferInstanceAs (Decidable (∃ k, k < len ∧ _))

theorem get_write_of_not_covers (m : Memory) {i a : Nat} {bs : List UInt8}
    (h : ¬Covers i bs.length a) : Bank.get (m.write i bs) a = m.get a :=
  m.get_write_of_ne i bs fun k hk heq => h ⟨k, hk, heq⟩

end Memory

/-! ## Digits -/

/-- Decimal digit `v` of a byte, the hundreds first. -/
def digit (b : UInt8) (v : Nat) : UInt8 := (decimalDigits b).getD v 0

theorem toNat_digit_le (b : UInt8) {v : Nat} (hv : v < 3) : (digit b v).toNat ≤ 9 := by
  have hb := b.toNat_lt
  match v, hv with
  | 0, _ | 1, _ | 2, _ => simp [digit, decimalDigits]; omega

theorem sum_digits (b : UInt8) :
    100 * (digit b 0).toNat + 10 * (digit b 1).toNat + (digit b 2).toNat = b.toNat := by
  simp [digit, decimalDigits]
  omega

/-! ## One instruction -/

namespace Machine

/-- From `m` to `m'` the values go to the cells from the index register on, and nothing else changes
but that the program counter moves on. -/
structure Stores (m : Machine) (len : Nat) (value : Nat → UInt8) (m' : Machine) : Prop where
  only : m' = m.withState { m.state with memory := m'.state.memory, pc := m.state.pc + 2 }
  here : ∀ v < len, m'.state.memory.get (m.state.index.toNat + v) = value v
  elsewhere : ∀ a, ¬Memory.Covers m.state.index.toNat len a →
    m'.state.memory.get a = m.state.memory.get a

/-- From `m` to `m'` the values go to the registers from `V0` on, and nothing else changes but that
the program counter moves on. -/
structure Loads (m : Machine) (len : Nat) (value : Nat → UInt8) (m' : Machine) : Prop where
  only : m' = m.withState { m.state with registers := m'.state.registers, pc := m.state.pc + 2 }
  here : ∀ v < len, m'.state.reg v = value v
  elsewhere : ∀ v < 16, len ≤ v → m'.state.reg v = m.state.reg v

/-- The next instruction is the same in both machines, and so are memory and the index register. All
else may differ. -/
structure SamePlace (m m' : Machine) : Prop where
  table : m.table = m'.table
  memory : m.state.memory = m'.state.memory
  index : m.state.index = m'.state.index
  pc : m.state.pc = m'.state.pc
  blocked : m.state.blocked = m'.state.blocked

/-- Setting registers keeps the place. -/
theorem samePlace_setRegisters (rs : List (Nat × UInt8)) (m : Machine) :
    (m.performAll (rs.map fun r => .setRegister r.1 r.2)).1.SamePlace m := by
  induction rs generalizing m with
  | nil => exact ⟨rfl, rfl, rfl, rfl, rfl⟩
  | cons r rs ih =>
    have h := ih (m.perform (.setRegister r.1 r.2)).machine
    exact ⟨h.table, h.memory, h.index, h.pc, h.blocked⟩

theorem stores_write (m : Machine) {value : Nat → UInt8} {bs : List UInt8} {len : Nat}
    (hlen : bs.length = len) (hfit : len ≤ 4096)
    (hvalue : ∀ v (h : v < bs.length), bs[v] = value v) :
    m.Stores len value (m.withState { m.state with
      memory := m.state.memory.write m.state.index.toNat bs, pc := m.state.pc + 2 }) where
  only := rfl
  here v hv := by
    subst hlen
    exact (m.state.memory.get_write_of_le _ bs hfit hv).trans (hvalue v hv)
  elsewhere a ha := by
    subst hlen
    exact m.state.memory.get_write_of_not_covers ha

/-- A store takes the registers from `V0` on. -/
theorem stores_of_store {m : Machine} (hrun : m.state.blocked = false)
    (hi : m.instructionAt m.state.pc.toNat = .store) :
    m.Stores (m.state.memory.x m.state.pc.toNat + 1) m.state.reg
      (m.perform (.step 1)).machine := by
  have hx := m.state.memory.x_lt m.state.pc.toNat
  rw [perform_step_one hrun hi]
  refine m.stores_write (Bank.length_window _ _ _) (by omega) fun v hv => ?_
  simp [Bank.window, State.reg]

theorem stores_of_decimal {m : Machine} (hrun : m.state.blocked = false)
    (hi : m.instructionAt m.state.pc.toNat = .decimal) :
    m.Stores 3 (digit (m.state.reg (m.state.memory.x m.state.pc.toNat)))
      (m.perform (.step 1)).machine := by
  rw [perform_step_one hrun hi]
  refine m.stores_write rfl (by decide) fun v hv => ?_
  rw [digit, List.getD_eq_getElem?_getD, List.getElem?_eq_getElem hv, Option.getD_some]

/-- A load takes the cells from the index register on. -/
theorem loads_of_load {m : Machine} (hrun : m.state.blocked = false)
    (hi : m.instructionAt m.state.pc.toNat = .load) :
    m.Loads (m.state.memory.x m.state.pc.toNat + 1)
      (fun v => m.state.memory.get (m.state.index.toNat + v)) (m.perform (.step 1)).machine := by
  have hx := m.state.memory.x_lt m.state.pc.toNat
  rw [perform_step_one hrun hi]
  refine ⟨rfl, fun v hv => ?_, fun v hv hlen => ?_⟩
  · have hlt : v < (m.state.memory.window m.state.index.toNat
        (m.state.memory.x m.state.pc.toNat + 1)).length := by rwa [Bank.length_window]
    have hread := m.state.registers.get_write_of_le 0 _ (by rw [Bank.length_window]; omega) hlt
    rw [Nat.zero_add] at hread
    refine hread.trans ?_
    simp [Bank.window]
  · refine m.state.registers.get_write_of_ne 0 _ fun k hk => ?_
    rw [Bank.length_window] at hk
    omega

/-- **What is stored is loaded back.** A load behind the store that reads no more than was stored
and is not covered by it takes the stored values, whatever the registers hold by then. -/
theorem Stores.loads {m m' t : Machine} {len : Nat} {value : Nat → UInt8}
    (h : m.Stores len value m') (hrun : m.state.blocked = false) (hplace : t.SamePlace m')
    (hload : m.instructionAt (m.state.pc.toNat + 2) = .load)
    (hlen : m.state.memory.x (m.state.pc.toNat + 2) < len)
    (hcover : ¬Memory.Covers m.state.index.toNat len (m.state.pc.toNat + 2)) :
    t.Loads (m.state.memory.x (m.state.pc.toNat + 2) + 1) value
      (t.perform (.step 1)).machine := by
  have hpc : t.state.pc.toNat % 4096 = (m.state.pc.toNat + 2) % 4096 := by
    rw [hplace.pc, h.only]
    show (m.state.pc + 2).toNat % 4096 = _
    rw [UInt16.toNat_add]
    exact Nat.mod_mod_of_dvd _ (by decide)
  have hindex : t.state.index = m.state.index := by
    rw [hplace.index, h.only]
    rfl
  have htable : t.table = m.table := by
    rw [hplace.table, h.only]
    rfl
  have hblocked : t.state.blocked = false := by
    rw [hplace.blocked, h.only]
    exact hrun
  have hinstruction : t.instructionAt t.state.pc.toNat = .load := by
    rw [instructionAt, htable, m.table.get_congr hpc]
    exact hload
  -- The store left the operand of the load as it was.
  have hoperand : t.state.memory.x t.state.pc.toNat = m.state.memory.x (m.state.pc.toNat + 2) := by
    rw [Memory.x_congr _ hpc, hplace.memory, Memory.x, h.elsewhere _ hcover, Memory.x]
  obtain ⟨only, here, elsewhere⟩ := loads_of_load hblocked hinstruction
  rw [hoperand] at here elsewhere
  refine ⟨only, fun v hv => ?_, elsewhere⟩
  rw [here v hv, hplace.memory, hindex]
  exact h.here v (by omega)

end Machine

/-- **A load reads back what was stored behind it.** A store writes the registers from `V0` to `Vx`
and nothing else, wherever the index register points. If a load comes next, of no more registers
and with none of the stored bytes on top of it, it gives these values back, even if the registers
were changed before. The digits of `Vx` come back as the same number. -/
theorem load_reads_back {m : Machine} (hrun : m.state.blocked = false) :
    let s := m.state
    let p := s.pc.toNat
    let i := s.index.toNat
    let x := s.memory.x p
    let y := s.memory.x (p + 2)
    let m' := (m.perform (.step 1)).machine
    (m.instructionAt p = .store →
        m.Stores (x + 1) s.reg m' ∧
          (m.instructionAt (p + 2) = .load → y ≤ x → ¬Memory.Covers i (x + 1) (p + 2) →
            ∀ t : Machine, t.SamePlace m' →
              t.Loads (y + 1) s.reg (t.perform (.step 1)).machine)) ∧
      (m.instructionAt p = .decimal →
        ∃ d : Nat → UInt8, (∀ k < 3, (d k).toNat ≤ 9) ∧
          100 * (d 0).toNat + 10 * (d 1).toNat + (d 2).toNat = (s.reg x).toNat ∧
          m.Stores 3 d m' ∧
          (m.instructionAt (p + 2) = .load → y = 2 → ¬Memory.Covers i 3 (p + 2) →
            ∀ t : Machine, t.SamePlace m' → t.Loads 3 d (t.perform (.step 1)).machine)) := by
  intro s p i x y m'
  refine ⟨fun hstore => ?_, fun hdecimal => ?_⟩
  · have hstored := Machine.stores_of_store hrun hstore
    refine ⟨hstored, fun hload hyx hcover t hplace => ?_⟩
    exact hstored.loads hrun hplace hload (Nat.lt_succ_of_le hyx) hcover
  · have hstored := Machine.stores_of_decimal hrun hdecimal
    refine ⟨digit (s.reg x), fun k => toNat_digit_le _, sum_digits _, hstored,
      fun hload hy hcover t hplace => ?_⟩
    have hlt : y < 3 := by omega
    have hloads := hstored.loads hrun hplace hload hlt hcover
    rwa [show s.memory.x (s.pc.toNat + 2) = 2 from hy] at hloads

/-- Stores registers and loads them again; the cells go around the end of memory. -/
def storeAroundEnd : List Command :=
  [.load [0xF3, 0x55, 0xF3, 0x65] default, .setIndex 0xFFE, .setRegister 0 10, .setRegister 3 13]

/-- Stores the digits of a register over the instruction that does so, and loads them. -/
def digitsOverThemselves : List Command :=
  [.load [0xF4, 0x33, 0xF2, 0x65] default, .setIndex 0x1FF, .setRegister 4 237]

/-- Registers that were overwritten come back from both ends of memory. The digits come back
although the word that stored them has changed. -/
theorem load_reads_back_aroundEnd :
    let spoil := [(0, 99), (3, 99), (4, 99)].map fun r => Command.setRegister r.1 r.2
    let m := ((Machine.new (some 7) default).performAll storeAroundEnd).1
    let t := ((m.perform (.step 1)).machine.performAll spoil).1
    let t' := (t.perform (.step 1)).machine
    let n := ((Machine.new (some 7) default).performAll digitsOverThemselves).1
    let u := ((n.perform (.step 1)).machine.performAll spoil).1
    let u' := (u.perform (.step 1)).machine
    (m.state.blocked = false ∧ n.state.blocked = false) ∧
      (t.state.memory.get 0xFFE = 10 ∧ t.state.memory.get 0x001 = 13) ∧
      (t'.state.reg 0 = 10 ∧ t'.state.reg 3 = 13 ∧ t'.state.reg 4 = 99) ∧
      u.state.memory.word 0x200 = 0x0307 ∧
      100 * (u'.state.reg 0).toNat + 10 * (u'.state.reg 1).toNat + (u'.state.reg 2).toNat =
        237 := by
  intro spoil m t t' n u u'
  have hrun : m.state.blocked = false ∧ n.state.blocked = false := by decide +kernel
  have hm : m.instructionAt m.state.pc.toNat = .store ∧
      m.instructionAt (m.state.pc.toNat + 2) = .load := by decide +kernel
  have hn : n.instructionAt n.state.pc.toNat = .decimal ∧
      n.instructionAt (n.state.pc.toNat + 2) = .load := by decide +kernel
  obtain ⟨hstore, -⟩ := load_reads_back hrun.1
  obtain ⟨-, hdecimal⟩ := load_reads_back hrun.2
  obtain ⟨-, hload⟩ := hstore hm.1
  obtain ⟨d, -, hsum, -, hload'⟩ := hdecimal hn.1
  have hback :=
    hload hm.2 (by decide +kernel) (by decide +kernel) t (Machine.samePlace_setRegisters _ _)
  have hback' :=
    hload' hn.2 (by decide +kernel) (by decide +kernel) u (Machine.samePlace_setRegisters _ _)
  refine ⟨hrun, by decide +kernel, ⟨?_, ?_, ?_⟩, by decide +kernel, ?_⟩
  · exact (hback.here 0 (by decide +kernel)).trans (by decide +kernel)
  · exact (hback.here 3 (by decide +kernel)).trans (by decide +kernel)
  · exact (hback.elsewhere 4 (by decide) (by decide +kernel)).trans (by decide +kernel)
  · rw [hback'.here 0 (by decide), hback'.here 1 (by decide), hback'.here 2 (by decide), hsum]
    decide +kernel

end ChipEight
