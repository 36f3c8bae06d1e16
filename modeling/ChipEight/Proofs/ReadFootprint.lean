import ChipEight.Proofs.Storage

/-!
# What an instruction reads

An instruction reads the bytes of its own operands, a draw the rows of its sprite and a load the
bytes it loads; many read less than the two bytes of an opcode, and none reads its class from
memory. In two memories that hold the same there, it does the same but to memory, and it writes the
same bytes to the same place (`Instruction.execute_withMemory`). So two machines that differ in
other cells still differ only in these after one instruction (`execution_reads_footprint`).
-/

set_option autoImplicit false

namespace ChipEight

namespace Memory

variable {m m' : Memory} {a : Nat}

/-! Each operand field is determined by one of the two bytes, but `nnn` by both. -/

theorem x_of_get (h : m'.get a = m.get a) : m'.x a = m.x a := by rw [x, h, x]

theorem y_of_get (h : m'.get (a + 1) = m.get (a + 1)) : m'.y a = m.y a := by rw [y, h, y]

theorem n_of_get (h : m'.get (a + 1) = m.get (a + 1)) : m'.n a = m.n a := by rw [n, h, n]

theorem kk_of_get (h : m'.get (a + 1) = m.get (a + 1)) : m'.kk a = m.kk a := h

theorem nnn_of_get (h : m'.get a = m.get a) (h' : m'.get (a + 1) = m.get (a + 1)) :
    m'.nnn a = m.nnn a := by rw [nnn, h, h', nnn]

end Memory

namespace Instruction

/-- How many bytes an instruction reads at the program counter. -/
def operandBytes (i : Instruction) (s : State) : Nat :=
  match i with
  | illegal | clear | ret => 0
  | awaitKey => if s.pending.isNone then 0 else 1
  | skip .keyDown | skip .keyUp => 1
  | readDelay | setDelay | setSound | addIndex | glyph | decimal | store | load => 1
  | _ => 2

/-- How many bytes an instruction reads at the index register. -/
def dataBytes (i : Instruction) (s : State) : Nat :=
  match i with
  | draw => s.memory.n s.pc.toNat
  | load => s.memory.x s.pc.toNat + 1
  | _ => 0

/-- The cells that an instruction reads. -/
def Reads (i : Instruction) (s : State) (a : Nat) : Prop :=
  Memory.Covers s.pc.toNat (i.operandBytes s) a ∨ Memory.Covers s.index.toNat (i.dataBytes s) a

instance (i : Instruction) (s : State) (a : Nat) : Decidable (i.Reads s a) :=
  inferInstanceAs (Decidable (_ ∨ _))

/-- The bytes that an instruction writes at the index register. -/
def written (i : Instruction) (s : State) : List UInt8 :=
  match i with
  | decimal => decimalDigits (s.reg (s.memory.x s.pc.toNat))
  | store => s.registers.window 0 (s.memory.x s.pc.toNat + 1)
  | _ => []

theorem memory_execute_eq_write (i : Instruction) (s : State) :
    (i.execute s).state.memory = s.memory.write s.index.toNat (i.written s) := by
  rw [memory_execute]
  cases i <;> rfl

/-- An instruction does the same in another memory that holds the same where it reads. -/
theorem execute_withMemory {i : Instruction} {s : State} {memory : Memory}
    (h : ∀ a, i.Reads s a → memory.get a = s.memory.get a) :
    i.execute { s with memory } =
      { i.execute s with
        state := { (i.execute s).state with
          memory := memory.write s.index.toNat (i.written s) } } := by
  have hfirst (hlen : 0 < i.operandBytes s) :
      memory.get s.pc.toNat = s.memory.get s.pc.toNat := h _ (.inl ⟨0, hlen, rfl⟩)
  have hsecond (hlen : 1 < i.operandBytes s) :
      memory.get (s.pc.toNat + 1) = s.memory.get (s.pc.toNat + 1) := h _ (.inl ⟨1, hlen, rfl⟩)
  have hdata : memory.window s.index.toNat (i.dataBytes s) =
      s.memory.window s.index.toNat (i.dataBytes s) :=
    List.map_congr_left fun k hk => h _ (.inr ⟨k, List.mem_range.1 hk, rfl⟩)
  cases i with
  | illegal | clear | ret => rfl
  | awaitKey =>
    cases hpending : s.pending with
    | none =>
      simp only [execute, executeAwaitKey, hpending]
      rfl
    | some k =>
      have hx := Memory.x_of_get (hfirst (by simp [operandBytes, hpending]))
      simp only [execute, executeAwaitKey, hpending, hx]
      rfl
  | skip c =>
    cases c with
    | keyDown | keyUp =>
      have hx := Memory.x_of_get (hfirst Nat.zero_lt_one)
      simp only [execute, Condition.holds, hx]
      rfl
    | _ =>
      have hx := Memory.x_of_get (hfirst Nat.two_pos)
      have hsecond := hsecond Nat.one_lt_two
      simp only [execute, Condition.holds, hx, Memory.y_of_get hsecond, Memory.kk_of_get hsecond]
      rfl
  | readDelay | setDelay | setSound | addIndex | glyph | decimal | store =>
    have hx := Memory.x_of_get (hfirst Nat.zero_lt_one)
    simp only [execute, hx]
    rfl
  | load =>
    have hx := Memory.x_of_get (hfirst Nat.zero_lt_one)
    rw [dataBytes] at hdata
    simp only [execute, hx, hdata]
    rfl
  | draw =>
    have hx := Memory.x_of_get (hfirst Nat.two_pos)
    have hsecond := hsecond Nat.one_lt_two
    rw [dataBytes] at hdata
    simp only [execute, State.sprite, hx, Memory.y_of_get hsecond, Memory.n_of_get hsecond, hdata]
    rfl
  | alu op =>
    have hx := Memory.x_of_get (hfirst Nat.two_pos)
    have hy := Memory.y_of_get (hsecond Nat.one_lt_two)
    simp only [execute, hx, hy]
    cases op <;> rfl
  | _ =>
    have hx := Memory.x_of_get (hfirst Nat.two_pos)
    have hnnn := Memory.nnn_of_get (hfirst Nat.two_pos) (hsecond Nat.one_lt_two)
    have hsecond := hsecond Nat.one_lt_two
    simp only [execute, hx, Memory.kk_of_get hsecond, hnnn]
    rfl

end Instruction

/-! ## Two machines -/

namespace Machine

/-- The batch of one instruction after which `e` is the effect. -/
def performedOne (m : Machine) (e : Effect) : Performed :=
  let b : Batch := { state := e.state, drew := e.signal == .redraw, log := #[] ++ e.log }
  { machine := m.withState b.state, reply := .ran b.signal, log := b.log }

theorem perform_step_one_eq {m : Machine} (h : m.state.blocked = false) :
    m.perform (.step 1) =
      m.performedOne ((m.instructionAt m.state.pc.toNat).execute m.state) := by
  rw [perform, run, Batch.advance, if_neg (by simp [h])]
  rfl

theorem events_step_one {m : Machine} (h : m.state.blocked = false) :
    m.events [.step 1] = [m.execution] := by
  simp [events, commandEvents, batchEvents, h]

end Machine

/-- **An instruction depends on its footprint only.** Let two running machines differ only in the
contents of memory cells, and the next instruction read none of the cells that differ. Then it
reports and logs the same in both, and does the same to all but memory. To memory it writes the
same bytes, so the cells that differed keep their contents or get a common one, and no others
differ. The class of the instruction is the same whatever memory holds. -/
theorem execution_reads_footprint {m : Machine} {memory : Memory} (hrun : m.state.blocked = false)
    (hdiffer : ∀ a, memory.get a ≠ m.state.memory.get a →
      ¬(m.instructionAt m.state.pc.toNat).Reads m.state a) :
    let m' := m.withState { m.state with memory }
    let p := m.perform (.step 1)
    let p' := m'.perform (.step 1)
    p'.reply = p.reply ∧ p'.log = p.log ∧
      p'.machine = p.machine.withState
        { p.machine.state with memory := p'.machine.state.memory } ∧
      (∃ bs, p.machine.state.memory = m.state.memory.write m.state.index.toNat bs ∧
        p'.machine.state.memory = memory.write m.state.index.toNat bs) ∧
      (∀ a, (p.machine.state.memory.get a = m.state.memory.get a ∧
          p'.machine.state.memory.get a = memory.get a) ∨
        p'.machine.state.memory.get a = p.machine.state.memory.get a) ∧
      (∀ a, memory.get a = m.state.memory.get a →
        p'.machine.state.memory.get a = p.machine.state.memory.get a) ∧
      ∀ any : Memory, ((m.withState { m.state with memory := any }).events [.step 1]).map
        Event.move = [.execute (m.instructionAt m.state.pc.toNat)] := by
  intro m' p p'
  let i := m.instructionAt m.state.pc.toNat
  have hreads (a : Nat) (ha : i.Reads m.state a) : memory.get a = m.state.memory.get a := by
    by_contra hne
    exact hdiffer a hne ha
  have hp : p = m.performedOne (i.execute m.state) := Machine.perform_step_one_eq hrun
  have hp' : p' = m'.performedOne (i.execute { m.state with memory }) :=
    Machine.perform_step_one_eq hrun
  rw [Instruction.execute_withMemory hreads] at hp'
  have hmemory : p.machine.state.memory =
      m.state.memory.write m.state.index.toNat (i.written m.state) := by
    rw [hp]
    exact i.memory_execute_eq_write m.state
  have hmemory' : p'.machine.state.memory =
      memory.write m.state.index.toNat (i.written m.state) := by
    rw [hp']
    rfl
  have hcells (a : Nat) := m.state.memory.get_write_or memory m.state.index.toNat
    (i.written m.state) a
  rw [← hmemory, ← hmemory'] at hcells
  refine ⟨?_, ?_, ?_, ⟨_, hmemory, hmemory'⟩, hcells, fun a ha => ?_, fun any => ?_⟩
  · rw [hp, hp']
    rfl
  · rw [hp, hp']
    rfl
  · rw [hmemory', hp, hp']
    rfl
  · rcases hcells a with ⟨hkept, hkept'⟩ | hsame
    · rw [hkept, hkept', ha]
    · exact hsame
  · rw [Machine.events_step_one (m := m.withState { m.state with memory := any }) hrun]
    rfl

/-- Stores two registers over its own second byte and the cell behind it. -/
def storeOverItself : List Command :=
  [.load [0xF1, 0x55] default, .setIndex 0x201, .setRegister 0 1, .setRegister 1 2]

/-- The store does not read its second byte, which differs here and is overwritten, nor a cell far
away, which goes on to differ. -/
theorem execution_reads_footprint_storeOverItself :
    let m := ((Machine.new (some 7) default).performAll storeOverItself).1
    let memory := (m.state.memory.write 0x201 [0xAA]).write 0x300 [0x77]
    let p := m.perform (.step 1)
    let p' := (m.withState { m.state with memory }).perform (.step 1)
    m.state.blocked = false ∧ memory.get 0x201 = 0xAA ∧ m.state.memory.get 0x201 = 0x55 ∧
      p'.reply = p.reply ∧
      p'.machine = p.machine.withState
        { p.machine.state with memory := p'.machine.state.memory } ∧
      p'.machine.state.memory.get 0x201 = p.machine.state.memory.get 0x201 ∧
      p'.machine.state.memory.get 0x202 = p.machine.state.memory.get 0x202 ∧
      p'.machine.state.memory.get 0x300 = 0x77 := by
  intro m memory p p'
  have hrun : m.state.blocked = false := by decide +kernel
  have hplace : m.instructionAt m.state.pc.toNat = .store ∧ m.state.pc = 0x200 := by decide +kernel
  have hbyte : memory.get 0x201 = 0xAA ∧ m.state.memory.get 0x201 = 0x55 ∧
      p.machine.state.memory.get 0x201 ≠ 0x55 := by decide +kernel
  have hbehind : memory.get 0x202 = m.state.memory.get 0x202 := by decide +kernel
  have hfar : memory.get 0x300 = 0x77 ∧ p.machine.state.memory.get 0x300 = 0 ∧
      p'.machine.state.memory.get 0x300 ≠ 0 := by decide +kernel
  clear_value m
  have hdiffer (a : Nat) (ha : memory.get a ≠ m.state.memory.get a) :
      ¬(m.instructionAt m.state.pc.toNat).Reads m.state a := by
    rw [hplace.1]
    rintro (⟨k, hk, hcell⟩ | ⟨k, hk, -⟩)
    · obtain rfl := Nat.lt_one_iff.1 hk
      rw [hplace.2] at hcell
      have hcell : 0x200 = a % 4096 := hcell
      have hget : memory.get a = (m.state.memory.write 0x201 [0xAA]).get a :=
        Bank.get_set_of_ne _ _ (by omega)
      exact ha (hget.trans (Bank.get_set_of_ne _ _ (by omega)))
    · cases hk
  obtain ⟨hreply, -, hmachine, -, hcells, hsame, -⟩ := execution_reads_footprint hrun hdiffer
  refine ⟨hrun, hbyte.1, hbyte.2.1, hreply, hmachine, ?_, hsame 0x202 hbehind, ?_⟩
  · exact (hcells 0x201).resolve_left fun h => hbyte.2.2 (h.1.trans hbyte.2.1)
  · rcases hcells 0x300 with ⟨-, h⟩ | h
    · exact h.trans hfar.1
    · exact absurd (h.trans hfar.2.1) hfar.2.2

end ChipEight
