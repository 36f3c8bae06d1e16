import ChipEight.Machine.Command

/-!
# Effects, field by field

Which instructions change a field of the state, and to what, and what a load leaves. Proofs about
one field over a run use the field's equation here and need not look at the twenty-two instructions
again.
-/

set_option autoImplicit false

namespace ChipEight

namespace State

/-- Arithmetic changes registers only. -/
theorem arith_eq (s : State) (op : AluOp) (x y : Nat) :
    s.arith op x y = { s with registers := (s.arith op x y).registers } := by
  cases op <;> rfl

end State

namespace Instruction

variable {s : State}

theorem execute_alu (op : AluOp) (s : State) :
    ((alu op).execute s).state =
      { s with
        registers := (s.arith op (s.memory.x s.pc.toNat) (s.memory.y s.pc.toNat)).registers
        pc := s.pc + 2 } := by
  simp only [execute]
  rw [State.arith_eq]
  rfl

theorem execute_awaitKey_of_pending {k : Key} (h : s.pending = some k) :
    (awaitKey.execute s).state =
      { s.setReg (s.memory.x s.pc.toNat) k.toByte with
        pending := none, blocked := false, pc := s.pc + 2 } := by
  simp only [execute, executeAwaitKey, h]
  rfl

theorem execute_awaitKey_of_none (h : s.pending = none) :
    (awaitKey.execute s).state = { s with blocked := true } := by
  simp only [execute, executeAwaitKey, h]

/-- A key wait in one equation, whether it finds a key or not. -/
theorem execute_awaitKey (s : State) :
    (awaitKey.execute s).state =
      { s with
        registers :=
          match s.pending with
          | some k => s.registers.set (s.memory.x s.pc.toNat) k.toByte
          | none => s.registers
        pending := none
        blocked := s.pending.isNone
        pc := if s.pending.isNone then s.pc else s.pc + 2 } := by
  cases h : s.pending with
  | some k =>
    rw [execute_awaitKey_of_pending h]
    rfl
  | none =>
    rw [execute_awaitKey_of_none h]
    simp [h]

/-- Jumps, calls, returns and skips go elsewhere, and a key wait without a pending key stays. -/
theorem pc_execute (i : Instruction) (s : State) :
    (i.execute s).state.pc =
      match i with
      | ret => s.stack.top
      | jump | call => s.memory.nnn s.pc.toNat
      | skip c => s.pc + if c.holds s then 4 else 2
      | jumpOffset => s.memory.nnn s.pc.toNat + (s.reg 0).toUInt16
      | awaitKey => if s.pending.isNone then s.pc else s.pc + 2
      | _ => s.pc + 2 := by
  cases i with
  | alu op => rw [execute_alu]
  | awaitKey => rw [execute_awaitKey]
  | _ => rfl

/-- Only three instructions change the index register. -/
theorem index_execute (i : Instruction) (s : State) :
    (i.execute s).state.index =
      match i with
      | loadIndex => s.memory.nnn s.pc.toNat
      | addIndex => s.index + (s.reg (s.memory.x s.pc.toNat)).toUInt16
      | glyph => UInt16.ofNat ((s.reg (s.memory.x s.pc.toNat)).toNat * Font.height)
      | _ => s.index := by
  cases i with
  | alu op => rw [execute_alu]
  | awaitKey => rw [execute_awaitKey]
  | _ => rfl

theorem registers_execute (i : Instruction) (s : State) :
    (i.execute s).state.registers =
      let x := s.memory.x s.pc.toNat
      match i with
      | loadByte => s.registers.set x (s.memory.kk s.pc.toNat)
      | addByte => s.registers.set x (s.reg x + s.memory.kk s.pc.toNat)
      | alu op => (s.arith op x (s.memory.y s.pc.toNat)).registers
      | random => s.registers.set x (s.memory.kk s.pc.toNat &&& s.random.byte)
      | draw => s.registers.set State.flag (s.display.collides s.sprite).toUInt8
      | readDelay => s.registers.set x s.delay
      | awaitKey =>
        match s.pending with
        | some k => s.registers.set x k.toByte
        | none => s.registers
      | load => s.registers.write 0 (s.memory.window s.index.toNat (x + 1))
      | _ => s.registers := by
  cases i with
  | alu op => rw [execute_alu]
  | awaitKey => rw [execute_awaitKey]
  | _ => rfl

/-- Only calls and returns change the call stack. -/
theorem stack_execute (i : Instruction) (s : State) :
    (i.execute s).state.stack =
      match i with
      | ret => s.stack.pop
      | call => s.stack.push (s.pc + 2)
      | _ => s.stack := by
  cases i with
  | alu op => rw [execute_alu]
  | awaitKey => rw [execute_awaitKey]
  | _ => rfl

theorem delay_execute (i : Instruction) (s : State) :
    (i.execute s).state.delay =
      if i = setDelay then s.reg (s.memory.x s.pc.toNat) else s.delay := by
  cases i with
  | alu op => rw [execute_alu]; rfl
  | awaitKey => rw [execute_awaitKey]; rfl
  | _ => rfl

theorem sound_execute (i : Instruction) (s : State) :
    (i.execute s).state.sound =
      if i = setSound then s.reg (s.memory.x s.pc.toNat) else s.sound := by
  cases i with
  | alu op => rw [execute_alu]; rfl
  | awaitKey => rw [execute_awaitKey]; rfl
  | _ => rfl

/-- No instruction changes which keys are held. -/
theorem keypad_execute (i : Instruction) (s : State) : (i.execute s).state.keypad = s.keypad := by
  cases i with
  | alu op => rw [execute_alu]
  | awaitKey => rw [execute_awaitKey]
  | _ => rfl

/-- Only a key wait changes the pending key, and none is left after it. -/
theorem pending_execute (i : Instruction) (s : State) :
    (i.execute s).state.pending = if i = awaitKey then none else s.pending := by
  cases i with
  | alu op => rw [execute_alu]; rfl
  | awaitKey => rw [execute_awaitKey]; rfl
  | _ => rfl

/-- Only a key wait without a pending key blocks. -/
theorem blocked_execute (i : Instruction) (s : State) :
    (i.execute s).state.blocked = if i = awaitKey then s.pending.isNone else s.blocked := by
  cases i with
  | alu op => rw [execute_alu]; rfl
  | awaitKey => rw [execute_awaitKey]; rfl
  | _ => rfl

/-- Only a store and the decimal digits of a register go to memory. -/
theorem memory_execute (i : Instruction) (s : State) :
    (i.execute s).state.memory =
      match i with
      | decimal => s.memory.write s.index.toNat (decimalDigits (s.reg (s.memory.x s.pc.toNat)))
      | store =>
        s.memory.write s.index.toNat (s.registers.window 0 (s.memory.x s.pc.toNat + 1))
      | _ => s.memory := by
  cases i with
  | alu op => rw [execute_alu]
  | awaitKey => rw [execute_awaitKey]
  | _ => rfl

/-- Only a clear and a draw change the display. -/
theorem display_execute (i : Instruction) (s : State) :
    (i.execute s).state.display =
      match i with
      | clear => .blank
      | draw => s.display.draw s.sprite
      | _ => s.display := by
  cases i with
  | alu op => rw [execute_alu]
  | awaitKey => rw [execute_awaitKey]
  | _ => rfl

/-- Only a random instruction moves on in the random stream. -/
theorem random_execute (i : Instruction) (s : State) :
    (i.execute s).state.random = if i = random then s.random.next else s.random := by
  cases i with
  | alu op => rw [execute_alu]; rfl
  | awaitKey => rw [execute_awaitKey]; rfl
  | _ => rfl

/-- A clear and a draw signal a redraw, and a key wait without a pending key that it waits. -/
theorem signal_execute (i : Instruction) (s : State) :
    (i.execute s).signal =
      match i with
      | clear | draw => .redraw
      | awaitKey => if s.pending.isNone then .awaitKey else .nothing
      | _ => .nothing := by
  cases i with
  | awaitKey =>
    simp only [execute, executeAwaitKey]
    cases s.pending <;> rfl
  | _ => rfl

/-- Only a key wait is logged: the key it is satisfied by, or that a running machine blocks. -/
theorem log_execute (i : Instruction) (s : State) :
    (i.execute s).log =
      match i, s.pending with
      | awaitKey, some k => #[.satisfied k]
      | awaitKey, none => if s.blocked then #[] else #[.blocked s.pc]
      | _, _ => #[] := by
  cases i with
  | awaitKey =>
    simp only [execute, executeAwaitKey]
    cases s.pending <;> rfl
  | _ => rfl

end Instruction

/-! ## Loads -/

namespace Machine

theorem seed_compileAll (ws : List UInt16) (m : Machine) : (ws.foldl compile m).seed = m.seed := by
  induction ws generalizing m with
  | nil => rfl
  | cons w ws ih => exact ih (m.compile w)

/-- Compiling changes memory only. -/
theorem state_compileAll (ws : List UInt16) (m : Machine) :
    ∃ memory, (ws.foldl compile m).state = { m.state with memory } := by
  induction ws generalizing m with
  | nil => exact ⟨m.state.memory, rfl⟩
  | cons w ws ih =>
    obtain ⟨memory, h⟩ := ih (m.compile w)
    exact ⟨memory, h⟩

theorem perform_load_of_le {m : Machine} {program : List UInt8} {entropy : Entropy}
    (h : program.length ≤ Memory.maxProgram) :
    m.perform (.load program entropy) =
      { machine := (words program).foldl compile (m.reset entropy)
        log := (loadRecords program).toArray } := by
  rw [perform, load, if_pos h]

theorem perform_load_of_lt {m : Machine} {program : List UInt8} {entropy : Entropy}
    (h : Memory.maxProgram < program.length) :
    m.perform (.load program entropy) =
      { machine := m, reply := .refused (.programTooLarge program.length) } := by
  rw [perform, load, if_neg (by omega)]

/-- A load leaves an initial state but for memory, or is refused and leaves the machine. -/
theorem perform_load (m : Machine) (program : List UInt8) (entropy : Entropy) :
    ((m.perform (.load program entropy)).reply = .done ∧ ∃ memory,
        (m.perform (.load program entropy)).machine.state =
          { State.initial (.start m.seed entropy) with memory }) ∨
      ((m.perform (.load program entropy)).reply ≠ .done ∧
        (m.perform (.load program entropy)).machine = m) := by
  rcases Nat.lt_or_ge Memory.maxProgram program.length with hlong | hfit
  · rw [perform_load_of_lt hlong]
    exact .inr ⟨nofun, rfl⟩
  · rw [perform_load_of_le hfit]
    exact .inl ⟨rfl, state_compileAll _ (m.reset entropy)⟩

/-- No command changes the seed. -/
theorem seed_perform (m : Machine) (c : Command) : (m.perform c).machine.seed = m.seed := by
  cases c with
  | load program entropy =>
    rcases Nat.lt_or_ge Memory.maxProgram program.length with hlong | hfit
    · rw [perform_load_of_lt hlong]
    · rw [perform_load_of_le hfit]
      exact seed_compileAll _ (m.reset entropy)
  | press k | release k => cases k <;> rfl
  | _ => rfl

end Machine

end ChipEight
