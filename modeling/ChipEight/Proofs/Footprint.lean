import ChipEight.Proofs.Arithmetic
import ChipEight.Proofs.Cells

/-!
# What a batch writes

The parts of the state but for the program counter (`Part`), and which of them an instruction may
write (`Instruction.Writes`). An instruction leaves the parts alone that it does not write
(`Instruction.agree_execute`), so a batch changes a part only by an instruction that writes it, and
what the last such instruction leaves there stays (`footprint_of_batch`). Operands are those in
memory when the instruction is executed, which earlier ones may have written.
-/

set_option autoImplicit false

namespace ChipEight

/-- A part of the state. -/
inductive Part
  | cell (a : Fin Memory.size)
  | display
  /-- The slots of the call stack and its pointer. -/
  | stack
  | delay
  | sound
  | index
  | random
  /-- The pending key and whether the machine is blocked. -/
  | wait
  | register (k : Fin 16)
  | keypad
deriving DecidableEq

namespace Part

/-- Two states have the same in a part. -/
def Agree : Part → State → State → Prop
  | cell a, s, t => s.memory.get a = t.memory.get a
  | display, s, t => s.display = t.display
  | stack, s, t => s.stack = t.stack
  | delay, s, t => s.delay = t.delay
  | sound, s, t => s.sound = t.sound
  | index, s, t => s.index = t.index
  | random, s, t => s.random = t.random
  | wait, s, t => s.pending = t.pending ∧ s.blocked = t.blocked
  | register k, s, t => s.reg k = t.reg k
  | keypad, s, t => s.keypad = t.keypad

theorem Agree.refl (p : Part) (s : State) : p.Agree s s := by
  cases p with
  | wait => exact ⟨rfl, rfl⟩
  | _ => rfl

theorem Agree.trans {p : Part} {s t u : State} (h : p.Agree s t) (h' : p.Agree t u) :
    p.Agree s u := by
  cases p with
  | wait => exact ⟨h.1.trans h'.1, h.2.trans h'.2⟩
  | _ => exact Eq.trans h h'

end Part

namespace Instruction

/-- Whether an instruction puts a value into `Vx`. A key wait does so if it finds a key. -/
def putsResult (i : Instruction) (s : State) : Bool :=
  match i with
  | loadByte | addByte | alu _ | random | readDelay => true
  | awaitKey => s.pending.isSome
  | _ => false

/-- Whether an instruction puts a flag into the flag register. -/
def putsFlag : Instruction → Bool
  | alu op => op.hasFlag
  | draw => true
  | _ => false

/-- The parts of the state that an instruction may write. -/
def Writes (i : Instruction) (s : State) : Part → Prop
  | .cell a =>
    (i = decimal ∧ ∃ k < 3, (s.index.toNat + k) % Memory.size = a) ∨
      (i = store ∧ ∃ k ≤ s.memory.x s.pc.toNat, (s.index.toNat + k) % Memory.size = a)
  | .display => i = clear ∨ i = draw
  | .stack => i = call ∨ i = ret
  | .delay => i = setDelay
  | .sound => i = setSound
  | .index => i = loadIndex ∨ i = addIndex ∨ i = glyph
  | .random => i = random
  | .wait => i = awaitKey
  | .register k =>
    (i.putsResult s = true ∧ k = s.memory.x s.pc.toNat) ∨
      (i = load ∧ k ≤ s.memory.x s.pc.toNat) ∨
      (i.putsFlag = true ∧ k = State.flag)
  | .keypad => False

section

variable {i : Instruction} {s : State}

theorem get_memory_execute {a : Fin Memory.size} (h : ¬i.Writes s (.cell a)) :
    (i.execute s).state.memory.get a = s.memory.get a := by
  have ha : a % 4096 = (a : Nat) := Nat.mod_eq_of_lt a.isLt
  simp only [Writes, not_or, not_and, not_exists] at h
  rw [memory_execute]
  split
  · exact Bank.get_write_of_ne _ _ _ fun k hk => by
      rw [ha]
      exact h.1 rfl k hk
  · exact Bank.get_write_of_ne _ _ _ fun k hk => by
      rw [Bank.length_window] at hk
      rw [ha]
      exact h.2 rfl k (by omega)
  · rfl

theorem reg_execute {k : Fin 16} (h : ¬i.Writes s (.register k)) :
    (i.execute s).state.reg k = s.reg k := by
  have hx : s.memory.x s.pc.toNat % 16 = s.memory.x s.pc.toNat :=
    Nat.mod_eq_of_lt (s.memory.x_lt s.pc.toNat)
  have hk : k % 16 = (k : Nat) := Nat.mod_eq_of_lt k.isLt
  simp only [Writes, not_or, not_and] at h
  obtain ⟨hresult, hload, hflag⟩ := h
  have hresult : i.putsResult s = true → s.memory.x s.pc.toNat % 16 ≠ k % 16 := by
    rw [hx, hk]
    exact fun hi => Ne.symm (hresult hi)
  have hflag : i.putsFlag = true → ¬k % 16 = State.flag := by
    rw [hk]
    exact hflag
  rw [State.reg, registers_execute]
  cases i with
  | loadByte | addByte | random | readDelay => exact Bank.get_set_of_ne _ _ (hresult rfl)
  | draw => exact Bank.get_set_of_ne _ _ (Ne.symm (hflag rfl))
  | alu op =>
    show (s.arith op _ _).reg k = _
    rw [State.reg_arith, if_neg (fun hi => hflag hi.1 hi.2), if_neg (hresult rfl)]
  | awaitKey =>
    cases hp : s.pending with
    | some key => exact Bank.get_set_of_ne _ _ (hresult (by simp [putsResult, hp]))
    | none => rfl
  | load =>
    refine Bank.get_write_of_ne _ _ _ fun j hj => ?_
    have hlt := hload rfl
    rw [Bank.length_window] at hj
    omega
  | _ => rfl

/-- **An instruction leaves alone what it does not write.** -/
theorem agree_execute {p : Part} (h : ¬i.Writes s p) : p.Agree s (i.execute s).state := by
  cases p with
  | cell a => exact (get_memory_execute h).symm
  | register k => exact (reg_execute h).symm
  | keypad => exact (keypad_execute i s).symm
  | delay => exact ((delay_execute i s).trans (if_neg h)).symm
  | sound => exact ((sound_execute i s).trans (if_neg h)).symm
  | random => exact ((random_execute i s).trans (if_neg h)).symm
  | wait =>
    exact ⟨((pending_execute i s).trans (if_neg h)).symm,
      ((blocked_execute i s).trans (if_neg h)).symm⟩
  | display =>
    show s.display = (i.execute s).state.display
    rw [display_execute]
    cases i with
    | clear | draw => simp [Writes] at h
    | _ => rfl
  | stack =>
    show s.stack = (i.execute s).state.stack
    rw [stack_execute]
    cases i with
    | call | ret => simp [Writes] at h
    | _ => rfl
  | index =>
    show s.index = (i.execute s).state.index
    rw [index_execute]
    cases i with
    | loadIndex | addIndex | glyph => simp [Writes] at h
    | _ => rfl

end

end Instruction

/-! ## Runs -/

/-- The execution of an instruction that may write a part of the state. -/
def Event.Writes (e : Event) (p : Part) : Prop :=
  ∃ i, e.move = .execute i ∧ i.Writes e.machine.state p

/-- Instructions one after the other leave alone what none of them writes. -/
theorem Linked.agree {m : Machine} {es : List Event} (h : Linked m es)
    (hes : ∀ e ∈ es, ∃ i, e.move = .execute i) {p : Part} (hp : ∀ e ∈ es, ¬e.Writes p) :
    p.Agree m.state (m.after es).state := by
  induction h with
  | nil m => exact .refl p _
  | @cons e es _ _ ih =>
    obtain ⟨⟨i, hi⟩, hes⟩ := List.forall_mem_cons.1 hes
    obtain ⟨hfirst, hp⟩ := List.forall_mem_cons.1 hp
    have hafter : e.after = e.machine.withState (i.execute e.machine.state).state := by
      rw [Event.after, hi]
    have hstep : p.Agree e.machine.state e.after.state := by
      rw [hafter]
      exact Instruction.agree_execute fun hw => hfirst ⟨i, hi, hw⟩
    exact hstep.trans (ih hes hp)

/-- **A batch writes what its instructions write.** If a part of the state is not as before the
batch, an instruction in the batch writes it, and what the last one to do so leaves there stays. No
instruction changes which keys are held, the table, the cursor or the seed, whatever is written to
memory. -/
theorem footprint_of_batch (m : Machine) (n : Nat) :
    let executed := m.batchEvents n
    let m' := (m.perform (.step n)).machine
    (∀ p : Part, ¬p.Agree m.state m'.state → ∃ e ∈ executed, e.Writes p) ∧
      (∀ past e rest, executed = past ++ e :: rest → ∀ p : Part, (∀ f ∈ rest, ¬f.Writes p) →
        p.Agree e.after.state m'.state) ∧
      m'.state.keypad = m.state.keypad ∧ m'.table = m.table ∧ m'.cursor = m.cursor ∧
      m'.seed = m.seed := by
  intro executed m'
  have hend : m.after executed = m' := m.after_batchEvents n
  have hlinked : Linked m executed := .batchEvents m n
  have hes : ∀ e ∈ executed, ∃ i, e.move = .execute i := fun e he =>
    Machine.exists_execute_of_mem_batchEvents he
  have hagree {p : Part} (hp : ∀ e ∈ executed, ¬e.Writes p) : p.Agree m.state m'.state := by
    rw [← hend]
    exact hlinked.agree hes hp
  refine ⟨fun p hp => ?_, fun past e rest hsplit p hrest => ?_, ?_, rfl, rfl, rfl⟩
  · refine Classical.byContradiction fun hnone => hp (hagree fun e he hw => ?_)
    exact hnone ⟨e, he, hw⟩
  · have hsplit : executed = (past ++ [e]) ++ rest := by rw [hsplit, List.append_cons]
    have hafter : m.after (past ++ [e]) = e.after := m.after_append past [e]
    rw [hsplit] at hlinked hend
    rw [← hend, Machine.after_append, hafter]
    refine (hafter ▸ hlinked.drop).agree (fun f hf => hes f ?_) hrest
    rw [hsplit]
    exact List.mem_append_right _ hf
  · exact (hagree (p := .keypad) fun e _ ⟨_, _, hw⟩ => hw).symm

/-- Stores `V0` and `V1` over the store itself, which then is one of `V0` to `V3`, and jumps back
to it. -/
def storeOverStore : List UInt8 := [0xA2, 0x04, 0x60, 0xF3, 0xF1, 0x55, 0x12, 0x04]

/-- The second store reaches the jump, which the first one did not. In the table it stays. -/
theorem footprint_of_batch_storeOverStore :
    let m := ((Machine.new (some 7) default).perform (.load storeOverStore default)).machine
    let m' := (m.perform (.step 5)).machine
    let cell : Part := .cell ⟨0x207, by decide⟩
    cell.Agree m.state (m.step 3).state ∧ ¬cell.Agree m.state m'.state ∧
      (∃ e ∈ m.batchEvents 5, e.Writes cell) ∧
      m'.state.memory.word 0x206 = 0 ∧ m'.instructionAt 0x206 = .jump := by
  intro m m' cell
  obtain ⟨hwritten, -, -, htable, -⟩ := footprint_of_batch m 5
  have hfirst : m.state.memory.get 0x207 = (m.step 3).state.memory.get 0x207 := by decide +kernel
  have hsecond : m.state.memory.get 0x207 ≠ m'.state.memory.get 0x207 := by decide +kernel
  refine ⟨hfirst, hsecond, hwritten cell hsecond, by decide +kernel, ?_⟩
  rw [Machine.instructionAt, htable]
  decide +kernel

end ChipEight
