import ChipEight.Proofs.Effects
import ChipEight.Proofs.History

/-!
# Alignment

Programs are compiled at even addresses, and a call at an even address returns to an even one. So
return addresses stay even, nothing is ever compiled at an odd address, and a blocked machine stands
at an even one (`Machine.Aligned`, `Machine.Reachable.aligned`). A jump to an odd address is
therefore a trap: the machine steps over nothing but illegal instructions from then on
(`odd_pc_trap`).
-/

set_option autoImplicit false

namespace ChipEight

/-! ## The invariant -/

/-- All return addresses are even, also in slots that were never pushed to. -/
def CallStack.Even (s : CallStack) : Prop := ∀ i, (s.slots.get i).toNat % 2 = 0

theorem CallStack.Even.push {s : CallStack} (h : s.Even) {a : UInt16} (ha : a.toNat % 2 = 0) :
    (s.push a).Even := by
  intro i
  rw [CallStack.push, Bank.get_set]
  split
  · exact ha
  · exact h i

theorem toNat_add_two_mod (a : UInt16) : (a + 2).toNat % 2 = a.toNat % 2 := by
  rw [UInt16.toNat_add]
  show (a.toNat + 2) % 2 ^ 16 % 2 = a.toNat % 2
  omega

namespace Machine

structure Aligned (m : Machine) : Prop where
  cursor : m.cursor % 2 = 0
  stack : m.state.stack.Even
  table : ∀ a, a % 2 = 1 → m.instructionAt a = .illegal
  blocked : m.state.blocked = true → m.state.pc.toNat % 2 = 0

/-- A machine with nothing compiled and nothing run is aligned. -/
theorem aligned_initial (g : Generator) (seed : Option UInt64) :
    Aligned ⟨.initial g, Bank.fill 4096 .illegal, Memory.start, seed⟩ where
  cursor := by
    show Memory.start % 2 = 0
    rfl
  stack i := by
    show ((Bank.fill 16 (0 : UInt16)).get i).toNat % 2 = 0
    rw [Bank.get_fill]
    rfl
  table a _ := Bank.get_fill _ _
  blocked h := by cases h

theorem aligned_reset (m : Machine) (entropy : Entropy) : (m.reset entropy).Aligned :=
  aligned_initial _ _

theorem instructionAt_compile_of_odd {m : Machine} (hc : m.cursor % 2 = 0) (w : UInt16) {a : Nat}
    (ha : a % 2 = 1) : (m.compile w).instructionAt a = m.instructionAt a :=
  Bank.get_set_of_ne _ _ (by omega)

namespace Aligned

variable {m : Machine} (h : m.Aligned)
include h

theorem compile (w : UInt16) : (m.compile w).Aligned where
  cursor := by
    have := h.cursor
    show (m.cursor + 2) % 4096 % 2 = 0
    omega
  stack := h.stack
  table a ha := by rw [instructionAt_compile_of_odd h.cursor w ha, h.table a ha]
  blocked := h.blocked

theorem compileAll (ws : List UInt16) : (ws.foldl Machine.compile m).Aligned := by
  induction ws generalizing m with
  | nil => exact h
  | cons w ws ih => exact ih (h.compile w)

theorem load (program : List UInt8) (entropy : Entropy) :
    (m.perform (.load program entropy)).machine.Aligned := by
  rcases Nat.lt_or_ge Memory.maxProgram program.length with hlong | hfit
  · rw [perform_load_of_lt hlong]
    exact h
  · rw [perform_load_of_le hfit]
    exact (aligned_reset m entropy).compileAll _

/-- An instruction other than an illegal one is found at even addresses only. -/
theorem even_of_ne_illegal {a : Nat} (hi : m.instructionAt a ≠ .illegal) : a % 2 = 0 := by
  rcases Nat.mod_two_eq_zero_or_one a with ha | ha
  · exact ha
  · exact absurd (h.table a ha) hi

theorem execute (hrun : m.state.blocked = false) {i : Instruction}
    (hi : i = m.instructionAt m.state.pc.toNat) :
    (m.withState (i.execute m.state).state).Aligned where
  cursor := h.cursor
  stack := by
    show (i.execute m.state).state.stack.Even
    rw [Instruction.stack_execute]
    split
    · exact h.stack
    · next hcall =>
      have hpc := h.even_of_ne_illegal (a := m.state.pc.toNat) (by simp [← hi])
      exact h.stack.push (by rw [toNat_add_two_mod, hpc])
    · exact h.stack
  table := h.table
  blocked hb := by
    have hb' : (if i = .awaitKey then m.state.pending.isNone else m.state.blocked) = true := by
      rw [← Instruction.blocked_execute]
      exact hb
    rw [hrun] at hb'
    obtain ⟨rfl, hnone⟩ : i = .awaitKey ∧ m.state.pending = none := by simpa using hb'
    show (Instruction.awaitKey.execute m.state).state.pc.toNat % 2 = 0
    rw [Instruction.execute_awaitKey_of_none hnone]
    exact h.even_of_ne_illegal (by simp [← hi])

theorem perform {c : Command} (hc : ∀ n, c ≠ .step n) : (m.perform c).machine.Aligned := by
  cases c with
  | reset entropy => exact aligned_reset m entropy
  | load program entropy => exact h.load program entropy
  | compile w => exact h.compile w
  | step n => exact absurd rfl (hc n)
  | press k =>
    cases k with
    | none => exact h
    | some k => exact { h with blocked := fun hb => by cases hb }
  | release k => cases k <;> exact { h with }
  | tick | setRegister x v | setIndex a | setDelay v | write a data => exact { h with }

end Aligned

theorem Aligned.after {e : Event} (h : e.machine.Aligned) (hv : e.Valid) : e.after.Aligned := by
  obtain ⟨m, move⟩ := e
  cases move with
  | execute i => exact h.execute hv.1 hv.2
  | command c => exact h.perform hv

theorem Reachable.aligned {m : Machine} (h : m.Reachable) : m.Aligned :=
  h.induction (fun _ _ => aligned_initial _ _) fun _ hv he => he.after hv

end Machine

/-! ## The trap -/

theorem ofNat_toNat_add_two (a : UInt16) (n : Nat) :
    UInt16.ofNat ((a + 2).toNat + n) = UInt16.ofNat (a.toNat + (n + 2)) := by
  apply UInt16.toNat_inj.1
  rw [UInt16.toNat_ofNat', UInt16.toNat_ofNat', UInt16.toNat_add]
  show ((a.toNat + 2) % 2 ^ 16 + n) % 2 ^ 16 = _
  omega

/-- Where every instruction is illegal, a batch moves the program counter and does nothing else. -/
theorem advance_of_odd {table : Table} (htable : ∀ a, a % 2 = 1 → table.get a = .illegal) (n : Nat)
    {b : Batch} (hrun : b.state.blocked = false) (hpc : b.state.pc.toNat % 2 = 1) :
    b.advance table n =
      { b with state := { b.state with pc := UInt16.ofNat (b.state.pc.toNat + 2 * n) } } := by
  induction n generalizing b with
  | zero => simp [Batch.advance]
  | succ n ih =>
    have hnext : b.next table = { b with state := b.state.next } := by
      rw [Batch.next, htable _ hpc]
      simp [Instruction.execute]
    have hpc' : b.state.next.pc.toNat % 2 = 1 := by rw [State.next, toNat_add_two_mod, hpc]
    rw [Batch.advance, if_neg (by simp [hrun]), hnext,
      ih (b := { b with state := b.state.next }) hrun hpc']
    simp only [State.next, ofNat_toNat_add_two]
    rfl

namespace Machine

theorem perform_step_of_odd {m : Machine} (h : m.Aligned) (hpc : m.state.pc.toNat % 2 = 1)
    (n : Nat) :
    m.perform (.step n) =
      { machine := m.withState { m.state with pc := UInt16.ofNat (m.state.pc.toNat + 2 * n) }
        reply := .ran .nothing } := by
  have hrun : m.state.blocked = false := by
    cases hb : m.state.blocked with
    | false => rfl
    | true =>
      have := h.blocked hb
      omega
  have hbatch := advance_of_odd h.table n (b := { state := m.state }) hrun hpc
  rw [perform, run, hbatch]
  simp [Batch.signal, hrun]

/-- From an odd program counter only a reset and a successful load get to an even one. -/
theorem pc_perform_even_iff {m : Machine} (h : m.Aligned) (hpc : m.state.pc.toNat % 2 = 1)
    (c : Command) :
    (m.perform c).machine.state.pc.toNat % 2 = 0 ↔
      (∃ entropy, c = .reset entropy) ∨
        ∃ program entropy, c = .load program entropy ∧ (m.perform c).reply = .done := by
  have hstart : (UInt16.ofNat Memory.start).toNat % 2 = 0 := rfl
  have hkept : m.state.pc.toNat % 2 ≠ 0 := by omega
  cases c with
  | reset entropy => exact iff_of_true hstart (.inl ⟨entropy, rfl⟩)
  | load program entropy =>
    rcases m.perform_load program entropy with ⟨hdone, memory, hstate⟩ | ⟨hdone, hsame⟩
    · rw [hstate]
      exact iff_of_true hstart (.inr ⟨program, entropy, rfl, hdone⟩)
    · rw [hsame]
      exact iff_of_false hkept (by simpa using hdone)
  | step n =>
    rw [perform_step_of_odd h hpc]
    refine iff_of_false ?_ (by simp)
    show (UInt16.ofNat (m.state.pc.toNat + 2 * n)).toNat % 2 ≠ 0
    rw [UInt16.toNat_ofNat']
    omega
  | press k | release k => cases k <;> exact iff_of_false hkept (by simp)
  | compile w | tick | setRegister x v | setIndex a | setDelay v | write a data =>
    exact iff_of_false hkept (by simp)

end Machine

/-- **The odd program counter is a trap.** A reachable machine is aligned. If its program counter
is odd, a batch of `n` instructions moves it by `2 * n` and does nothing else, and no command makes
it even but a reset and a successful load. -/
theorem odd_pc_trap {m : Machine} (h : m.Reachable) :
    m.Aligned ∧
      (m.state.pc.toNat % 2 = 1 →
        (∀ n, m.perform (.step n) =
          { machine := m.withState { m.state with pc := UInt16.ofNat (m.state.pc.toNat + 2 * n) }
            reply := .ran .nothing }) ∧
        ∀ c, (m.perform c).machine.state.pc.toNat % 2 = 0 ↔
          (∃ entropy, c = .reset entropy) ∨
            ∃ program entropy, c = .load program entropy ∧ (m.perform c).reply = .done) := by
  refine ⟨h.aligned, fun hpc => ⟨fun n => ?_, fun c => ?_⟩⟩
  · exact m.perform_step_of_odd h.aligned hpc n
  · exact m.pc_perform_even_iff h.aligned hpc c

/-- A jump to `0x301` from the start of memory is never undone. -/
theorem odd_pc_trap_jump :
    let m := ((Machine.new (some 7) default).performAll [.load [0x13, 0x01] default, .step 1]).1
    m.state.pc = 0x301 ∧
      (m.perform (.step 70000)).reply = .ran .nothing ∧
      (m.perform (.step 70000)).machine = m.withState { m.state with pc := 0x25E1 } := by
  intro m
  have hpc : m.state.pc = 0x301 := by decide +kernel
  obtain ⟨-, htrap⟩ := odd_pc_trap (m := m) ⟨some 7, default, _, rfl⟩
  obtain ⟨hstep, -⟩ := htrap (by rw [hpc]; rfl)
  rw [hstep, hpc]
  exact ⟨rfl, rfl, rfl⟩

end ChipEight
