import ChipEight.Proofs.Effects
import ChipEight.Proofs.History

/-!
# Arithmetic on registers

What the instructions `8xy_` do, in numbers (`AluOp.Makes`): the flag is the carry of a sum, the bit
that a shift drops, or whether a difference is of unequal operands and not negative. Both operands
are read before anything is written and the flag is written last (`State.reg_arith`). So the same
law holds for every choice of the two registers, also where one of them is the flag register
(`arithmetic_exact`).
-/

set_option autoImplicit false

namespace ChipEight

namespace AluOp

/-- The operations that write the flag. -/
def hasFlag : AluOp → Bool
  | move | or | and | xor => false
  | add | sub | shr | subn | shl => true

/-- From the numbers `a` and `b` an operation makes the value `v` and the flag `f`. -/
def Makes (op : AluOp) (a b v f : Nat) : Prop :=
  match op with
  | move => v = b
  | or => v = a ||| b
  | and => v = a &&& b
  | xor => v = a ^^^ b
  | add => 256 * f + v = a + b
  | sub => v = (a + 256 - b) % 256 ∧ (f = 1 ↔ b < a)
  | shr => 2 * v + f = a
  | subn => v = (b + 256 - a) % 256 ∧ (f = 1 ↔ a < b)
  | shl => 256 * f + v = 2 * a

theorem isSome_flag? (op : AluOp) (a b : UInt8) : (op.flag? a b).isSome = op.hasFlag := by
  cases op <;> rfl

theorem toNat_shiftRight_one (a : UInt8) : (a >>> 1).toNat = a.toNat / 2 := by
  rw [UInt8.toNat_shiftRight]
  exact Nat.shiftRight_eq_div_pow a.toNat 1

theorem toNat_shiftLeft_one (a : UInt8) : (a <<< 1).toNat = a.toNat * 2 % 256 := by
  rw [UInt8.toNat_shiftLeft]
  exact congrArg (· % 256) (Nat.shiftLeft_eq a.toNat 1)

theorem toNat_eq_ite (f : Bool) : f.toNat = if f = true then 1 else 0 := by
  cases f <;> rfl

/-- The operations on bytes make what they should. -/
theorem makes_result (op : AluOp) (a b : UInt8) :
    op.Makes a.toNat b.toNat (op.result a b).toNat ((op.flag? a b).getD false).toNat := by
  have ha := a.toNat_lt
  have hb := b.toNat_lt
  cases op with
  | move => rfl
  | or => exact UInt8.toNat_or a b
  | and => exact UInt8.toNat_and a b
  | xor => exact UInt8.toNat_xor a b
  | add =>
    simp only [Makes, result, flag?, Option.getD_some, UInt8.toNat_add, toNat_eq_ite,
      decide_eq_true_eq]
    split <;> omega
  | sub | subn =>
    simp only [Makes, result, flag?, Option.getD_some, UInt8.toNat_sub, toNat_eq_ite,
      decide_eq_true_eq, UInt8.lt_iff_toNat_lt]
    refine ⟨by omega, ?_⟩
    split <;> simp [*]
  | shr =>
    simp only [Makes, result, flag?, Option.getD_some, toNat_shiftRight_one, toNat_eq_ite,
      beq_iff_eq]
    split <;> omega
  | shl =>
    simp only [Makes, result, flag?, Option.getD_some, toNat_shiftLeft_one, toNat_eq_ite,
      decide_eq_true_eq]
    split <;> omega

end AluOp

namespace State

/-- Every register after arithmetic. The flag is written last. -/
theorem reg_arith (s : State) (op : AluOp) (x y k : Nat) :
    (s.arith op x y).reg k =
      if op.hasFlag ∧ k % 16 = flag then ((op.flag? (s.reg x) (s.reg y)).getD false).toUInt8
      else if x % 16 = k % 16 then op.result (s.reg x) (s.reg y)
      else s.reg k := by
  have hflag := op.isSome_flag? (s.reg x) (s.reg y)
  rw [arith]
  cases hf : op.flag? (s.reg x) (s.reg y) with
  | none =>
    rw [hf] at hflag
    simp only [← hflag]
    rw [reg_setReg]
    rfl
  | some f =>
    rw [hf] at hflag
    simp only [← hflag]
    rw [setFlag, reg_setReg, reg_setReg]
    simp [flag, eq_comm]

end State

/-- **Arithmetic, whatever the registers.** An instruction `8xy_` makes a value and a flag of what
the two registers held before it. Operations with a flag leave it in the flag register, and the
others leave that register alone unless it is `Vx`. The value goes to `Vx`; if that is the flag
register, it is lost to the flag. The machine goes on behind the instruction, and nothing else
changes. -/
theorem arithmetic_exact {m : Machine} {op : AluOp} (hrun : m.state.blocked = false)
    (hop : m.instructionAt m.state.pc.toNat = .alu op) :
    let s := m.state
    let x := s.memory.x s.pc.toNat
    let y := s.memory.y s.pc.toNat
    ∃ (registers : Bank UInt8 16) (v f : Nat), v < 256 ∧ f ≤ 1 ∧
      op.Makes (s.reg x).toNat (s.reg y).toNat v f ∧
      (m.perform (.step 1)).machine = m.withState { s with registers, pc := s.pc + 2 } ∧
      (x ≠ State.flag → (registers.get x).toNat = v) ∧
      (op.hasFlag = true → (registers.get State.flag).toNat = f) ∧
      (op.hasFlag = false → (registers.get State.flag).toNat =
        if x = State.flag then v else (s.reg State.flag).toNat) ∧
      ∀ k < 16, k ≠ x → k ≠ State.flag → registers.get k = s.reg k := by
  intro s x y
  have hx : x % 16 = x := Nat.mod_eq_of_lt (s.memory.x_lt s.pc.toNat)
  have hreg : ∀ k, (s.arith op x y).registers.get k = _ := s.reg_arith op x y
  refine ⟨(s.arith op x y).registers, (op.result (s.reg x) (s.reg y)).toNat,
    ((op.flag? (s.reg x) (s.reg y)).getD false).toNat, UInt8.toNat_lt _, Bool.toNat_le _,
    op.makes_result _ _, ?_, fun hne => ?_, fun hflag => ?_, fun hflag => ?_,
    fun k hk hkx hkf => ?_⟩
  · rw [Machine.perform_step_one hrun hop, Instruction.execute_alu]
  · rw [hreg, hx, if_neg (fun h => hne h.2), if_pos rfl]
  · rw [hreg, if_pos ⟨hflag, rfl⟩]
    cases (op.flag? (s.reg x) (s.reg y)).getD false <;> rfl
  · rw [hreg, if_neg (by simp [hflag]), hx]
    show (if x = State.flag then _ else _ : UInt8).toNat = _
    split <;> rfl
  · have hk' : k % 16 = k := Nat.mod_eq_of_lt hk
    rw [hreg, hk', hx, if_neg (fun h => hkf h.2), if_neg (Ne.symm hkx)]

/-- The flag register added to itself keeps the carry and not the sum. A register that is equal to
the flag register becomes zero when that is subtracted, and so does the flag. -/
theorem arithmetic_exact_flagRegister :
    let m := ((Machine.new (some 7) default).performAll
      [.load [0x8F, 0xF4, 0x81, 0xF5] default, .setRegister 15 200, .setRegister 1 1]).1
    let doubled := (m.perform (.step 1)).machine
    let subtracted := (doubled.perform (.step 1)).machine
    (m.state.blocked = false ∧ m.instructionAt m.state.pc.toNat = .alu .add) ∧
      (doubled.state.blocked = false ∧
        doubled.instructionAt doubled.state.pc.toNat = .alu .sub) ∧
      (doubled.state.reg 15).toNat = 1 ∧
      (subtracted.state.reg 1).toNat = 0 ∧ (subtracted.state.reg 15).toNat = 0 := by
  intro m doubled subtracted
  have hadd : m.state.blocked = false ∧ m.instructionAt m.state.pc.toNat = .alu .add := by
    decide +kernel
  have hsub : doubled.state.blocked = false ∧
      doubled.instructionAt doubled.state.pc.toNat = .alu .sub := by decide +kernel
  refine ⟨hadd, hsub, ?_, ?_⟩
  · obtain ⟨registers, v, f, hv, -, hmakes, hend, -, hflag, -⟩ := arithmetic_exact hadd.1 hadd.2
    have ha : (m.state.reg (m.state.memory.x m.state.pc.toNat)).toNat = 200 := by decide +kernel
    have hb : (m.state.reg (m.state.memory.y m.state.pc.toNat)).toNat = 200 := by decide +kernel
    simp only [AluOp.Makes, ha, hb] at hmakes
    have hend : doubled = m.withState _ := hend
    rw [hend]
    exact (hflag rfl).trans (by omega)
  · obtain ⟨registers, v, f, -, hf, hmakes, hend, hvalue, hflag, -⟩ :=
      arithmetic_exact hsub.1 hsub.2
    have hx : doubled.state.memory.x doubled.state.pc.toNat = 1 := by decide +kernel
    have ha : (doubled.state.reg 1).toNat = 1 := by decide +kernel
    have hb : (doubled.state.reg (doubled.state.memory.y doubled.state.pc.toNat)).toNat = 1 := by
      decide +kernel
    simp only [AluOp.Makes, hx, ha, hb] at hmakes hvalue
    have hend : subtracted = doubled.withState _ := hend
    rw [hend]
    exact ⟨(hvalue (by decide)).trans (by omega), (hflag rfl).trans (by omega)⟩

end ChipEight
