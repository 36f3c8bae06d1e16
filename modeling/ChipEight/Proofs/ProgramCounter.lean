import ChipEight.Proofs.Compilation
import ChipEight.Proofs.History
import Mathlib.Data.List.Induction

/-!
# The program counter

Which instruction a running machine executes next and where it goes from there. The class is that of
the word last compiled at the program counter since the last restart (`lastClass`), and the operands
are the two bytes that memory holds there now (`Instruction.destination`). The two come from
different times: memory may have been written since. `Linked.instructionAt_eq` ties the table to the
history, and `program_counter_exact` states both halves for every history.
-/

set_option autoImplicit false

namespace ChipEight

/-! ## What was compiled -/

/-- Words compiled from address `c` on, each with its address. -/
def placed (c : Nat) (ws : List UInt16) : List (Nat × UInt16) :=
  ws.mapIdx fun k w => ((c + 2 * k) % Memory.size, w)

/-- The words an event compiles. A load that is refused compiles none. -/
def Event.compiled (e : Event) : List (Nat × UInt16) :=
  match e.move with
  | .command (.compile w) => placed e.machine.cursor [w]
  | .command (.load program _) =>
    if e.restarts then placed Memory.start (Machine.words program) else []
  | _ => []

/-- The events from the last restart on, or all if there is none. -/
def sinceRestart : List Event → List Event
  | [] => []
  | e :: past => if past.any Event.restarts then sinceRestart past else e :: past

/-- The word last compiled at an address since the last restart. -/
def lastWord (past : List Event) (a : Nat) : Option UInt16 :=
  ((sinceRestart past).flatMap Event.compiled).reverse.lookup a

/-- The class of the word last compiled at an address since the last restart. -/
def lastClass (past : List Event) (a : Nat) : Instruction :=
  (lastWord past a).elim .illegal .ofWord

theorem placed_concat (c : Nat) (ws : List UInt16) (w : UInt16) :
    placed c (ws ++ [w]) = placed c ws ++ [((c + 2 * ws.length) % Memory.size, w)] :=
  List.mapIdx_concat

theorem sinceRestart_concat (past : List Event) (e : Event) :
    sinceRestart (past ++ [e]) = if e.restarts then [e] else sinceRestart past ++ [e] := by
  induction past with
  | nil => cases h : e.restarts <;> rfl
  | cons f past ih =>
    rw [List.cons_append, sinceRestart, sinceRestart, ih, List.any_append, List.any_cons,
      List.any_nil, Bool.or_false]
    cases e.restarts with
    | true => simp
    | false => cases past.any Event.restarts <;> simp

/-- What the last event compiled counts before what is older. -/
theorem lastWord_concat (past : List Event) (e : Event) (a : Nat) :
    lastWord (past ++ [e]) a =
      (e.compiled.reverse.lookup a).or (if e.restarts then none else lastWord past a) := by
  rw [lastWord, sinceRestart_concat]
  cases e.restarts with
  | true => simp
  | false => simp [lastWord, List.lookup_append]

namespace Machine

theorem instructionAt_compile_of_lt (m : Machine) (w : UInt16) {a : Nat} (ha : a < Memory.size) :
    (m.compile w).instructionAt a =
      if m.cursor % Memory.size = a then .ofWord w else m.instructionAt a := by
  rw [instructionAt_compile, show a % 4096 = a from Nat.mod_eq_of_lt ha]
  rfl

/-- The table holds the class of the last of the words that went to an address. -/
theorem instructionAt_compileAll_eq (ws : List UInt16) {m : Machine} (hc : m.cursor < Memory.size)
    {a : Nat} (ha : a < Memory.size) :
    (ws.foldl compile m).instructionAt a =
      ((placed m.cursor ws).reverse.lookup a).elim (m.instructionAt a) .ofWord := by
  -- From the end of the list, since the last word decides.
  induction ws using List.reverseRecOn with
  | nil => rfl
  | append_singleton ws w ih =>
    rw [List.foldl_append, List.foldl_cons, List.foldl_nil, instructionAt_compile_of_lt _ _ ha,
      cursor_compileAll ws hc, Nat.mod_mod, ih, placed_concat, List.reverse_concat,
      List.lookup_cons]
    by_cases hhere : (m.cursor + 2 * ws.length) % Memory.size = a
    · rw [if_pos hhere, beq_iff_eq.2 hhere.symm]
      rfl
    · rw [if_neg hhere, beq_eq_false_iff_ne.2 (Ne.symm hhere)]

end Machine

/-- What one event does to the table. -/
theorem Event.instructionAt_after {e : Event} (hv : e.Valid) {a : Nat} (ha : a < Memory.size) :
    e.after.instructionAt a = (e.compiled.reverse.lookup a).elim
      (if e.restarts then .illegal else e.machine.instructionAt a) .ofWord := by
  obtain ⟨m, move⟩ := e
  cases move with
  | execute i => rfl
  | command c =>
    cases c with
    | step n => exact absurd rfl (hv n)
    | load program entropy =>
      rcases Nat.lt_or_ge Memory.maxProgram program.length with hlong | hfit
      · simp [after, compiled, restarts, Machine.perform_load_of_lt hlong]
      · have hcursor : (m.reset entropy).cursor < Memory.size := by
          show Memory.start < Memory.size
          decide
        have htable : (m.reset entropy).instructionAt a = .illegal := Bank.get_fill _ _
        have hall := Machine.instructionAt_compileAll_eq (Machine.words program) hcursor ha
        rw [htable] at hall
        simp only [after, compiled, restarts, Machine.perform_load_of_le hfit, decide_true, if_true]
        exact hall
    | reset entropy => exact Bank.get_fill _ _
    | compile w =>
      show (m.compile w).instructionAt a = _
      rw [Machine.instructionAt_compile_of_lt _ _ ha]
      by_cases hhere : m.cursor % Memory.size = a
      · simp [compiled, placed, hhere]
      · simp [compiled, placed, restarts, List.lookup_cons, hhere,
          beq_eq_false_iff_ne.2 (Ne.symm hhere)]
    | press k | release k => cases k <;> rfl
    | _ => rfl

/-- The table of a machine holds the class of the word last compiled at each address. -/
theorem Linked.instructionAt_eq {seed : Option UInt64} {entropy : Entropy} {past : List Event}
    (h : Linked (.new seed entropy) past) {a : Nat} (ha : a < Memory.size) :
    ((Machine.new seed entropy).after past).instructionAt a = lastClass past a := by
  refine h.induction (P := fun past m => m.instructionAt a = lastClass past a) ?_ []
    (Bank.get_fill _ _)
  intro past e hv hclass
  rw [e.instructionAt_after hv ha, lastClass, lastWord_concat, hclass, lastClass]
  cases e.compiled.reverse.lookup a with
  | some w => rfl
  | none => cases e.restarts <;> rfl

/-! ## Where an instruction goes -/

namespace State

/-- The byte at the program counter. -/
def high (s : State) : Nat := (s.memory.get (s.pc.toNat % Memory.size)).toNat

/-- The byte behind it, at the bottom of memory if that one is the last. -/
def low (s : State) : Nat := (s.memory.get ((s.pc.toNat + 1) % Memory.size)).toNat

theorem high_eq (s : State) : s.high = (s.memory.get s.pc.toNat).toNat :=
  congrArg UInt8.toNat (s.memory.get_mod _)

theorem low_eq (s : State) : s.low = (s.memory.get (s.pc.toNat + 1)).toNat :=
  congrArg UInt8.toNat (s.memory.get_mod _)

theorem toNat_nnn (s : State) :
    (s.memory.nnn s.pc.toNat).toNat = s.high % 16 * 256 + s.low := by
  rw [high_eq, low_eq, Memory.toNat_nnn]

end State

namespace Condition

/-- What a skip asks for. -/
def Met (c : Condition) (s : State) : Prop :=
  let vx := s.reg (s.high % 16)
  match c with
  | isByte => vx.toNat = s.low
  | isNotByte => vx.toNat ≠ s.low
  | same => vx = s.reg (s.low / 16)
  | differ => vx ≠ s.reg (s.low / 16)
  | keyDown => ∃ k : Key, vx.toNat = k.code ∧ s.keypad.isHeld k = true
  | keyUp => ¬∃ k : Key, vx.toNat = k.code ∧ s.keypad.isHeld k = true

theorem holds_iff (c : Condition) (s : State) : c.holds s = true ↔ c.Met s := by
  have hx : s.memory.x s.pc.toNat = s.high % 16 := by rw [s.high_eq]; rfl
  have hy : s.memory.y s.pc.toNat = s.low / 16 := by rw [s.low_eq]; rfl
  have hkk : (s.memory.kk s.pc.toNat).toNat = s.low := by rw [s.low_eq]; rfl
  cases c with
  | isByte | isNotByte => simp [holds, Met, hx, ← hkk, UInt8.toNat_inj]
  | same | differ => simp [holds, Met, hx, hy]
  | keyDown | keyUp => simp [holds, Met, hx, ← Keypad.isHeldByte_iff]

instance (c : Condition) (s : State) : Decidable (c.Met s) :=
  decidable_of_iff (c.holds s = true) (c.holds_iff s)

end Condition

/-- The program counter after an instruction. Moving on wraps around at sixteen bits; a jump with an
offset does not come that far. -/
def Instruction.destination (i : Instruction) (s : State) : Nat :=
  let nnn := s.high % 16 * 256 + s.low
  match i with
  | jump | call => nnn
  | ret => (s.stack.slots.get ((s.stack.sp + 15) % 16)).toNat
  | jumpOffset => nnn + (s.reg 0).toNat
  | skip c => (s.pc.toNat + if c.Met s then 4 else 2) % 0x10000
  | awaitKey => if s.pending = none then s.pc.toNat else (s.pc.toNat + 2) % 0x10000
  | _ => (s.pc.toNat + 2) % 0x10000

theorem Instruction.destination_jumpOffset_le (s : State) : jumpOffset.destination s ≤ 0x10FE := by
  have hnnn := s.memory.toNat_nnn_lt s.pc.toNat
  have hreg := (s.reg 0).toNat_lt
  rw [s.toNat_nnn] at hnnn
  simp only [destination]
  omega

theorem Instruction.toNat_pc_execute (i : Instruction) (s : State) :
    (i.execute s).state.pc.toNat = i.destination s := by
  rw [pc_execute]
  cases i with
  | jump | call => exact s.toNat_nnn
  | ret =>
    simp only [destination, CallStack.top, Bank.get_mod]
  | jumpOffset =>
    have hle := destination_jumpOffset_le s
    simp only [destination] at hle ⊢
    rw [UInt16.toNat_add, s.toNat_nnn, UInt8.toNat_toUInt16, Nat.mod_eq_of_lt (by omega)]
  | skip c =>
    simp only [destination, UInt16.toNat_add, ← c.holds_iff]
    split <;> rfl
  | awaitKey =>
    cases h : s.pending with
    | none => simp [destination, h]
    | some k => simp [destination, h, UInt16.toNat_add]
  | _ => exact UInt16.toNat_add _ _

/-- **What runs next, and where it goes.** After every history, a machine that runs executes the
class of the word last compiled at the program counter since the last restart, or the illegal
instruction if there is none. It goes where that class takes it with the two bytes that are in
memory now; an offset takes it no further than `10FE`. It is blocked if it waits for a key and none
is pending. -/
theorem program_counter_exact (seed : Option UInt64) (entropy : Entropy) (cs : List Command) :
    let past := (Machine.new seed entropy).events cs
    let m := ((Machine.new seed entropy).performAll cs).1
    let m' := (m.perform (.step 1)).machine
    let i := lastClass past (m.state.pc.toNat % Memory.size)
    m.state.blocked = false →
      m' = m.withState (i.execute m.state).state ∧
      m'.state.pc.toNat = i.destination m.state ∧
      (i = .jumpOffset → m'.state.pc.toNat ≤ 0x10FE) ∧
      (m'.state.blocked = true ↔ i = .awaitKey ∧ m.state.pending = none) := by
  intro past m m' i hrun
  have hm : (Machine.new seed entropy).after past = m := Machine.after_events _ cs
  have hclass : m.instructionAt m.state.pc.toNat = i := by
    show m.instructionAt m.state.pc.toNat = lastClass past (m.state.pc.toNat % Memory.size)
    rw [← (Linked.events _ cs).instructionAt_eq (Nat.mod_lt _ (by decide)), hm]
    exact (m.table.get_mod _).symm
  have hnext : m' = m.withState (i.execute m.state).state :=
    Machine.perform_step_one hrun hclass
  have hpc : m'.state.pc.toNat = i.destination m.state := by
    rw [hnext]
    exact i.toNat_pc_execute m.state
  refine ⟨hnext, hpc, fun hi => ?_, ?_⟩
  · rw [hpc, hi]
    exact Instruction.destination_jumpOffset_le m.state
  · rw [hnext]
    show (i.execute m.state).state.blocked = true ↔ _
    rw [Instruction.blocked_execute, hrun]
    by_cases hi : i = .awaitKey <;> simp [hi]

/-- A skip is compiled, and then a jump is written over it without being compiled. -/
def jumpOverSkip : List Command :=
  [.load [0x30, 0x05] default, .write 0x200 [0x12, 0x34], .setRegister 2 0x34]

/-- The first `n` instructions of a program that makes the farthest jump with an offset. -/
def farthestJump (n : Nat) : List Command := [.load [0x60, 0xFF, 0xBF, 0xFF] default, .step n]

/-- It still skips, but on the register and the byte of the jump. The farthest jump leads past the
end of memory, to a cell at the bottom where nothing was compiled, and the machine goes on there. -/
theorem program_counter_exact_jumpOverSkip :
    let skipping := ((Machine.new (some 7) default).performAll jumpOverSkip).1
    let jumping := ((Machine.new (some 7) default).performAll (farthestJump 1)).1
    let beyond := ((Machine.new (some 7) default).performAll (farthestJump 2)).1
    (skipping.state.blocked = false ∧ jumping.state.blocked = false ∧
        beyond.state.blocked = false) ∧
      lastWord ((Machine.new (some 7) default).events jumpOverSkip) 0x200 = some 0x3005 ∧
      skipping.state.memory.word 0x200 = 0x1234 ∧
      (skipping.perform (.step 1)).machine.state.pc.toNat = 0x204 ∧
      (jumping.perform (.step 1)).machine.state.pc.toNat = 0x10FE ∧
      lastClass ((Machine.new (some 7) default).events (farthestJump 2)) 0x0FE = .illegal ∧
      (beyond.perform (.step 1)).machine.state.pc.toNat = 0x1100 := by
  intro skipping jumping beyond
  have hrun : skipping.state.blocked = false ∧ jumping.state.blocked = false ∧
      beyond.state.blocked = false := by decide +kernel
  obtain ⟨-, hskip, -⟩ := program_counter_exact (some 7) default jumpOverSkip hrun.1
  obtain ⟨-, hjump, -⟩ := program_counter_exact (some 7) default (farthestJump 1) hrun.2.1
  obtain ⟨-, hbeyond, -⟩ := program_counter_exact (some 7) default (farthestJump 2) hrun.2.2
  refine ⟨hrun, by decide +kernel, by decide +kernel, ?_, ?_, by decide +kernel, ?_⟩
  · rw [hskip]
    decide +kernel
  · rw [hjump]
    decide +kernel
  · rw [hbeyond]
    decide +kernel

end ChipEight
