import ChipEight.Proofs.Cells
import ChipEight.Proofs.Effects

/-!
# Twelve-bit addresses

The program counter, the index register and return addresses have sixteen bits, of which every
access uses twelve. `State.Alike` relates states that differ in the other four only; every
instruction keeps it (`Alike.execute`) and so does every command, with the same reply
(`Alike.perform`). A `NarrowMachine` has no more than the twelve bits: it cuts addresses off after
every instruction. It gives the same replies as the machine it is cut from, and ends as the machine
that is cut from the other's end (`performAll_alike_narrow`).
-/

set_option autoImplicit false

namespace ChipEight

/-- Addresses of the same memory cell: their low twelve bits are equal. -/
def SameCell (a b : UInt16) : Prop := a.toNat % 4096 = b.toNat % 4096

namespace SameCell

theorem refl (a : UInt16) : SameCell a a := rfl

theorem add {a b : UInt16} (h : SameCell a b) (c : UInt16) : SameCell (a + c) (b + c) := by
  unfold SameCell at h ⊢
  rw [UInt16.toNat_add, UInt16.toNat_add]
  omega

theorem mod (a : UInt16) : SameCell (a % 4096) a := by
  show a.toNat % 4096 % 4096 = a.toNat % 4096
  omega

theorem mod_eq_iff {a b : UInt16} : a % 4096 = b % 4096 ↔ SameCell a b := by
  rw [← UInt16.toNat_inj]
  exact Iff.rfl

end SameCell

/-! ## States -/

namespace State

/-- States that differ in the upper four bits of addresses only. -/
structure Alike (s t : State) : Prop where
  pc : SameCell s.pc t.pc
  index : SameCell s.index t.index
  slots : ∀ i, SameCell (s.stack.slots.get i) (t.stack.slots.get i)
  sp : s.stack.sp = t.stack.sp
  registers : s.registers = t.registers
  delay : s.delay = t.delay
  sound : s.sound = t.sound
  keypad : s.keypad = t.keypad
  pending : s.pending = t.pending
  blocked : s.blocked = t.blocked
  memory : s.memory = t.memory
  display : s.display = t.display
  random : s.random = t.random

namespace Alike

theorem refl (s : State) : Alike s s :=
  ⟨rfl, rfl, fun _ => rfl, rfl, rfl, rfl, rfl, rfl, rfl, rfl, rfl, rfl, rfl⟩

theorem symm {s t : State} (h : Alike s t) : Alike t s :=
  ⟨h.pc.symm, h.index.symm, fun i => (h.slots i).symm, h.sp.symm, h.registers.symm, h.delay.symm,
    h.sound.symm, h.keypad.symm, h.pending.symm, h.blocked.symm, h.memory.symm, h.display.symm,
    h.random.symm⟩

theorem trans {s t u : State} (h : Alike s t) (h' : Alike t u) : Alike s u :=
  ⟨h.pc.trans h'.pc, h.index.trans h'.index, fun i => (h.slots i).trans (h'.slots i),
    h.sp.trans h'.sp, h.registers.trans h'.registers, h.delay.trans h'.delay,
    h.sound.trans h'.sound, h.keypad.trans h'.keypad, h.pending.trans h'.pending,
    h.blocked.trans h'.blocked, h.memory.trans h'.memory, h.display.trans h'.display,
    h.random.trans h'.random⟩

variable {s t : State} (h : Alike s t)
include h

/-! Both states read the same operands. -/

theorem x : s.memory.x s.pc.toNat = t.memory.x t.pc.toNat := by
  rw [h.memory, t.memory.x_congr h.pc]

theorem y : s.memory.y s.pc.toNat = t.memory.y t.pc.toNat := by
  rw [h.memory, t.memory.y_congr h.pc]

theorem n : s.memory.n s.pc.toNat = t.memory.n t.pc.toNat := by
  rw [h.memory, t.memory.n_congr h.pc]

theorem kk : s.memory.kk s.pc.toNat = t.memory.kk t.pc.toNat := by
  rw [h.memory, t.memory.kk_congr h.pc]

theorem nnn : s.memory.nnn s.pc.toNat = t.memory.nnn t.pc.toNat := by
  rw [h.memory, t.memory.nnn_congr h.pc]

theorem reg (x : Nat) : s.reg x = t.reg x := by rw [State.reg, State.reg, h.registers]

theorem sprite : s.sprite = t.sprite := by
  rw [State.sprite, State.sprite, h.x, h.y, h.n, h.reg, h.reg, h.memory,
    Bank.window_congr _ _ h.index]

theorem holds (c : Condition) : c.holds s = c.holds t := by
  unfold Condition.holds
  rw [h.x, h.y, h.kk, h.reg, h.reg, h.keypad]

/-! Both states change alike. -/

theorem next : Alike s.next t.next := { h with pc := h.pc.add 2 }

theorem setReg (x : Nat) (v : UInt8) : Alike (s.setReg x v) (t.setReg x v) :=
  { h with registers := by rw [State.setReg, State.setReg, h.registers] }

theorem setPc {a b : UInt16} (hab : SameCell a b) : Alike { s with pc := a } { t with pc := b } :=
  { h with pc := hab }

theorem setIndex {a b : UInt16} (hab : SameCell a b) :
    Alike { s with index := a } { t with index := b } :=
  { h with index := hab }

theorem setRegisters {a b : Bank UInt8 16} (hab : a = b) :
    Alike { s with registers := a } { t with registers := b } :=
  { h with registers := hab }

theorem setDelay (v : UInt8) : Alike { s with delay := v } { t with delay := v } :=
  { h with delay := rfl }

theorem setSound (v : UInt8) : Alike { s with sound := v } { t with sound := v } :=
  { h with sound := rfl }

theorem setDisplay (d : Display) : Alike { s with display := d } { t with display := d } :=
  { h with display := rfl }

theorem setRandom (g : Generator) : Alike { s with random := g } { t with random := g } :=
  { h with random := rfl }

theorem setWait (p : Option Key) (b : Bool) :
    Alike { s with pending := p, blocked := b } { t with pending := p, blocked := b } :=
  { h with pending := rfl, blocked := rfl }

theorem write {a b : Nat} (hab : a % 4096 = b % 4096) {as bs : List UInt8} (hbytes : as = bs) :
    Alike { s with memory := s.memory.write a as } { t with memory := t.memory.write b bs } :=
  { h with memory := by rw [h.memory, hbytes, Bank.write_congr _ _ hab] }

theorem tick : Alike s.tick t.tick :=
  { h with
    delay := by rw [State.tick, State.tick, h.delay]
    sound := by rw [State.tick, State.tick, h.sound] }

theorem press (k : Key) : Alike (s.press k) (t.press k) :=
  { h with
    keypad := by rw [State.press, State.press, h.keypad]
    pending := rfl
    blocked := rfl }

theorem release (k : Key) : Alike (s.release k) (t.release k) :=
  { h with keypad := by rw [State.release, State.release, h.keypad] }

theorem arith (op : AluOp) (x y : Nat) : Alike (s.arith op x y) (t.arith op x y) := by
  unfold State.arith
  rw [h.reg, h.reg]
  dsimp only
  split
  · exact (h.setReg _ _).setReg _ _
  · exact h.setReg _ _

theorem push {a b : UInt16} (hab : SameCell a b) (p : UInt16) :
    Alike { s with pc := p, stack := s.stack.push a } { t with pc := p, stack := t.stack.push b } :=
  { h with
    pc := .refl p
    sp := by rw [CallStack.push, CallStack.push, h.sp]
    slots := fun i => by
      simp only [CallStack.push, Bank.get_set, h.sp]
      split
      · exact hab
      · exact h.slots i }

theorem pop :
    Alike { s with pc := s.stack.top, stack := s.stack.pop }
      { t with pc := t.stack.top, stack := t.stack.pop } :=
  { h with
    pc := by
      show SameCell (s.stack.slots.get _) (t.stack.slots.get _)
      rw [h.sp]
      exact h.slots _
    sp := by rw [CallStack.pop, CallStack.pop, h.sp] }

theorem executeAwaitKey :
    Alike (Instruction.executeAwaitKey s).state (Instruction.executeAwaitKey t).state := by
  unfold Instruction.executeAwaitKey
  rw [h.pending, h.x]
  cases t.pending with
  | some k => exact ((h.setReg _ _).setWait none false).next
  | none => exact h.setWait none true

/-- Every instruction signals the same. -/
theorem signal_execute (i : Instruction) : (i.execute s).signal = (i.execute t).signal := by
  cases i with
  | awaitKey =>
    simp only [Instruction.execute, Instruction.executeAwaitKey, h.pending]
    cases t.pending <;> rfl
  | _ => rfl

/-- Every instruction keeps states alike. -/
theorem execute (i : Instruction) : Alike (i.execute s).state (i.execute t).state := by
  cases i with
  | illegal => exact h.next
  | clear => exact (h.setDisplay .blank).next
  | ret => exact h.pop
  | jump =>
    simp only [Instruction.execute, h.nnn]
    exact h.setPc (.refl _)
  | call =>
    simp only [Instruction.execute, h.nnn]
    exact h.push (h.pc.add 2) _
  | skip c =>
    simp only [Instruction.execute, h.holds]
    exact h.setPc (h.pc.add _)
  | loadByte =>
    simp only [Instruction.execute, h.x, h.kk]
    exact (h.setReg _ _).next
  | addByte =>
    simp only [Instruction.execute, h.x, h.kk, h.reg]
    exact (h.setReg _ _).next
  | alu op =>
    simp only [Instruction.execute, h.x, h.y]
    exact (h.arith op _ _).next
  | loadIndex =>
    simp only [Instruction.execute, h.nnn]
    exact (h.setIndex (.refl _)).next
  | jumpOffset =>
    simp only [Instruction.execute, h.nnn, h.reg]
    exact h.setPc (.refl _)
  | random =>
    simp only [Instruction.execute, h.x, h.kk, h.random]
    exact ((h.setRandom _).setReg _ _).next
  | draw =>
    simp only [Instruction.execute, h.sprite, h.display]
    exact ((h.setDisplay _).setReg _ _).next
  | readDelay =>
    simp only [Instruction.execute, h.x, h.delay]
    exact (h.setReg _ _).next
  | awaitKey => exact h.executeAwaitKey
  | setDelay =>
    simp only [Instruction.execute, h.x, h.reg]
    exact (h.setDelay _).next
  | setSound =>
    simp only [Instruction.execute, h.x, h.reg]
    exact (h.setSound _).next
  | addIndex =>
    simp only [Instruction.execute, h.x, h.reg]
    exact (h.setIndex (h.index.add _)).next
  | glyph =>
    simp only [Instruction.execute, h.x, h.reg]
    exact (h.setIndex (.refl _)).next
  | decimal =>
    simp only [Instruction.execute, h.x, h.reg]
    exact (h.write h.index rfl).next
  | store =>
    simp only [Instruction.execute, h.x]
    exact (h.write h.index (by rw [h.registers])).next
  | load =>
    simp only [Instruction.execute, h.x]
    exact (h.setRegisters (by rw [h.memory, h.registers, Bank.window_congr _ _ h.index])).next

end Alike

end State

/-! ## Machines -/

namespace Machine

/-- Machines whose states are alike and that are equal in all else. -/
structure Alike (m m' : Machine) : Prop where
  state : m.state.Alike m'.state
  table : m.table = m'.table
  cursor : m.cursor = m'.cursor
  seed : m.seed = m'.seed

namespace Alike

theorem refl (m : Machine) : Alike m m := ⟨.refl _, rfl, rfl, rfl⟩

theorem readdress {m : Machine} {a b : UInt16} (ha : SameCell m.state.pc a)
    (hb : SameCell m.state.index b) : Alike m (m.withState { m.state with pc := a, index := b }) :=
  { refl m with state := { State.Alike.refl m.state with pc := ha, index := hb } }

variable {m m' : Machine} (h : Alike m m')
include h

/-- Given the same entropy, machines alike become equal. -/
theorem reset_eq (entropy : Entropy) : m.reset entropy = m'.reset entropy := by
  rw [reset, reset, h.seed]

theorem instructionAt_pc :
    m.instructionAt m.state.pc.toNat = m'.instructionAt m'.state.pc.toNat := by
  rw [instructionAt, instructionAt, h.table, Bank.get_congr _ h.state.pc]

theorem withState {s t : State} (hs : s.Alike t) : Alike (m.withState s) (m'.withState t) :=
  { h with state := hs }

theorem compile (w : UInt16) : Alike (m.compile w) (m'.compile w) where
  state := h.state.write (by rw [h.cursor]) rfl
  table := by rw [Machine.compile, Machine.compile, h.table, h.cursor]
  cursor := by rw [Machine.compile, Machine.compile, h.cursor]
  seed := h.seed

/-- Batches from machines alike end in states alike and have drawn alike. -/
theorem advance {a b : Batch} (hs : a.state.Alike b.state) (hd : a.drew = b.drew) (n : Nat) :
    (a.advance m.table n).state.Alike (b.advance m'.table n).state ∧
      (a.advance m.table n).drew = (b.advance m'.table n).drew := by
  induction n generalizing a b with
  | zero => exact ⟨hs, hd⟩
  | succ n ih =>
    rw [Batch.advance, Batch.advance, hs.blocked]
    split
    · exact ⟨hs, hd⟩
    · have hi : m.table.get a.state.pc.toNat = m'.table.get b.state.pc.toNat := by
        rw [h.table, Bank.get_congr _ hs.pc]
      refine ih ?_ ?_
      · rw [Batch.next, Batch.next, hi]
        exact hs.execute _
      · rw [Batch.next, Batch.next, hi, hd, hs.signal_execute]

theorem perform_step (n : Nat) :
    (m.perform (.step n)).reply = (m'.perform (.step n)).reply ∧
      Alike (m.perform (.step n)).machine (m'.perform (.step n)).machine := by
  have hrun : (m.run n).state.Alike (m'.run n).state ∧ (m.run n).drew = (m'.run n).drew :=
    h.advance (a := { state := m.state }) (b := { state := m'.state }) h.state rfl n
  obtain ⟨hs, hd⟩ := hrun
  refine ⟨?_, h.withState hs⟩
  show Reply.ran (m.run n).signal = .ran (m'.run n).signal
  rw [Batch.signal, Batch.signal, hs.blocked, hd]

/-- Every command keeps machines alike and is answered the same. -/
theorem perform (c : Command) :
    (m.perform c).reply = (m'.perform c).reply ∧
      Alike (m.perform c).machine (m'.perform c).machine := by
  cases c with
  | reset entropy =>
    refine ⟨rfl, ?_⟩
    show Alike (m.reset entropy) (m'.reset entropy)
    rw [h.reset_eq]
    exact refl _
  | load program entropy =>
    rcases Nat.lt_or_ge Memory.maxProgram program.length with hlong | hfit
    · rw [perform_load_of_lt hlong, perform_load_of_lt hlong]
      exact ⟨rfl, h⟩
    · rw [perform_load_of_le hfit, perform_load_of_le hfit, h.reset_eq]
      exact ⟨rfl, refl _⟩
  | compile w => exact ⟨rfl, h.compile w⟩
  | step n => exact h.perform_step n
  | tick => exact ⟨rfl, h.withState h.state.tick⟩
  | press k =>
    cases k with
    | none => exact ⟨rfl, h⟩
    | some k => exact ⟨rfl, h.withState (h.state.press k)⟩
  | release k =>
    cases k with
    | none => exact ⟨rfl, h⟩
    | some k => exact ⟨rfl, h.withState (h.state.release k)⟩
  | setRegister x v => exact ⟨rfl, h.withState (h.state.setReg x v)⟩
  | setIndex a => exact ⟨rfl, h.withState (h.state.setIndex (.refl a))⟩
  | setDelay v => exact ⟨rfl, h.withState (h.state.setDelay v)⟩
  | write a data => exact ⟨rfl, h.withState (h.state.write rfl rfl)⟩

end Alike

end Machine

/-! ## The machine with twelve-bit addresses -/

/-- The state with every address cut off to twelve bits. -/
def State.narrow (s : State) : State :=
  { s with
    pc := s.pc % 4096
    index := s.index % 4096
    stack := ⟨⟨s.stack.slots.cells.map (· % 4096)⟩, s.stack.sp⟩ }

/-- A machine whose program counter, index register and return addresses have twelve bits. -/
structure NarrowMachine extends Machine where
  pc_lt : state.pc.toNat < 4096
  index_lt : state.index.toNat < 4096
  slots_lt : ∀ i, (state.stack.slots.get i).toNat < 4096

theorem State.get_slots_narrow (s : State) (i : Nat) :
    s.narrow.stack.slots.get i = s.stack.slots.get i % 4096 := by
  simp [State.narrow, Bank.get]

theorem toNat_mod_lt (a : UInt16) : (a % 4096).toNat < 4096 := Nat.mod_lt _ (by decide)

/-- The machine with every address cut off to twelve bits. -/
def Machine.narrow (m : Machine) : NarrowMachine where
  toMachine := m.withState m.state.narrow
  pc_lt := toNat_mod_lt _
  index_lt := toNat_mod_lt _
  slots_lt i := by
    show (m.state.narrow.stack.slots.get i).toNat < 4096
    rw [State.get_slots_narrow]
    exact toNat_mod_lt _

namespace NarrowMachine

theorem ext_toMachine {m m' : NarrowMachine} (h : m.toMachine = m'.toMachine) : m = m' := by
  cases m
  cases m'
  cases h
  rfl

/-- Executes up to `n` instructions and cuts off addresses after each; the flag says whether one of
them has drawn. -/
def advance : Nat → NarrowMachine → Bool → NarrowMachine × Bool
  | 0, m, drew => (m, drew)
  | n + 1, m, drew =>
    if m.state.blocked then (m, drew)
    else
      let e := (m.instructionAt m.state.pc.toNat).execute m.state
      advance n (m.withState e.state).narrow (drew || e.signal == .redraw)

def perform (m : NarrowMachine) : Command → NarrowMachine × Reply
  | .step n =>
    let (m', drew) := advance n m false
    (m', .ran (if m'.state.blocked then .awaitKey else if drew then .redraw else .nothing))
  | c => ((m.toMachine.perform c).machine.narrow, (m.toMachine.perform c).reply)

def performAll (m : NarrowMachine) : List Command → NarrowMachine × List Reply
  | [] => (m, [])
  | c :: cs =>
    let (m', reply) := m.perform c
    let (m'', replies) := m'.performAll cs
    (m'', reply :: replies)

end NarrowMachine

theorem State.narrow_alike (s : State) : s.narrow.Alike s :=
  { State.Alike.refl s with
    pc := .mod _
    index := .mod _
    slots := fun i => by
      rw [State.get_slots_narrow]
      exact .mod _ }

/-- States are alike exactly if they are cut off to the same state. -/
theorem State.narrow_eq_iff {s t : State} : s.narrow = t.narrow ↔ s.Alike t := by
  constructor
  · intro h
    have ht := t.narrow_alike
    rw [← h] at ht
    exact s.narrow_alike.symm.trans ht
  · intro h
    have hslots : s.narrow.stack.slots = t.narrow.stack.slots := by
      refine Bank.ext_get fun i _ => ?_
      rw [State.get_slots_narrow, State.get_slots_narrow, SameCell.mod_eq_iff.2 (h.slots i)]
    have hstack : s.narrow.stack = t.narrow.stack := by
      show CallStack.mk s.narrow.stack.slots s.stack.sp = ⟨t.narrow.stack.slots, t.stack.sp⟩
      rw [hslots, h.sp]
    rw [State.narrow, State.mk.injEq]
    exact ⟨SameCell.mod_eq_iff.2 h.pc, SameCell.mod_eq_iff.2 h.index, h.registers, hstack, h.delay,
      h.sound, h.keypad, h.pending, h.blocked, h.memory, h.display, h.random⟩

namespace Machine

theorem narrow_alike (m : Machine) : m.narrow.toMachine.Alike m :=
  { Alike.refl m with state := m.state.narrow_alike }

/-- Machines are alike exactly if they are cut off to the same machine. -/
theorem narrow_eq_iff {m m' : Machine} : m.narrow = m'.narrow ↔ m.Alike m' := by
  constructor
  · intro h
    obtain ⟨hstate, htable, hcursor, hseed⟩ := Machine.mk.inj (congrArg NarrowMachine.toMachine h)
    exact ⟨State.narrow_eq_iff.1 hstate, htable, hcursor, hseed⟩
  · intro h
    apply NarrowMachine.ext_toMachine
    show Machine.mk m.state.narrow m.table m.cursor m.seed =
      ⟨m'.state.narrow, m'.table, m'.cursor, m'.seed⟩
    rw [State.narrow_eq_iff.2 h.state, h.table, h.cursor, h.seed]

end Machine

namespace NarrowMachine

open Machine

theorem advance_narrow (m : Machine) (n : Nat) (b : Batch) :
    advance n (m.withState b.state).narrow b.drew =
      ((m.withState (b.advance m.table n).state).narrow, (b.advance m.table n).drew) := by
  induction n generalizing b with
  | zero => rfl
  | succ n ih =>
    have hblocked : (m.withState b.state).narrow.state.blocked = b.state.blocked := rfl
    rw [advance, Batch.advance, hblocked]
    split
    · rfl
    · have halike := (m.withState b.state).narrow_alike
      have hi : (m.withState b.state).narrow.instructionAt
          (m.withState b.state).narrow.state.pc.toNat = m.table.get b.state.pc.toNat :=
        halike.instructionAt_pc
      have hstate := halike.state.execute (m.table.get b.state.pc.toNat)
      have hsignal := halike.state.signal_execute (m.table.get b.state.pc.toNat)
      have hnext := Machine.narrow_eq_iff.2 (halike.withState hstate)
      dsimp only
      rw [hi, hnext, hsignal]
      exact ih (b.next m.table)

theorem perform_narrow (m : Machine) (c : Command) :
    m.narrow.perform c = ((m.perform c).machine.narrow, (m.perform c).reply) := by
  have hother := m.narrow_alike.perform c
  have hnarrow := Machine.narrow_eq_iff.2 hother.2
  cases c with
  | step n =>
    have hadvance : advance n m.narrow false = ((m.step n).narrow, (m.run n).drew) :=
      advance_narrow m n { state := m.state }
    rw [perform, hadvance]
    rfl
  | _ => exact Prod.ext hnarrow hother.1

theorem performAll_narrow (m : Machine) (cs : List Command) :
    m.narrow.performAll cs = ((m.performAll cs).1.narrow, (m.performAll cs).2.1) := by
  induction cs generalizing m with
  | nil => rfl
  | cons c cs ih =>
    rw [performAll, perform_narrow]
    dsimp only
    rw [ih]
    rfl

end NarrowMachine

/-- **The upper four bits of addresses are never used.** Machines that differ in them only answer
every command and every history the same and stay alike; and every history takes the machine whose
addresses have twelve bits, with the same replies, to what its result is cut off to. Where a machine
without a seed draws entropy, the command says which, so that both are given the same. -/
theorem performAll_alike_narrow {m m' : Machine} (h : m.Alike m') (c : Command)
    (cs : List Command) :
    ((m.perform c).reply = (m'.perform c).reply ∧
        (m.perform c).machine.Alike (m'.perform c).machine) ∧
      ((m.performAll cs).2.1 = (m'.performAll cs).2.1 ∧
        (m.performAll cs).1.Alike (m'.performAll cs).1) ∧
      (∀ m₁ m₂ : Machine, m₁.narrow = m₂.narrow ↔ m₁.Alike m₂) ∧
      m.narrow.performAll cs = ((m.performAll cs).1.narrow, (m.performAll cs).2.1) := by
  have hnarrow := Machine.narrow_eq_iff.2 h
  have hrun := NarrowMachine.performAll_narrow m cs
  have hrun' := NarrowMachine.performAll_narrow m' cs
  rw [← hnarrow, hrun, Prod.mk.injEq] at hrun'
  exact ⟨h.perform c, ⟨hrun'.2, Machine.narrow_eq_iff.1 hrun'.1⟩,
    fun _ _ => Machine.narrow_eq_iff, hrun⟩

/-- Call `0x204` from `0x200`; there, return to `0x202`, and clear the display. -/
def callAndReturn : List UInt8 := [0x22, 0x04, 0x00, 0xE0, 0x00, 0xEE]

/-- A run at `0xF200` pushes another return address than one at `0x200`, and ends elsewhere. The
machines have no seed, and a reset gives both the entropy that is drawn for it. -/
theorem performAll_alike_narrow_callAndReturn :
    let m := ((Machine.new none default).perform (.load callAndReturn default)).machine
    let drawn : Entropy := #v[3, 1, 4, 1, 5, 9, 2, 6]
    let m' := m.withState { m.state with pc := 0xF200, index := 0x3000 }
    m.Alike m' ∧ (m.perform (.reset drawn)).machine.state.random = ⟨drawn, 0⟩ ∧
      (m.perform (.reset drawn)).machine.Alike (m'.perform (.reset drawn)).machine ∧
      (m.performAll [.step 3]).1.state.pc ≠ (m'.performAll [.step 3]).1.state.pc ∧
      (m.performAll [.step 3]).2.1 = (m'.performAll [.step 3]).2.1 ∧
      (m.performAll [.step 3]).1.Alike (m'.performAll [.step 3]).1 ∧
      m.narrow.performAll [.step 3] =
        ((m.performAll [.step 3]).1.narrow, (m.performAll [.step 3]).2.1) := by
  intro m drawn m'
  have hpc : SameCell m.state.pc 0xF200 := by
    show m.state.pc.toNat % 4096 = (0xF200 : UInt16).toNat % 4096
    decide +kernel
  have hindex : SameCell m.state.index 0x3000 := by
    show m.state.index.toNat % 4096 = (0x3000 : UInt16).toNat % 4096
    decide +kernel
  have halike : m.Alike m' := .readdress hpc hindex
  obtain ⟨⟨-, hreset⟩, ⟨hreplies, hend⟩, -, hnarrow⟩ :=
    performAll_alike_narrow halike (.reset drawn) [.step 3]
  exact ⟨halike, rfl, hreset, by decide +kernel, hreplies, hend, hnarrow⟩

end ChipEight
