import ChipEight.Proofs.Compilation
import ChipEight.Proofs.History

/-!
# Dispatch through the table

A machine looks the class of an instruction up in its table. The plain interpreter (`Plain`) has no
use for a table: before each instruction it classifies the word that memory holds at the program
counter. After a load the table and memory agree at every even address above the font
(`Machine.Coherent`, `coherent_of_load`), whether or not the program reaches that far, so both
interpreters take the same run as long as each instruction is executed where memory is as it was
loaded (`plain_eq_of_asLoaded`).
-/

set_option autoImplicit false

namespace ChipEight

/-! ## The plain interpreter -/

namespace Plain

/-- The class of the word in memory at the program counter. -/
def fetch (s : State) : Instruction := .ofWord (s.memory.word s.pc.toNat)

/-- Executes the instruction in memory at the program counter. -/
def next (b : Batch) : Batch :=
  let e := (fetch b.state).execute b.state
  { state := e.state, drew := b.drew || e.signal == .redraw, log := b.log ++ e.log }

/-- Executes up to `n` instructions, as long as the state is not blocked. -/
def advance : Nat → Batch → Batch
  | 0, b => b
  | n + 1, b => if b.state.blocked then b else advance n (next b)

/-- Performs a command; the table plays no part in a batch. -/
def perform (m : Machine) : Command → Performed
  | .step n =>
    let b := advance n { state := m.state }
    { machine := m.withState b.state, reply := .ran b.signal, log := b.log }
  | c => m.perform c

def performAll (m : Machine) : List Command → Machine × List Reply × Log
  | [] => (m, [], #[])
  | c :: cs =>
    let p := perform m c
    let (m', replies, log) := performAll p.machine cs
    (m', p.reply :: replies, p.log ++ log)

/-- The states a batch goes through, one after each instruction. -/
def batchStates : Nat → State → List State
  | 0, _ => []
  | n + 1, s =>
    if s.blocked then []
    else
      let s' := ((fetch s).execute s).state
      s' :: batchStates n s'

/-- The states a command goes through, only one of them if it is not a batch. -/
def commandStates (m : Machine) : Command → List State
  | .step n => batchStates n m.state
  | c => [(perform m c).machine.state]

/-- The states a list of commands goes through. -/
def states (m : Machine) : List Command → List State
  | [] => []
  | c :: cs => commandStates m c ++ states (perform m c).machine cs

end Plain

/-- Commands that compile nothing: all but a reset, a load and a compilation. -/
def Command.keepsTable : Command → Bool
  | .reset _ | .load _ _ | .compile _ => false
  | _ => true

/-- The program counter is even and not in the font, and the two bytes there are those of the
memory `loaded`. -/
structure AsLoaded (loaded : Memory) (s : State) : Prop where
  even : s.pc.toNat % 2 = 0
  above_font : Font.glyphs.length ≤ s.pc.toNat % Memory.size
  high : s.memory.get s.pc.toNat = loaded.get s.pc.toNat
  low : s.memory.get (s.pc.toNat + 1) = loaded.get (s.pc.toNat + 1)

instance (loaded : Memory) (s : State) : Decidable (AsLoaded loaded s) :=
  decidable_of_iff
    (s.pc.toNat % 2 = 0 ∧ Font.glyphs.length ≤ s.pc.toNat % Memory.size ∧
      s.memory.get s.pc.toNat = loaded.get s.pc.toNat ∧
      s.memory.get (s.pc.toNat + 1) = loaded.get (s.pc.toNat + 1))
    ⟨fun ⟨even, font, high, low⟩ => ⟨even, font, high, low⟩,
      fun h => ⟨h.even, h.above_font, h.high, h.low⟩⟩

/-! ## The table after a load -/

namespace Machine

/-- The table holds the class of the word in memory at every even address above the font. -/
structure Coherent (m : Machine) : Prop where
  cursor : m.cursor % 2 = 0
  table : ∀ a, a % 2 = 0 → Font.glyphs.length ≤ a % Memory.size →
    m.table.get a = .ofWord (m.state.memory.word a)

theorem coherent_reset (m : Machine) (entropy : Entropy) : (m.reset entropy).Coherent := by
  have hcursor : (m.reset entropy).cursor = 0x200 := rfl
  refine ⟨by rw [hcursor], fun a ha hfont => ?_⟩
  have hnext : Font.glyphs.length ≤ (a + 1) % Memory.size := by
    simp only [Memory.size] at hfont ⊢
    omega
  have hword : Memory.initial.word a = 0 := by
    rw [Memory.word, Memory.get_initial hfont, Memory.get_initial hnext]
    rfl
  show (Bank.fill 4096 Instruction.illegal).get a = .ofWord (Memory.initial.word a)
  rw [Bank.get_fill, hword, Instruction.ofWord_zero]

theorem Coherent.compile {m : Machine} (h : m.Coherent) (w : UInt16) : (m.compile w).Coherent := by
  refine ⟨by rw [cursor_compile, h.cursor], fun a ha hfont => ?_⟩
  show (m.table.set m.cursor _).get a =
    .ofWord (Memory.word (m.state.memory.write m.cursor (bytes w)) a)
  by_cases hac : m.cursor % 4096 = a % 4096
  · rw [Bank.get_set, if_pos hac, Memory.word_congr _ hac.symm, Memory.word_write_bytes]
  · rw [Bank.get_set_of_ne _ _ hac, h.table a ha hfont,
      Memory.word_write_bytes_of_ne _ _ (by rw [ha, h.cursor]) hac]

theorem Coherent.compileAll {m : Machine} (h : m.Coherent) (ws : List UInt16) :
    (ws.foldl Machine.compile m).Coherent := by
  induction ws generalizing m with
  | nil => exact h
  | cons w ws ih => exact ih (h.compile w)

theorem coherent_of_load {m₀ m : Machine} {program : List UInt8} {entropy : Entropy}
    (h : m₀.load program entropy = .ok m) : m.Coherent := by
  obtain ⟨-, rfl⟩ := load_eq_ok_iff.1 h
  exact (m₀.coherent_reset entropy).compileAll _

/-- Where memory is as it was when the table was coherent, the table and memory give the same
instruction. -/
theorem Coherent.fetch_eq {l m : Machine} (h : l.Coherent) (htable : m.table = l.table)
    (hs : AsLoaded l.state.memory m.state) :
    m.instructionAt m.state.pc.toNat = Plain.fetch m.state := by
  rw [instructionAt, htable, h.table _ hs.even hs.above_font, Plain.fetch,
    Memory.word_eq_of_get hs.high hs.low]

theorem table_perform {c : Command} (hc : c.keepsTable = true) (m : Machine) :
    (m.perform c).machine.table = m.table := by
  cases c with
  | reset _ | load _ _ | compile _ => cases hc
  | press k | release k => cases k <;> rfl
  | _ => rfl

end Machine

/-! ## Runs -/

namespace Plain

open Machine

/-- The instruction at the program counter is the same in the table and in memory. -/
def Agrees (m : Machine) : Prop := m.instructionAt m.state.pc.toNat = fetch m.state

theorem next_eq {m : Machine} {b : Batch} (h : Agrees (m.withState b.state)) :
    next b = b.next m.table := by
  have hf : m.table.get b.state.pc.toNat = fetch b.state := h
  rw [next, Batch.next, hf]

theorem advance_eq {m : Machine} {n : Nat} {b : Batch}
    (h : ∀ e ∈ (m.withState b.state).batchEvents n, Agrees e.machine) :
    advance n b = b.advance m.table n := by
  induction n generalizing b with
  | zero => rfl
  | succ n ih =>
    rw [advance, Batch.advance]
    split
    · rfl
    · next hb =>
      have hrun : (m.withState b.state).state.blocked = false := by simpa [withState] using hb
      rw [batchEvents, if_neg (by simp [hrun]), List.forall_mem_cons, after_execution] at h
      obtain ⟨hfirst, hrest⟩ := h
      rw [next_eq (m := m) hfirst]
      exact ih hrest

theorem batchStates_eq {m : Machine} {n : Nat} (h : ∀ e ∈ m.batchEvents n, Agrees e.machine) :
    batchStates n m.state = (m.batchEvents n).map fun e => e.after.state := by
  induction n generalizing m with
  | zero => rfl
  | succ n ih =>
    rw [batchStates, batchEvents] at *
    split
    · rfl
    · next hb =>
      rw [if_neg hb, List.forall_mem_cons] at h
      obtain ⟨hfirst, hrest⟩ := h
      have hf : m.instructionAt m.state.pc.toNat = fetch m.state := hfirst
      have hafter : m.execution.after.state = ((fetch m.state).execute m.state).state := by
        rw [← hf]
        rfl
      rw [List.map_cons, ← ih hrest, hafter]

/-- The events of a command are executions in which table and memory agree, or no batch. -/
def AgreesOn (es : List Event) : Prop := ∀ e ∈ es, ∀ i, e.move = .execute i → Agrees e.machine

theorem AgreesOn.batch {m : Machine} {n : Nat} (h : AgreesOn (m.batchEvents n)) :
    ∀ e ∈ m.batchEvents n, Agrees e.machine := by
  intro e he
  obtain ⟨i, hi⟩ := exists_execute_of_mem_batchEvents he
  exact h e he i hi

theorem perform_eq {m : Machine} {c : Command} (h : AgreesOn (m.commandEvents c)) :
    perform m c = m.perform c := by
  cases c with
  | step n =>
    have hb : advance n { state := m.state } = m.run n := advance_eq h.batch
    rw [perform, hb]
    rfl
  | _ => rfl

theorem performAll_eq {m : Machine} {cs : List Command} (h : AgreesOn (m.events cs)) :
    performAll m cs = m.performAll cs := by
  induction cs generalizing m with
  | nil => rfl
  | cons c cs ih =>
    obtain ⟨hfirst, hrest⟩ := List.forall_mem_append.1 h
    rw [performAll, perform_eq hfirst, ih hrest]
    rfl

theorem commandStates_eq {m : Machine} {c : Command} (h : AgreesOn (m.commandEvents c)) :
    commandStates m c = (m.commandEvents c).map fun e => e.after.state := by
  cases c with
  | step n => exact batchStates_eq h.batch
  | _ => rfl

theorem states_eq {m : Machine} {cs : List Command} (h : AgreesOn (m.events cs)) :
    states m cs = (m.events cs).map fun e => e.after.state := by
  induction cs generalizing m with
  | nil => rfl
  | cons c cs ih =>
    obtain ⟨hfirst, hrest⟩ := List.forall_mem_append.1 h
    rw [states, events, List.map_append, perform_eq hfirst, commandStates_eq hfirst, ih hrest]

end Plain

namespace Machine

theorem table_of_mem_batchEvents {m : Machine} {n : Nat} {e : Event} (h : e ∈ m.batchEvents n) :
    e.machine.table = m.table := by
  induction n generalizing m with
  | zero => cases h
  | succ n ih =>
    rw [batchEvents] at h
    split at h
    · cases h
    · rcases List.mem_cons.1 h with rfl | h
      · rfl
      · have hrest : e.machine.table = m.execution.after.table := ih h
        exact hrest

theorem table_of_mem_commandEvents {m : Machine} {c : Command} {e : Event}
    (h : e ∈ m.commandEvents c) : e.machine.table = m.table := by
  cases c with
  | step n => exact table_of_mem_batchEvents h
  | _ => rw [List.mem_singleton.1 h]

/-- Commands that compile nothing run with one table throughout. -/
theorem table_of_mem_events {m : Machine} {cs : List Command}
    (hcs : ∀ c ∈ cs, c.keepsTable = true) {e : Event} (h : e ∈ m.events cs) :
    e.machine.table = m.table := by
  induction cs generalizing m with
  | nil => cases h
  | cons c cs ih =>
    obtain ⟨hc, hrest⟩ := List.forall_mem_cons.1 hcs
    rcases List.mem_append.1 h with h | h
    · exact table_of_mem_commandEvents h
    · rw [ih hrest h, table_perform hc]

end Machine

open Plain in
/-- **The table is a faithful cache.** After a successful load, a machine and the plain interpreter
take the same run through commands that compile nothing, with the same replies and log records and
the same state after each instruction, if each instruction is executed where memory is as it was
loaded. -/
theorem plain_eq_of_asLoaded {m₀ m : Machine} {program : List UInt8} {entropy : Entropy}
    {cs : List Command} (hload : m₀.load program entropy = .ok m)
    (hcs : ∀ c ∈ cs, c.keepsTable = true)
    (hrun : ∀ e ∈ m.events cs, ∀ i, e.move = .execute i →
      AsLoaded m.state.memory e.machine.state) :
    Plain.performAll m cs = m.performAll cs ∧
      Plain.states m cs = (m.events cs).map fun e => e.after.state := by
  have hagrees : AgreesOn (m.events cs) := fun e he i hi =>
    (Machine.coherent_of_load hload).fetch_eq (Machine.table_of_mem_events hcs he)
      (hrun e he i hi)
  exact ⟨performAll_eq hagrees, states_eq hagrees⟩

/-- `V0 := 5`, store it at `0x300`, and jump far beyond the program. -/
def farJump : List UInt8 := [0x60, 0x05, 0xA3, 0x00, 0xF0, 0x55, 0x14, 0x00]

/-- Bytes are written away from the program, and empty cells are executed. -/
theorem plain_eq_of_asLoaded_farJump :
    let fresh := (Machine.new (some 7) default).reset default
    let m := (Machine.words farJump).foldl Machine.compile fresh
    let cs : List Command := [.write 0x300 [1, 2], .step 4, .press (some ⟨3⟩), .tick, .step 2]
    Plain.performAll m cs = m.performAll cs ∧
      Plain.states m cs = (m.events cs).map fun e => e.after.state := by
  intro fresh m cs
  have hload : (Machine.new (some 7) default).load farJump default = .ok m :=
    Machine.load_eq_ok_iff.2 ⟨by decide, rfl⟩
  have hrun : ∀ e ∈ m.events cs, AsLoaded m.state.memory e.machine.state := by decide +kernel
  exact plain_eq_of_asLoaded hload (by decide) fun e he _ _ => hrun e he

end ChipEight
