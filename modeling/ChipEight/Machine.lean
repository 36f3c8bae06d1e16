import ChipEight.Error
import ChipEight.Execute
import ChipEight.Instruction.Classify

/-!
# The machine

A machine is a state together with the table of compiled instructions, the cursor where the next
one is compiled, and the seed its random generator starts from. A machine without a seed is given
entropy at every start: when it is made, when it is reset and when a program is loaded. Words are
classified once, when they are compiled; running looks the class up in the table. Memory that a
program overwrites is therefore not reclassified.

`Machine.step` runs a batch of instructions and stops when the machine blocks. `advance_add` says
that batches compose.
-/

set_option autoImplicit false

namespace ChipEight

abbrev Table := Bank Instruction 4096

structure Machine where
  state : State
  /-- The instruction compiled at each address, `Instruction.illegal` where there is none. -/
  table : Table
  /-- Where the next word is compiled. -/
  cursor : Nat
  seed : Option UInt64
deriving DecidableEq

/-- A batch of instructions under way. -/
structure Batch where
  state : State
  /-- Whether an instruction has drawn on or cleared the display. -/
  drew : Bool := false
  log : Log := #[]

namespace Batch

/-- Executes the instruction at the program counter. -/
def next (table : Table) (b : Batch) : Batch :=
  let e := (table.get b.state.pc.toNat).execute b.state
  { state := e.state, drew := b.drew || e.signal == .redraw, log := b.log ++ e.log }

/-- Executes up to `n` instructions, as long as the machine is not blocked. -/
def advance (table : Table) : Nat → Batch → Batch
  | 0, b => b
  | n + 1, b => if b.state.blocked then b else advance table n (b.next table)

/-- What the batch reports. -/
def signal (b : Batch) : Signal :=
  if b.state.blocked then .awaitKey else if b.drew then .redraw else .nothing

theorem advance_of_blocked (table : Table) (n : Nat) {b : Batch} (h : b.state.blocked = true) :
    advance table n b = b := by
  cases n with
  | zero => rfl
  | succ n => simp [advance, h]

theorem advance_add (table : Table) (m n : Nat) (b : Batch) :
    advance table (m + n) b = advance table n (advance table m b) := by
  induction m generalizing b with
  | zero => simp [advance]
  | succ m ih =>
    rw [Nat.succ_add]
    by_cases h : b.state.blocked = true
    · simp [advance_of_blocked _ _ h]
    · simp only [advance, h, Bool.false_eq_true, if_false, ih]

end Batch

namespace Machine

/-- A fresh machine, its random bytes from the seed, or from `entropy` if there is none. -/
def new (seed : Option UInt64) (entropy : Entropy) : Machine where
  state := .initial (.start seed entropy)
  table := Bank.fill 4096 .illegal
  cursor := Memory.start
  seed := seed

/-- Clears everything but the seed. Random bytes start over from the seed, or anew from `entropy` if
there is none. -/
def reset (m : Machine) (entropy : Entropy) : Machine where
  state := .initial (.start m.seed entropy)
  table := Bank.fill 4096 .illegal
  cursor := Memory.start
  seed := m.seed

/-- The two bytes of a word, the high one first. -/
def bytes (w : UInt16) : List UInt8 := [(w >>> 8).toUInt8, w.toUInt8]

/-- Writes a word to memory and its class to the table, and moves the cursor on. -/
def compile (m : Machine) (w : UInt16) : Machine :=
  { m with
    state := { m.state with memory := m.state.memory.write m.cursor (bytes w) }
    table := m.table.set m.cursor (.ofWord w)
    cursor := (m.cursor + 2) % Memory.size }

/-- The reports of compiling words one after the other from address `a` on. -/
def illegalRecords (a : Nat) : List UInt16 → List Record
  | [] => []
  | w :: ws =>
    let rest := illegalRecords ((a + 2) % Memory.size) ws
    if Instruction.ofWord w = .illegal then .illegal a w :: rest else rest

/-- The big-endian words of a program; an odd byte at the end is dropped. -/
def words : List UInt8 → List UInt16
  | hi :: lo :: rest => UInt16.ofNat (hi.toNat * 256 + lo.toNat) :: words rest
  | _ => []

/-- Resets the machine and compiles a program, or refuses one that does not fit. -/
def load (m : Machine) (program : List UInt8) (entropy : Entropy) : Except MachineError Machine :=
  if program.length ≤ Memory.maxProgram then .ok ((words program).foldl compile (m.reset entropy))
  else .error (.programTooLarge program.length)

/-- The reports of a successful load. -/
def loadRecords (program : List UInt8) : List Record :=
  .reset :: illegalRecords Memory.start (words program) ++
    [.loaded program.length (program.length / 2)]

/-- Runs up to `n` instructions. -/
def run (m : Machine) (n : Nat) : Batch := Batch.advance m.table n { state := m.state }

/-- A blocked machine executes nothing. -/
theorem run_of_blocked {m : Machine} (h : m.state.blocked = true) (n : Nat) :
    m.run n = { state := m.state } :=
  Batch.advance_of_blocked m.table n (b := { state := m.state }) h

/-- The machine with another state. -/
def withState (m : Machine) (s : State) : Machine := { m with state := s }

/-- The machine after a batch of up to `n` instructions. -/
def step (m : Machine) (n : Nat) : Machine := m.withState (m.run n).state

def tick (m : Machine) : Machine := m.withState m.state.tick

def press (m : Machine) (k : Key) : Machine := m.withState (m.state.press k)

def release (m : Machine) (k : Key) : Machine := m.withState (m.state.release k)

/-- The instruction in the table at an address. -/
def instructionAt (m : Machine) (a : Nat) : Instruction := m.table.get a

/-- Whether the host's buzzer should sound. -/
def buzzing (m : Machine) : Bool := m.state.sound != 0

theorem load_eq_ok_iff {m m' : Machine} {program : List UInt8} {entropy : Entropy} :
    m.load program entropy = .ok m' ↔
      program.length ≤ Memory.maxProgram ∧
        m' = (words program).foldl compile (m.reset entropy) := by
  unfold load
  split
  · next h => simp [h, eq_comm]
  · next h => simp [h]

end Machine

end ChipEight
