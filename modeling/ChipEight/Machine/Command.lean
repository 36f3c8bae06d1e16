import ChipEight.Machine

/-!
# Commands

Everything a host can do to a machine, as data. `Machine.perform` carries out one command and
`Machine.performAll` a whole history; both return what the host is told and the log records made.
Commands that start the random generator again carry the entropy that a machine without a seed takes
it from, so a history determines the machine it leads to.
-/

set_option autoImplicit false

namespace ChipEight

inductive Command
  | reset (entropy : Entropy)
  | load (program : List UInt8) (entropy : Entropy)
  | compile (word : UInt16)
  | step (count : Nat)
  | tick
  /-- A key went down; `none` stands for no key and does nothing. -/
  | press (key : Option Key)
  /-- A key went up; `none` does nothing. -/
  | release (key : Option Key)
  | setRegister (x : Nat) (value : UInt8)
  | setIndex (value : UInt16)
  | setDelay (value : UInt8)
  /-- Writes bytes to memory without compiling them. -/
  | write (address : Nat) (data : List UInt8)
deriving DecidableEq, Repr

/-- What the host is told. -/
inductive Reply
  | done
  | ran (signal : Signal)
  | refused (error : MachineError)
deriving DecidableEq, Repr

structure Performed where
  machine : Machine
  reply : Reply := .done
  log : Log := #[]

namespace Machine

def perform (m : Machine) : Command → Performed
  | .reset entropy => { machine := m.reset entropy, log := #[.reset] }
  | .load program entropy =>
    match m.load program entropy with
    | .ok m => { machine := m, log := (loadRecords program).toArray }
    | .error e => { machine := m, reply := .refused e }
  | .compile w => { machine := m.compile w, log := (illegalRecords m.cursor [w]).toArray }
  | .step n =>
    let b := m.run n
    { machine := m.withState b.state, reply := .ran b.signal, log := b.log }
  | .tick => { machine := m.tick }
  | .press none | .release none => { machine := m }
  | .press (some k) => { machine := m.press k, log := #[.pressed k] }
  | .release (some k) => { machine := m.release k, log := #[.released k] }
  | .setRegister x v => { machine := m.withState (m.state.setReg x v) }
  | .setIndex a => { machine := m.withState { m.state with index := a } }
  | .setDelay v => { machine := m.withState { m.state with delay := v } }
  | .write a data =>
    { machine := m.withState { m.state with memory := m.state.memory.write a data } }

/-- Performs commands in order. The replies are in the same order, and the log is one after the
other. -/
def performAll (m : Machine) : List Command → Machine × List Reply × Log
  | [] => (m, [], #[])
  | c :: cs =>
    let p := m.perform c
    let (m', replies, log) := p.machine.performAll cs
    (m', p.reply :: replies, p.log ++ log)

end Machine

end ChipEight
