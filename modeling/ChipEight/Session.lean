import ChipEight.Machine.Command
import ChipEight.Settings

/-!
# Scripted sessions

Running a machine frame by frame: the key events of the frame, a tick of the timers, a batch of
instructions, and a pause at its end. `playFrame` is one frame and `run` the whole session, in any
monad that can pause.
-/

set_option autoImplicit false

namespace ChipEight

/-- A machine and the log records of the session so far. -/
structure Session where
  machine : Machine
  log : Log := #[]

namespace Session

def perform (s : Session) (c : Command) : Session :=
  let p := s.machine.perform c
  { machine := p.machine, log := s.log ++ p.log }

/-- Reports a scripted key event and applies it. -/
def apply (s : Session) (frame : Nat) (e : ScriptedKey) : Session :=
  let s := { s with log := s.log.push (.scripted frame e.key e.pressed) }
  s.perform (if e.pressed then .press (some e.key) else .release (some e.key))

/-- One frame, up to its pause. -/
def playFrame (settings : Settings) (frame : Nat) (s : Session) : Session :=
  let s := (settings.scriptAt frame).foldl (fun s e => s.apply frame e) s
  (s.perform .tick).perform (.step settings.stepsPerFrame.toNat)

variable {μ : Type → Type} [Monad μ]

/-- Plays `count` frames, the first of them with number `frame`. -/
def playFrom (settings : Settings) (pause : μ Unit) (frame : Nat) : Nat → Session → μ Session
  | 0, s => pure s
  | count + 1, s => do
    let s := s.playFrame settings frame
    pause
    playFrom settings pause (frame + 1) count s

/-- Plays all frames. -/
def play (settings : Settings) (pause : μ Unit) (m : Machine) : μ Session :=
  playFrom settings pause 0 settings.frames.toNat { machine := m }

/-- Plays all frames and tells how many there were. -/
def run (settings : Settings) (pause : μ Unit) (m : Machine) : μ (Session × UInt64) := do
  let s ← play settings pause m
  pure (s, settings.frames)

end Session

end ChipEight
