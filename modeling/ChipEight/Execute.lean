import ChipEight.Instruction
import ChipEight.Record
import ChipEight.State

/-!
# Executing an instruction

`Instruction.execute` carries out one instruction of a known class. Its operands are the bytes of
memory at the program counter, and every instruction moves the program counter itself. An
instruction that waits for a key with none pending leaves the state alone except that the machine is
blocked.
-/

set_option autoImplicit false

namespace ChipEight

/-- What executing instructions reports to the host. -/
inductive Signal
  | nothing
  /-- The display was drawn on or cleared. -/
  | redraw
  /-- The machine waits for a key. -/
  | awaitKey
deriving DecidableEq, Repr

/-- What one instruction did. -/
structure Effect where
  state : State
  signal : Signal := .nothing
  log : Log := #[]

namespace AluOp

/-- The value for `Vx`, from the old `Vx` and `Vy`. -/
def result (op : AluOp) (a b : UInt8) : UInt8 :=
  match op with
  | move => b
  | or => a ||| b
  | and => a &&& b
  | xor => a ^^^ b
  | add => a + b
  | sub => a - b
  | shr => a >>> 1
  | subn => b - a
  | shl => a <<< 1

/-- The flag, for the operations that have one: carry, no borrow from unequal operands, or the bit
shifted out. -/
def flag? (op : AluOp) (a b : UInt8) : Option Bool :=
  match op with
  | move | or | and | xor => none
  | add => some (decide (255 < a.toNat + b.toNat))
  | sub => some (decide (b < a))
  | shr => some (a.toNat % 2 == 1)
  | subn => some (decide (a < b))
  | shl => some (decide (128 ≤ a.toNat))

end AluOp

namespace State

/-- Sets the flag register to zero or one. -/
def setFlag (s : State) (b : Bool) : State := s.setReg flag b.toUInt8

/-- Arithmetic on registers `x` and `y`. The flag is written last, so it wins where `x` is the flag
register. -/
def arith (s : State) (op : AluOp) (x y : Nat) : State :=
  let a := s.reg x
  let b := s.reg y
  let s := s.setReg x (op.result a b)
  match op.flag? a b with
  | some f => s.setFlag f
  | none => s

/-- The sprite that a draw instruction at the program counter describes. -/
def sprite (s : State) : Sprite where
  x := (s.reg (s.memory.x s.pc.toNat)).toNat
  y := (s.reg (s.memory.y s.pc.toNat)).toNat
  rows := s.memory.window s.index.toNat (s.memory.n s.pc.toNat)

end State

/-- Whether a skip condition holds for the operands at the program counter. -/
def Condition.holds (c : Condition) (s : State) : Bool :=
  let a := s.reg (s.memory.x s.pc.toNat)
  match c with
  | isByte => a == s.memory.kk s.pc.toNat
  | isNotByte => a != s.memory.kk s.pc.toNat
  | same => a == s.reg (s.memory.y s.pc.toNat)
  | differ => a != s.reg (s.memory.y s.pc.toNat)
  | keyDown => s.keypad.isHeldByte a
  | keyUp => !s.keypad.isHeldByte a

/-- The three decimal digits of a byte. -/
def decimalDigits (v : UInt8) : List UInt8 := [v / 100, v / 10 % 10, v % 10]

namespace Instruction

/-- A key wait: it takes the pending key, or blocks if there is none. -/
def executeAwaitKey (s : State) : Effect :=
  match s.pending with
  | some k =>
    let loaded := s.setReg (s.memory.x s.pc.toNat) k.toByte
    { state := { loaded with pending := none, blocked := false }.next
      log := #[.satisfied k] }
  | none =>
    { state := { s with blocked := true }
      signal := .awaitKey
      log := if s.blocked then #[] else #[.blocked s.pc] }

/-- Executes one instruction. -/
def execute (i : Instruction) (s : State) : Effect :=
  let a := s.pc.toNat
  match i with
  | illegal => { state := s.next }
  | clear => { state := { s with display := .blank }.next, signal := .redraw }
  | ret => { state := { s with pc := s.stack.top, stack := s.stack.pop } }
  | jump => { state := { s with pc := s.memory.nnn a } }
  | call => { state := { s with pc := s.memory.nnn a, stack := s.stack.push (s.pc + 2) } }
  | skip c => { state := { s with pc := s.pc + if c.holds s then 4 else 2 } }
  | loadByte => { state := (s.setReg (s.memory.x a) (s.memory.kk a)).next }
  | addByte => { state := (s.setReg (s.memory.x a) (s.reg (s.memory.x a) + s.memory.kk a)).next }
  | alu op => { state := (s.arith op (s.memory.x a) (s.memory.y a)).next }
  | loadIndex => { state := { s with index := s.memory.nnn a }.next }
  | jumpOffset => { state := { s with pc := s.memory.nnn a + (s.reg 0).toUInt16 } }
  | random =>
    { state := ({ s with random := s.random.next }.setReg (s.memory.x a)
        (s.memory.kk a &&& s.random.byte)).next }
  | draw =>
    { state := ({ s with display := s.display.draw s.sprite }.setFlag
        (s.display.collides s.sprite)).next
      signal := .redraw }
  | readDelay => { state := (s.setReg (s.memory.x a) s.delay).next }
  | awaitKey => executeAwaitKey s
  | setDelay => { state := { s with delay := s.reg (s.memory.x a) }.next }
  | setSound => { state := { s with sound := s.reg (s.memory.x a) }.next }
  | addIndex => { state := { s with index := s.index + (s.reg (s.memory.x a)).toUInt16 }.next }
  | glyph =>
    { state := { s with index := UInt16.ofNat ((s.reg (s.memory.x a)).toNat * Font.height) }.next }
  | decimal =>
    let digits := decimalDigits (s.reg (s.memory.x a))
    { state := { s with memory := s.memory.write s.index.toNat digits }.next }
  | store =>
    let values := s.registers.window 0 (s.memory.x a + 1)
    { state := { s with memory := s.memory.write s.index.toNat values }.next }
  | load =>
    let values := s.memory.window s.index.toNat (s.memory.x a + 1)
    { state := { s with registers := s.registers.write 0 values }.next }

end Instruction

end ChipEight
