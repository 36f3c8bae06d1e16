import ChipEight.Instruction

/-!
# Classifying words

`Instruction.ofWord` gives the class of every sixteen-bit word. The high digit picks a family; the
families `0`, `8`, `E` and `F` look at the low byte or the low digit as well, `5` and `9` ask for a
low digit of zero, and a word that fits nowhere is `Instruction.illegal`.
-/

set_option autoImplicit false

namespace ChipEight.Instruction

/-- The arithmetic operation with low digit `d`. -/
def ofAluDigit (d : Nat) : Instruction :=
  match d with
  | 0x0 => .alu .move
  | 0x1 => .alu .or
  | 0x2 => .alu .and
  | 0x3 => .alu .xor
  | 0x4 => .alu .add
  | 0x5 => .alu .sub
  | 0x6 => .alu .shr
  | 0x7 => .alu .subn
  | 0xE => .alu .shl
  | _ => .illegal

/-- The instruction of family `F` with low byte `b`. -/
def ofMiscByte (b : Nat) : Instruction :=
  match b with
  | 0x07 => .readDelay
  | 0x0A => .awaitKey
  | 0x15 => .setDelay
  | 0x18 => .setSound
  | 0x1E => .addIndex
  | 0x29 => .glyph
  | 0x33 => .decimal
  | 0x55 => .store
  | 0x65 => .load
  | _ => .illegal

/-- The class of a word. -/
def ofWord (w : UInt16) : Instruction :=
  let digit := w.toNat % 0x10
  let byte := w.toNat % 0x100
  match w.toNat / 0x1000 with
  | 0x0 => if w = 0x00E0 then .clear else if w = 0x00EE then .ret else .illegal
  | 0x1 => .jump
  | 0x2 => .call
  | 0x3 => .skip .isByte
  | 0x4 => .skip .isNotByte
  | 0x5 => if digit = 0 then .skip .same else .illegal
  | 0x6 => .loadByte
  | 0x7 => .addByte
  | 0x8 => ofAluDigit digit
  | 0x9 => if digit = 0 then .skip .differ else .illegal
  | 0xA => .loadIndex
  | 0xB => .jumpOffset
  | 0xC => .random
  | 0xD => .draw
  | 0xE => if byte = 0x9E then .skip .keyDown else if byte = 0xA1 then .skip .keyUp else .illegal
  | _ => ofMiscByte byte

/-- A cleared cell holds no instruction. -/
theorem ofWord_zero : ofWord 0 = .illegal := rfl

end ChipEight.Instruction
