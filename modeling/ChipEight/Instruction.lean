/-!
# Instructions

The classes of instruction the machine distinguishes. A class carries no operands: those are read
from memory each time an instruction runs (`Memory.x`, `Memory.kk`, ...). The eight-bit arithmetic
instructions share one class, `Instruction.alu`, and the conditional skips another,
`Instruction.skip`.
-/

set_option autoImplicit false

namespace ChipEight

/-- The operations of `8xy_` on two registers. -/
inductive AluOp
  | move
  | or
  | and
  | xor
  | add
  | sub
  | shr
  | subn
  | shl
deriving DecidableEq, Repr

/-- What a conditional skip tests. -/
inductive Condition
  /-- `3xkk`: `Vx` is the byte `kk`. -/
  | isByte
  /-- `4xkk`: `Vx` is not the byte `kk`. -/
  | isNotByte
  /-- `5xy0`: `Vx` and `Vy` are equal. -/
  | same
  /-- `9xy0`: `Vx` and `Vy` differ. -/
  | differ
  /-- `Ex9E`: the key in `Vx` is down. -/
  | keyDown
  /-- `ExA1`: the key in `Vx` is up. -/
  | keyUp
deriving DecidableEq, Repr

/-- A class of instruction. -/
inductive Instruction
  /-- Any word with no other meaning; it does nothing. -/
  | illegal
  /-- `00E0`: clear the display. -/
  | clear
  /-- `00EE`: return from a subroutine. -/
  | ret
  /-- `1nnn`: jump. -/
  | jump
  /-- `2nnn`: call a subroutine. -/
  | call
  /-- Skip the next instruction on a condition. -/
  | skip (c : Condition)
  /-- `6xkk`: `Vx` becomes `kk`. -/
  | loadByte
  /-- `7xkk`: add `kk` to `Vx`, no flag. -/
  | addByte
  /-- `8xy_`: arithmetic on `Vx` and `Vy`. -/
  | alu (op : AluOp)
  /-- `Annn`: the index register becomes `nnn`. -/
  | loadIndex
  /-- `Bnnn`: jump to `nnn` plus `V0`. -/
  | jumpOffset
  /-- `Cxkk`: `Vx` becomes a random byte masked by `kk`. -/
  | random
  /-- `Dxyn`: draw a sprite of `n` rows at `(Vx, Vy)`. -/
  | draw
  /-- `Fx07`: `Vx` becomes the delay timer. -/
  | readDelay
  /-- `Fx0A`: wait for a key press and put the key into `Vx`. -/
  | awaitKey
  /-- `Fx15`: the delay timer becomes `Vx`. -/
  | setDelay
  /-- `Fx18`: the sound timer becomes `Vx`. -/
  | setSound
  /-- `Fx1E`: add `Vx` to the index register. -/
  | addIndex
  /-- `Fx29`: the index register points to the glyph of the digit in `Vx`. -/
  | glyph
  /-- `Fx33`: store the three decimal digits of `Vx`. -/
  | decimal
  /-- `Fx55`: store `V0` to `Vx`. -/
  | store
  /-- `Fx65`: load `V0` to `Vx`. -/
  | load
deriving DecidableEq, Repr

/-- Mnemonic and operand pattern of an arithmetic operation. -/
def AluOp.mnemonic : AluOp → String
  | .move => "LD Vx, Vy"
  | .or => "OR Vx, Vy"
  | .and => "AND Vx, Vy"
  | .xor => "XOR Vx, Vy"
  | .add => "ADD Vx, Vy"
  | .sub => "SUB Vx, Vy"
  | .shr => "SHR Vx"
  | .subn => "SUBN Vx, Vy"
  | .shl => "SHL Vx"

/-- Mnemonic and operand pattern of a conditional skip. -/
def Condition.mnemonic : Condition → String
  | .isByte => "SE Vx, byte"
  | .isNotByte => "SNE Vx, byte"
  | .same => "SE Vx, Vy"
  | .differ => "SNE Vx, Vy"
  | .keyDown => "SKP Vx"
  | .keyUp => "SKNP Vx"

/-- Mnemonic and operand pattern. -/
def Instruction.mnemonic : Instruction → String
  | .illegal => "???"
  | .clear => "CLS"
  | .ret => "RET"
  | .jump => "JP addr"
  | .call => "CALL addr"
  | .skip c => c.mnemonic
  | .loadByte => "LD Vx, byte"
  | .addByte => "ADD Vx, byte"
  | .alu op => op.mnemonic
  | .loadIndex => "LD I, addr"
  | .jumpOffset => "JP V0, addr"
  | .random => "RND Vx, byte"
  | .draw => "DRW Vx, Vy, nibble"
  | .readDelay => "LD Vx, DT"
  | .awaitKey => "LD Vx, K"
  | .setDelay => "LD DT, Vx"
  | .setSound => "LD ST, Vx"
  | .addIndex => "ADD I, Vx"
  | .glyph => "LD F, Vx"
  | .decimal => "LD B, Vx"
  | .store => "LD [I], Vx"
  | .load => "LD Vx, [I]"

end ChipEight
