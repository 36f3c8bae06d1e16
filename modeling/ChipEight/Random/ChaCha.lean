import ChipEight.Bank

/-!
# ChaCha key stream

The ChaCha block function with twelve rounds, a 64-bit block counter and a nonce of zero. `word`
numbers the 32-bit words of the whole stream, sixteen to a block, so a place in the stream is one
natural number.
-/

set_option autoImplicit false

namespace ChipEight.ChaCha

/-- A key: eight words. -/
abbrev Key := Vector UInt32 8

/-- The sixteen words the rounds work on. -/
abbrev Block := Bank UInt32 16

def rotl (w n : UInt32) : UInt32 := (w <<< n) ||| (w >>> (32 - n))

/-- The quarter round on words `a`, `b`, `c` and `d` of a block. -/
def quarterRound (s : Block) (a b c d : Nat) : Block :=
  let a₁ := s.get a + s.get b
  let d₁ := rotl (s.get d ^^^ a₁) 16
  let c₁ := s.get c + d₁
  let b₁ := rotl (s.get b ^^^ c₁) 12
  let a₂ := a₁ + b₁
  let d₂ := rotl (d₁ ^^^ a₂) 8
  let c₂ := c₁ + d₂
  let b₂ := rotl (b₁ ^^^ c₂) 7
  (((s.set a a₂).set b b₂).set c c₂).set d d₂

/-- A round on the columns and a round on the diagonals. -/
def doubleRound (s : Block) : Block :=
  let s := quarterRound s 0 4 8 12
  let s := quarterRound s 1 5 9 13
  let s := quarterRound s 2 6 10 14
  let s := quarterRound s 3 7 11 15
  let s := quarterRound s 0 5 10 15
  let s := quarterRound s 1 6 11 12
  let s := quarterRound s 2 7 8 13
  quarterRound s 3 4 9 14

/-- The block before the rounds: four constants, the key, the block counter and a zero nonce. -/
def initialBlock (key : Key) (counter : Nat) : Block :=
  ⟨#v[0x61707865, 0x3320646e, 0x79622d32, 0x6b206574,
    key[0], key[1], key[2], key[3], key[4], key[5], key[6], key[7],
    UInt32.ofNat counter, UInt32.ofNat (counter >>> 32), 0, 0]⟩

/-- `n` double rounds. -/
def rounds : Nat → Block → Block
  | 0, s => s
  | n + 1, s => rounds n (doubleRound s)

/-- Word `k` of the key stream: word `k % 16` of block `k / 16`. -/
def word (key : Key) (k : Nat) : UInt32 :=
  let start := initialBlock key (k / 16)
  (rounds 6 start).get k + start.get k

end ChipEight.ChaCha
