import ChipEight.Bank

/-!
# Display

A screen of 64 by 32 pixels that wraps around at its edges. A sprite is drawn by exclusive or, row
by row.
-/

set_option autoImplicit false

namespace ChipEight

/-- The screen as 32 rows; the leftmost pixel is a row's most significant bit. -/
structure Display where
  rows : Bank (BitVec 64) 32
deriving DecidableEq

/-- Rows of eight pixels, to be drawn with the upper left corner at `(x, y)`. -/
structure Sprite where
  x : Nat
  y : Nat
  rows : List UInt8
deriving DecidableEq, Repr

namespace Display

def width : Nat := 64

def height : Nat := 32

/-- No pixel is lit. -/
def blank : Display := ⟨Bank.fill 32 0#64⟩

/-- Whether the pixel in column `x` and row `y` is lit. -/
def pixel (d : Display) (x y : Nat) : Bool := (d.rows.get y).getMsbD (x % 64)

/-- The eight pixels of a byte as a screen row, the first of them in column `x`. -/
def stripe (b : UInt8) (x : Nat) : BitVec 64 := (b.toBitVec ++ 0#56).rotateRight (x % 64)

/-- Exclusive or of stripes at column `x` into the rows from `y` on. -/
def flipRows (rows : Bank (BitVec 64) 32) (x y : Nat) : List UInt8 → Bank (BitVec 64) 32
  | [] => rows
  | b :: bs => flipRows (rows.set y (rows.get y ^^^ stripe b x)) x (y + 1) bs

/-- Draws a sprite: every pixel it covers changes. -/
def draw (d : Display) (s : Sprite) : Display := ⟨flipRows d.rows s.x s.y s.rows⟩

/-- Whether one of the stripes at column `x` in the rows from `y` on covers a lit pixel. -/
def overlaps (d : Display) (x y : Nat) : List UInt8 → Bool
  | [] => false
  | b :: bs => d.rows.get y &&& stripe b x != 0#64 || overlaps d x (y + 1) bs

/-- Whether a sprite covers a lit pixel, so that drawing it erases one. -/
def collides (d : Display) (s : Sprite) : Bool := d.overlaps s.x s.y s.rows

end Display

end ChipEight
