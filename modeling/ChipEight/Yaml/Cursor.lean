/-!
# Text cursors

The character classes of YAML, and a cursor that knows the line and column of the text that is
left. Line ends are made uniform before reading (`uniform`), so that a line break is one character.

A text is read in blocks, and a block that holds a character no text may hold cannot be read. The
mark `unreadable` stands in its place (`readable`), and nothing can be read that needs to look at
it.
-/

set_option autoImplicit false

namespace ChipEight.Yaml

/-- The byte order mark. -/
def byteOrderMark : Char := '\ufeff'

/-- Whether a text may hold a character at all. -/
def isAllowed (c : Char) : Bool :=
  let n := c.toNat
  c == '\t' || c == '\n' || c == '\r' || (0x20 ≤ n && n ≤ 0x7E) || n == 0x85 ||
    (0xA0 ≤ n && n ≤ 0xFFFD) || 0x10000 ≤ n

/-- Stands where a text cannot be read any further. No text may hold this character itself. -/
def unreadable : Char := '\x00'

/-- The most bytes that a block of text has. -/
def blockSize : Nat := 16384

/-- The number of characters in front of the first block that cannot be read, if there is one. The
list is what is left of a text from character number `index` on, in a block that began at character
`start` and has `used` bytes so far. -/
def blockedAt? (index start used : Nat) : List Char → Option Nat
  | [] => none
  | c :: cs =>
    let fits := used + c.utf8Size ≤ blockSize
    let start := if fits then start else index
    let used := if fits then used else 0
    if isAllowed c then blockedAt? (index + 1) start (used + c.utf8Size) cs else some start

/-- The text up to the first block that cannot be read, which leaves a mark. -/
def readable (cs : List Char) : List Char :=
  match blockedAt? 0 0 0 cs with
  | none => cs
  | some count => cs.take count ++ [unreadable]

/-- The text with one line feed for each carriage return, next-line character, or pair of carriage
return and line feed. -/
def uniform : List Char → List Char
  | '\r' :: '\n' :: cs => '\n' :: uniform cs
  | '\r' :: cs => '\n' :: uniform cs
  | '\u0085' :: cs => '\n' :: uniform cs
  | c :: cs => c :: uniform cs
  | [] => []

def isBlank (c : Char) : Bool := c == ' ' || c == '\t'

/-- Whether a character ends a line: a line feed, or the line or paragraph separator. -/
def isBreak (c : Char) : Bool := c == '\n' || c == '\u2028' || c == '\u2029'

def isSpace (c : Char) : Bool := isBlank c || isBreak c

/-- Whether a text is empty or begins with a blank or a line break. -/
def endsWord : List Char → Bool
  | [] => true
  | c :: _ => isSpace c

/-- What is left to read, and where it stands. -/
structure Cursor where
  rest : List Char
  line : Nat := 0
  column : Nat := 0

namespace Cursor

/-- Moves past one character. -/
def skip (c : Cursor) : Cursor :=
  match c.rest with
  | [] => c
  | a :: rest =>
    if isBreak a then { rest := rest, line := c.line + 1 }
    else { c with rest := rest, column := c.column + 1 }

/-- Moves past `n` characters. -/
def skipMany (c : Cursor) : Nat → Cursor
  | 0 => c
  | n + 1 => c.skip.skipMany n

@[simp] theorem rest_skip (c : Cursor) : c.skip.rest = c.rest.drop 1 := by
  unfold skip
  split
  · next h => simp [h]
  · next h => split <;> simp [h]

@[simp] theorem rest_skipMany (c : Cursor) (n : Nat) : (c.skipMany n).rest = c.rest.drop n := by
  induction n generalizing c with
  | zero => rfl
  | succ n ih => rw [skipMany, ih, rest_skip, List.drop_drop, Nat.add_comm]

/-- Whether the next `n` characters can be read, as far as there are so many. -/
def sees (c : Cursor) (n : Nat) : Bool := !(c.rest.take n).contains unreadable

/-- Whether the line is a marker between documents made of the character `mark`. -/
def atMarker (c : Cursor) (mark : Char) : Bool :=
  match c.rest with
  | x :: y :: z :: rest =>
    c.column == 0 && x == mark && y == mark && z == mark && endsWord rest
  | _ => false

/-- Whether a document ends here. -/
def atDocumentMarker (c : Cursor) : Bool := c.atMarker '-' || c.atMarker '.'

end Cursor

/-- The blanks and line breaks in front of a text. -/
def gap (cs : List Char) : List Char := cs.takeWhile isSpace

/-- The text that a gap inside a scalar stands for. Blanks within a line stay. A single line break
becomes a blank, and of several the first is dropped. -/
def fold (gap : List Char) : List Char :=
  match gap.filter isBreak with
  | [] => gap
  | ['\n'] => [' ']
  | '\n' :: breaks => breaks
  | breaks => breaks

end ChipEight.Yaml
