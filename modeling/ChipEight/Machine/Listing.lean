import ChipEight.Machine
import ChipEight.Text.Hex

/-!
# Listings

A machine's memory, display and held keys as text.
-/

set_option autoImplicit false

namespace ChipEight

/-- Joins lines, each with a line feed at its end. -/
def unlines (lines : List String) : String := lines.foldl (fun text line => text ++ line ++ "\n") ""

/-- One row of the display, `#` for a lit pixel. -/
def Display.rowText (d : Display) (y : Nat) : String :=
  String.ofList ((List.range Display.width).map fun x => if d.pixel x y then '#' else '.')

/-- The display as lines of text. -/
def Display.text (d : Display) : String :=
  unlines ((List.range Display.height).map d.rowText)

/-- The names of the held keys behind a heading, or nothing if no key is held. -/
def Keypad.text (p : Keypad) : String :=
  match p.toList with
  | [] => ""
  | keys => keys.foldl (fun text k => text ++ k.name) "keys: "

namespace Machine

/-- The line for the word at address `a`: the address, the two bytes and the mnemonic of the
instruction compiled there. -/
def listingLine (m : Machine) (a : Nat) : String :=
  Hex.text 4 a ++ ": " ++ Hex.text 2 (m.state.memory.get a).toNat ++
    Hex.text 2 (m.state.memory.get (a + 1)).toNat ++ " " ++ (m.instructionAt a).mnemonic

/-- The addresses listed for the first `count` bytes above the start of programs; the listing ends
with memory. -/
def listedAddresses (count : Nat) : List Nat :=
  (List.range ((min count Memory.maxProgram + 1) / 2)).map fun j => Memory.start + 2 * j

/-- The listing of the first `count` bytes above the start of programs. -/
def listing (m : Machine) (count : Nat) : String :=
  unlines ((listedAddresses count).map m.listingLine)

end Machine

end ChipEight
