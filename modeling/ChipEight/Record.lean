import ChipEight.Key
import ChipEight.Text.Hex

/-!
# Log records

What a machine and its host report while they run. A record is data; `Record.level` and
`Record.text` say how it is written.
-/

set_option autoImplicit false

namespace ChipEight

inductive Record
  /-- The machine was reset. -/
  | reset
  /-- A program of `bytes` bytes was loaded as `words` instructions. -/
  | loaded (bytes words : Nat)
  /-- A word that is no instruction was compiled at an address. -/
  | illegal (address : Nat) (word : UInt16)
  | pressed (k : Key)
  | released (k : Key)
  /-- A key wait was satisfied. -/
  | satisfied (k : Key)
  /-- The machine stopped at an address to wait for a key. -/
  | blocked (pc : UInt16)
  /-- A scripted event was applied in a frame. -/
  | scripted (frame : Nat) (k : Key) (down : Bool)
deriving DecidableEq, Repr

abbrev Log := Array Record

inductive Level
  | info
  | debug
  | trace
deriving DecidableEq, Repr

namespace Record

def level : Record → Level
  | reset | loaded _ _ | scripted _ _ _ => .debug
  | illegal _ _ | pressed _ | released _ | satisfied _ | blocked _ => .trace

def text : Record → String
  | reset => "reset"
  | loaded bytes words =>
    "loaded " ++ toString bytes ++ " bytes, compiled " ++ toString words ++ " opcodes"
  | illegal a w => Hex.text 4 a ++ ": " ++ Hex.text 4 w.toNat ++ " is not a known instruction"
  | pressed k => "key pressed: " ++ k.name
  | released k => "key released: " ++ k.name
  | satisfied k => "key wait satisfied by " ++ k.name
  | blocked pc => Hex.text 4 pc.toNat ++ ": blocked waiting for key"
  | scripted frame k down =>
    "frame " ++ toString frame ++ ": " ++ k.name ++ if down then " down" else " up"

end Record

end ChipEight
