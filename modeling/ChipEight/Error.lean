import ChipEight.Memory

/-!
# Machine errors

The ways in which a machine refuses a request, and their wording.
-/

set_option autoImplicit false

namespace ChipEight

inductive MachineError
  /-- A program of this many bytes does not fit into memory. -/
  | programTooLarge (size : Nat)
  /-- A listing could not be written. -/
  | format
deriving DecidableEq, Repr

def MachineError.message : MachineError → String
  | programTooLarge size =>
    "program of " ++ toString size ++ " bytes is too large for VM memory, maximum is " ++
      toString Memory.maxProgram
  | format => "an error occurred when formatting an argument"

end ChipEight
