/-!
# Pace

How long a frame lasts.
-/

set_option autoImplicit false

namespace ChipEight.Pace

/-- Frames, and ticks of the timers, in a second. -/
def frameRate : UInt64 := 60

def nanosInSecond : Nat := 1000000000

/-- The nanoseconds between two events of a frequency in hertz. Frequency zero has no pause. -/
def interval (hertz : UInt64) : Nat := if hertz = 0 then 0 else nanosInSecond / hertz.toNat

end ChipEight.Pace
