import ChipEight.CommandLine
import ChipEight.Pace

/-!
# Program

The command line on real files, with a clock and entropy from the system, and without a log.
-/

set_option autoImplicit false

namespace ChipEight

/-- Starts a clock. Time spent on a frame counts towards its length, and a frame that took longer
is not made up for. -/
def startClock : IO (IO Unit) := do
  let start ← IO.mkRef (← IO.monoNanosNow)
  pure do
    let left := Pace.interval Pace.frameRate - ((← IO.monoNanosNow) - (← start.get))
    if 0 < left then IO.sleep (UInt32.ofNat (left / 1000000 + 1))
    start.set (← IO.monoNanosNow)

/-- A key from 32 random bytes, four of them to a word, the low one first. -/
def drawEntropy : IO Entropy := do
  let bytes := (← IO.getRandomBytes 32).data
  pure (Vector.ofFn fun i =>
    (List.range 4).foldr (fun k w => w * 256 + (bytes.getD (4 * i + k) 0).toUInt32) 0)

def systemHost : Host IO where
  read file := do
    try pure (some (← IO.FS.readBinFile file))
    catch _ => pure none
  yaml := .ofText
  entropy := drawEntropy
  clock := startClock
  logged _ _ := ""

end ChipEight

def main (args : List String) : IO UInt32 := do
  let outcome ← ChipEight.CommandLine.run ChipEight.systemHost args
  IO.print outcome.stdout
  if let some e := outcome.failure then IO.eprintln e.message
  pure outcome.exitCode.toUInt32
