import ChipEight.Key

/-!
# Settings of a run

How many frames to run, how fast, from which seed, and which keys to press when.
-/

set_option autoImplicit false

namespace ChipEight

/-- A key that goes down or up at the beginning of a frame. -/
structure ScriptedKey where
  frame : UInt64
  key : Key
  pressed : Bool
deriving DecidableEq, Repr

/-- The key as a debug message shows it, its code in upper case. -/
def Key.debugText (k : Key) : String := "Key".push (Nat.digitChar k.code).toUpper

/-- The event as a debug message shows it. -/
def ScriptedKey.debugText (e : ScriptedKey) : String :=
  "KeyEvent \x7b frame: " ++ toString e.frame.toNat ++ ", key: " ++ e.key.debugText ++
    ", pressed: " ++ toString e.pressed ++ " \x7d"

structure Settings where
  frames : UInt64 := 600
  stepsPerFrame : UInt64 := 10
  /-- Whether frames keep pace with the clock. -/
  throttle : Bool := true
  seed : Option UInt64 := none
  keys : List ScriptedKey := []
deriving DecidableEq, Repr

/-- The settings as a debug message shows them. -/
def Settings.debugText (s : Settings) : String :=
  "CliConf \x7b frames: " ++ toString s.frames.toNat ++
    ", steps_per_frame: " ++ toString s.stepsPerFrame.toNat ++
    ", throttle: " ++ toString s.throttle ++
    ", rng_seed: " ++ s.seed.elim "None" (fun n => "Some(" ++ toString n.toNat ++ ")") ++
    ", keys: [" ++ ", ".intercalate (s.keys.map ScriptedKey.debugText) ++ "] \x7d"

/-- The events of a frame, in the order in which they are listed. -/
def Settings.scriptAt (s : Settings) (frame : Nat) : List ScriptedKey :=
  s.keys.filter fun e => e.frame.toNat = frame

end ChipEight
