import ChipEight.Mismatch
import ChipEight.Settings
import ChipEight.Yaml.Node
import ChipEight.Yaml.Value

/-!
# Decoding settings

Settings from a YAML document, as any reader presents it. The fields of a mapping are read in the
order in which they stand, and the first fault is reported with its place in the document. A
document that breaks off is malformed; a fault of type that stands before that place is reported
instead.
-/

set_option autoImplicit false

namespace ChipEight

/-- A step from a node to a part of it. -/
inductive PathStep
  | field (name : String)
  | item (index : Nat)
deriving DecidableEq, Repr

/-- The way from the root of a document to a node. -/
abbrev Path := List PathStep

def Path.text (p : Path) : String :=
  p.foldl
    (fun text step =>
      match step with
      | .field name => if text.isEmpty then name else text ++ "." ++ name
      | .item index => text ++ "[" ++ toString index ++ "]")
    ""

inductive SettingsError
  /-- The text is not a YAML document. -/
  | malformed
  /-- A value is not what it should be. -/
  | mismatch (path : Path) (m : Mismatch)
deriving DecidableEq, Repr

def SettingsError.text : SettingsError → String
  | malformed => "malformed document"
  | mismatch [] m => m.text
  | mismatch path m => Path.text path ++ ": " ++ m.text

abbrev Decoded (α : Type) := Except SettingsError α

namespace Settings

open Yaml (Node Scalar)

/-- Reports that a node is not of the expected type. -/
def wrongType {α : Type} (path : Path) (n : Node) (expected : String) : Decoded α :=
  match n with
  | .scalar s => .error (.mismatch path (.type s.found expected))
  | .sequence _ => .error (.mismatch path (.type .sequence expected))
  | .mapping _ => .error (.mismatch path (.type .mapping expected))
  | .cut => .error .malformed

/-- A whole number of 64 bits. -/
def decodeWord (expected : String) (path : Path) (n : Node) : Decoded UInt64 :=
  match n with
  | .scalar s =>
    match s.value with
    | .natural k => if k < 1 <<< 64 then .ok (UInt64.ofNat k) else wrongType path n expected
    | _ => wrongType path n expected
  | _ => wrongType path n expected

/-- A count of frames or steps. -/
def decodeCount : Path → Node → Decoded UInt64 := decodeWord "usize"

/-- A seed, or none. -/
def decodeSeed (path : Path) (n : Node) : Decoded (Option UInt64) :=
  match n with
  | .scalar s =>
    match s.value with
    | .empty | .null => .ok none
    | _ => (decodeWord "u64" path n).map some
  | _ => (decodeWord "u64" path n).map some

def decodeFlag (path : Path) (n : Node) : Decoded Bool :=
  match n with
  | .scalar s =>
    match s.value with
    | .boolean b => .ok b
    | _ => wrongType path n "a boolean"
  | _ => wrongType path n "a boolean"

/-- The integer of 64 bits that a node stands for, if it does. -/
def signed? (n : Node) : Option Int64 :=
  match n with
  | .scalar s =>
    match s.value with
    | .natural k => if k < 1 <<< 63 then some (Int64.ofNat k) else none
    | .negative k => if k ≤ 1 <<< 63 then some (Int64.ofInt (-k)) else none
    | _ => none
  | _ => none

def decodeKey (path : Path) (n : Node) : Decoded Key :=
  match signed? n with
  | some v => (Key.ofInt64 v).mapError (.mismatch path)
  | none => wrongType path n Key.expectation

/-- Reads the entries of a mapping in order. An unknown field may have any value. -/
def decodeEntries {σ : Type} (path : Path) (field : σ → String → Option (Node → Decoded σ)) :
    List (Node × Node) → σ → Decoded σ
  | [], s => .ok s
  | (.scalar k, v) :: entries, s =>
    match field s k.text with
    | some read => do decodeEntries path field entries (← read v)
    | none => if v.isWhole then decodeEntries path field entries s else .error .malformed
  | (k, _) :: _, _ => wrongType path k "field identifier"

/-- Reads the entries of a mapping; an empty value has none. -/
def decodeMapping {σ : Type} (path : Path) (expected : String)
    (field : σ → String → Option (Node → Decoded σ)) (s : σ) (n : Node) : Decoded σ :=
  match n with
  | .mapping entries => decodeEntries path field entries s
  | .scalar k => if k.value = .empty then .ok s else wrongType path n expected
  | n => wrongType path n expected

/-- Reads a field that has not been read before. -/
def once {α : Type} (path : Path) (name : String) (old : Option α)
    (read : Path → Node → Decoded α) (v : Node) : Decoded (Option α) :=
  match old with
  | some _ => .error (.mismatch path (.duplicate name))
  | none => (read (path ++ [.field name]) v).map some

/-- The fields of a key event that have been read. -/
structure EventDraft where
  frame : Option UInt64 := none
  key : Option Key := none
  pressed : Option Bool := none

def eventField (path : Path) (d : EventDraft) (name : String) :
    Option (Node → Decoded EventDraft) :=
  match name with
  | "frame" => some fun v => do pure { d with frame := ← once path name d.frame decodeCount v }
  | "key" => some fun v => do pure { d with key := ← once path name d.key decodeKey v }
  | "pressed" => some fun v => do
    pure { d with pressed := ← once path name d.pressed decodeFlag v }
  | _ => none

/-- The event, if no field is missing. -/
def EventDraft.finish (path : Path) (d : EventDraft) : Decoded ScriptedKey :=
  match d.frame, d.key, d.pressed with
  | some frame, some key, some pressed => .ok ⟨frame, key, pressed⟩
  | none, _, _ => .error (.mismatch path (.missing "frame"))
  | _, none, _ => .error (.mismatch path (.missing "key"))
  | _, _, none => .error (.mismatch path (.missing "pressed"))

def decodeEvent (path : Path) (n : Node) : Decoded ScriptedKey := do
  (← decodeMapping path "struct KeyEvent" (eventField path) {} n).finish path

/-- Reads items, the first of which has number `index`. -/
def decodeItems (path : Path) (index : Nat) : List Node → Decoded (List ScriptedKey)
  | [] => .ok []
  | n :: ns => do
    let e ← decodeEvent (path ++ [.item index]) n
    pure (e :: (← decodeItems path (index + 1) ns))

/-- A list of key events; an empty value stands for an empty list. -/
def decodeEvents (path : Path) (n : Node) : Decoded (List ScriptedKey) :=
  match n with
  | .sequence items => decodeItems path 0 items
  | .scalar k => if k.value = .empty then .ok [] else wrongType path n "a sequence"
  | n => wrongType path n "a sequence"

/-- The fields of the settings that have been read. -/
structure Draft where
  frames : Option UInt64 := none
  stepsPerFrame : Option UInt64 := none
  throttle : Option Bool := none
  seed : Option (Option UInt64) := none
  keys : Option (List ScriptedKey) := none

def field (d : Draft) (name : String) : Option (Node → Decoded Draft) :=
  match name with
  | "frames" => some fun v => do pure { d with frames := ← once [] name d.frames decodeCount v }
  | "steps_per_frame" => some fun v => do
    pure { d with stepsPerFrame := ← once [] name d.stepsPerFrame decodeCount v }
  | "throttle" => some fun v => do
    pure { d with throttle := ← once [] name d.throttle decodeFlag v }
  | "rng_seed" => some fun v => do pure { d with seed := ← once [] name d.seed decodeSeed v }
  | "keys" => some fun v => do pure { d with keys := ← once [] name d.keys decodeEvents v }
  | _ => none

/-- The settings, with defaults for the fields that were not read. -/
def Draft.finish (d : Draft) : Settings :=
  let defaults : Settings := {}
  { frames := d.frames.getD defaults.frames
    stepsPerFrame := d.stepsPerFrame.getD defaults.stepsPerFrame
    throttle := d.throttle.getD defaults.throttle
    seed := d.seed.getD defaults.seed
    keys := d.keys.getD defaults.keys }

/-- The settings that a node describes. -/
def ofNode (n : Node) : Decoded Settings :=
  (decodeMapping [] "struct CliConf" field {} n).map Draft.finish

/-- The settings that a document describes. An empty document leaves everything at its default. -/
def ofDocument (d : Yaml.Document) : Decoded Settings := do
  let settings ← d.root.elim (.ok {}) ofNode
  if d.ended then pure settings else throw .malformed

/-- The settings that a text describes, given a reader of YAML. -/
def parse (reader : String → Yaml.Document) (text : String) : Decoded Settings :=
  ofDocument (reader text)

end Settings

end ChipEight
