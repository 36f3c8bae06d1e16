import ChipEight.Machine.Listing
import ChipEight.Session
import ChipEight.Settings.Decode
import ChipEight.Yaml.Reader

/-!
# Command line

The whole program as a function of its arguments and of the host it runs on. `CommandLine.run`
reads the settings and then the program, plays the session, and says what to print and how to exit.
The host is a structure of actions in any monad, so the same program runs on real files and on a
fixed table of them. It also has the parts that are made elsewhere: the reader of YAML, the source
of entropy and the logger, which may write to standard output in front of the result.
-/

set_option autoImplicit false

namespace ChipEight

/-- Why the program stops without a result. -/
inductive HostError
  | machine (e : MachineError)
  /-- A file is missing, is a directory, or holds no text where text is needed. -/
  | unreadable (file : String)
  | settings (e : SettingsError)
  /-- The arguments could not be understood. -/
  | usage
deriving DecidableEq, Repr

def HostError.message (e : HostError) : String :=
  "application error: " ++
    match e with
    | machine e => e.message
    | unreadable file => "cannot read " ++ file
    | settings e => "invalid config: " ++ e.text
    | usage => "invalid arguments"

/-- What the program reports while it runs. -/
inductive HostRecord
  /-- The settings of the run are known. -/
  | configured (settings : Settings)
  /-- The program is read from a file. -/
  | loading (file : String)
  /-- Something happened to the machine or in its session. -/
  | machine (r : Record)
  /-- All frames were played, which left the program counter somewhere. -/
  | played (frames : UInt64) (pc : UInt16)
  /-- The machine was left waiting for a key. -/
  | waiting
deriving DecidableEq, Repr

namespace HostRecord

def level : HostRecord → Level
  | configured _ => .debug
  | machine r => r.level
  | loading _ | played _ _ | waiting => .info

def text : HostRecord → String
  | configured settings => settings.debugText
  | loading file => "loading " ++ file
  | machine r => r.text
  | played frames pc =>
    "ran " ++ toString frames.toNat ++ " frames, stopped at " ++ Hex.text 4 pc.toNat
  | waiting => "still waiting for a key"

end HostRecord

/-- What the program needs from outside. -/
structure Host (μ : Type → Type) where
  /-- The contents of a file, if it can be read. -/
  read : String → μ (Option ByteArray)
  /-- Presents a text as a YAML document. -/
  yaml : String → Yaml.Document
  /-- Entropy for a machine without a seed. -/
  entropy : μ Entropy
  /-- Starts a clock; the action it gives waits for the end of a frame. -/
  clock : μ (μ Unit)
  /-- What the logger writes to standard output for a message. -/
  logged : Level → String → String

/-- What the logger writes to standard output for some records. -/
def Host.written {μ : Type → Type} (host : Host μ) : List HostRecord → String
  | [] => ""
  | r :: records => host.logged r.level r.text ++ host.written records

/-- What the program prints and how it exits. -/
structure Outcome where
  exitCode : UInt8
  stdout : String
  failure : Option HostError
deriving DecidableEq

namespace CommandLine

def version : String := "0.4.0"

def usage : String := "
usage: chip8 run ROM [CONF]

commands:
    run     Run the target ROM file and print the final display

config (YAML, every field optional):
    frames: 600             frames to run at 60 Hz
    steps_per_frame: 10     instructions per frame
    throttle: true          pace frames against the wall clock
    rng_seed: 42            fixed seed for RND
    keys:                   scripted keypad input
      - \x7b frame: 30, key: 5, pressed: true \x7d

examples:
    chip8 run maze.rom
    chip8 run breakout.rom breakout.yaml
"

/-- A request to run a program. -/
structure Request where
  program : String
  settings : Option String
deriving DecidableEq, Repr

/-- The request that the arguments make. Arguments after the third are ignored. -/
def parse : List String → Except HostError Request
  | "run" :: program :: rest => .ok ⟨program, rest.head?⟩
  | _ => .error .usage

/-- What is printed of a machine at the end. -/
def report (m : Machine) : String :=
  m.state.display.text ++ "\n" ++ m.state.keypad.text ++ "\n"

variable {μ : Type → Type} [Monad μ]

/-- Reads the settings that a request names, or takes the defaults. -/
def readSettings (host : Host μ) : Option String → μ (Except HostError Settings)
  | none => pure (.ok {})
  | some file => do
    match (← host.read file).bind String.fromUTF8? with
    | none => pure (.error (.unreadable file))
    | some text => pure ((Settings.parse host.yaml text).mapError .settings)

/-- What is reported of a program that is loaded and of the session that follows. -/
def sessionRecords (program : List UInt8) (s : Session) (frames : UInt64) : List HostRecord :=
  let m := s.machine
  (Machine.loadRecords program ++ s.log.toList).map .machine ++ [.played frames m.state.pc] ++
    if m.state.blocked then [.waiting] else []

/-- Runs a program for as many frames as its settings say, and tells what was reported. -/
def runProgram (host : Host μ) (request : Request) :
    μ (List HostRecord × Except HostError Machine) := do
  match ← readSettings host request.settings with
  | .error e => pure ([], .error e)
  | .ok settings =>
    let records := [.configured settings, .loading request.program]
    match ← host.read request.program with
    | none => pure (records, .error (.unreadable request.program))
    | some program =>
      let fresh := Machine.new settings.seed (← host.entropy)
      let records := records ++ [.machine .reset]
      match fresh.load program.toList (← host.entropy) with
      | .error e => pure (records, .error (.machine e))
      | .ok loaded =>
        let pause ← if settings.throttle then host.clock else pure (pure ())
        let (session, frames) ← Session.run settings pause loaded
        pure (records ++ sessionRecords program.toList session frames, .ok session.machine)

/-- The whole program. -/
def run (host : Host μ) (args : List String) : μ Outcome := do
  match parse args with
  | .error _ =>
    pure
      { exitCode := 64
        stdout := "Chip8 v" ++ version ++ "\n" ++ usage ++ "\n"
        failure := none }
  | .ok request =>
    let (records, result) ← runProgram host request
    let log := host.written records
    match result with
    | .error e => pure { exitCode := 1, stdout := log, failure := some e }
    | .ok m => pure { exitCode := 0, stdout := log ++ report m, failure := none }

/-- A host with a fixed table of files, fixed entropy, no clock and no log. -/
def fixedHost (files : String → Option ByteArray) (entropy : Entropy) : Host Id where
  read := files
  yaml := .ofText
  entropy := entropy
  clock := pure ()
  logged _ _ := ""

end CommandLine

end ChipEight
