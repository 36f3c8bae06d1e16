import ChipEight.Proofs.Compilation
import ChipEight.Proofs.History

/-!
# Loading a program

A load forgets everything that happened to a machine with a seed: what it leaves is what the same
load leaves of a new machine (`load_eq_ok_new`), and `Machine.Loaded` says of every part of the
machine what that is. A program that is too long is refused, and the machine stays as it was. Both
hold after every history (`load_anew_or_refuse`).
-/

set_option autoImplicit false

namespace ChipEight

/-- Everything outside memory is clear, and the machine runs from the start of programs. -/
structure State.Fresh (s : State) (g : Generator) : Prop where
  pc : s.pc.toNat = Memory.start
  index : s.index = 0
  registers : ∀ x, s.reg x = 0
  sp : s.stack.sp = 0
  slots : ∀ i, s.stack.slots.get i = 0
  delay : s.delay = 0
  sound : s.sound = 0
  keypad : ∀ k, s.keypad.isHeld k = false
  pending : s.pending = none
  running : s.blocked = false
  display : ∀ x y, s.display.pixel x y = false
  random : s.random = g

theorem State.fresh_initial (g : Generator) (memory : Memory) :
    State.Fresh { State.initial g with memory } g where
  pc := rfl
  index := rfl
  registers _ := Bank.get_fill _ _
  sp := rfl
  slots _ := Bank.get_fill _ _
  delay := rfl
  sound := rfl
  keypad := Keypad.isHeld_empty
  pending := rfl
  running := rfl
  display x y := by
    show ((Bank.fill 32 0#64).get y).getMsbD (x % 64) = false
    rw [Bank.get_fill]
    simp
  random := rfl

/-! ## The image of a program -/

/-- What memory holds at an address after a load: the font, the program without an odd byte at its
end, and zero everywhere else. -/
def imageByte (program : List UInt8) (a : Nat) : UInt8 :=
  if h : a < Font.glyphs.length then Font.glyphs[a]
  else if h : Memory.start ≤ a ∧ a < Memory.start + 2 * (program.length / 2) then
    program[a - Memory.start]
  else 0

theorem Memory.get_initial_of_lt {a : Nat} (h : a < Font.glyphs.length) :
    initial.get a = Font.glyphs[a] := by
  have hlen : Font.glyphs.length ≤ 4096 := by decide
  have hread := Bank.get_write_of_le (Bank.fill 4096 0) 0 Font.glyphs hlen h
  rw [Nat.zero_add] at hread
  rw [initial, hread]

/-- A program written over fresh memory gives the image. -/
theorem get_write_program {program : List UInt8} (hfit : program.length ≤ Memory.maxProgram)
    {a : Nat} (ha : a < Memory.size) :
    (Memory.initial.write Memory.start (program.take (2 * (program.length / 2)))).get a =
      imageByte program a := by
  simp only [Memory.maxProgram, Memory.size, Memory.start] at hfit ha
  have hlen : (program.take (2 * (program.length / 2))).length = 2 * (program.length / 2) := by
    rw [List.length_take]
    omega
  unfold imageByte
  split
  · next hfont =>
    rw [Bank.get_write_of_ne, Memory.get_initial_of_lt hfont]
    intro k hk
    simp only [Font.length_glyphs, Font.height, Memory.start] at hfont ⊢
    omega
  · next hfont =>
    split
    · next hin =>
      obtain ⟨k, rfl⟩ := Nat.exists_eq_add_of_le hin.1
      have hk : k < (program.take (2 * (program.length / 2))).length := by omega
      rw [Bank.get_write_of_le _ _ _ (by omega) hk, List.getElem_take]
      simp only [Nat.add_sub_cancel_left]
    · next hout =>
      rw [Bank.get_write_of_ne, Memory.get_initial]
      · show _ ≤ a % 4096
        omega
      · intro k hk
        simp only [Memory.start] at hout ⊢
        omega

namespace Machine

/-- The program is in memory and compiled, and everything else is as in a new machine. -/
structure Loaded (m : Machine) (seed : UInt64) (program : List UInt8) : Prop where
  state : m.state.Fresh (.ofSeed seed)
  memory : ∀ a < Memory.size, m.state.memory.get a = imageByte program a
  compiled : ∀ k hi lo, program[2 * k]? = some hi → program[2 * k + 1]? = some lo →
    m.instructionAt (Memory.start + 2 * k) =
      .ofWord (UInt16.ofNat (hi.toNat * 256 + lo.toNat))
  illegal : ∀ a, (∀ k < program.length / 2, a % Memory.size ≠ Memory.start + 2 * k) →
    m.instructionAt a = .illegal
  cursor : m.cursor = (Memory.start + 2 * (program.length / 2)) % Memory.size
  seed : m.seed = some seed

/-- With a seed, a reset gives a new machine, whatever entropy the two are given. -/
theorem reset_eq_new {m : Machine} {seed : UInt64} (h : m.seed = some seed)
    (entropy entropy' : Entropy) : m.reset entropy = new (some seed) entropy' := by
  rw [reset, h]
  rfl

/-- Compiling a program that fits onto a new machine loads it. -/
theorem loaded_compileAll {program : List UInt8} (hfit : program.length ≤ Memory.maxProgram)
    (seed : UInt64) (entropy : Entropy) :
    ((words program).foldl compile (new (some seed) entropy)).Loaded seed program := by
  have hcursor : (new (some seed) entropy).cursor = Memory.start := rfl
  have hwords := length_words program
  have hlt : program.length ≤ 3584 := hfit
  obtain ⟨memory, hstate⟩ := state_compileAll (words program) (new (some seed) entropy)
  refine ⟨?_, fun a ha => ?_, fun k hi lo hhi hlo => ?_, fun a ha => ?_, ?_, seed_compileAll _ _⟩
  · rw [hstate]
    exact State.fresh_initial _ memory
  · rw [memory_compileAll, flatMap_bytes_words]
    exact get_write_program hfit ha
  · obtain ⟨hk, hword⟩ := List.getElem?_eq_some_iff.1 (getElem?_words program hhi hlo)
    rw [← hword]
    refine instructionAt_compileAll (m := new (some seed) entropy) _ hk fun j hkj hj => ?_
    simp only [hcursor, Memory.start]
    omega
  · rw [instructionAt_compileAll_of_ne]
    · exact Bank.get_fill _ _
    · intro k hk
      have := ha k (by omega)
      simp only [hcursor, Memory.start, Memory.size] at this ⊢
      omega
  · have hstart : (new (some seed) entropy).cursor < Memory.size := by
      rw [hcursor]
      decide
    rw [cursor_compileAll _ hstart, hwords, hcursor]

/-- With a seed, a program that fits is compiled onto a new machine, whatever happened before. -/
theorem load_eq_ok_new {m : Machine} {seed : UInt64} (h : m.seed = some seed)
    {program : List UInt8} (hfit : program.length ≤ Memory.maxProgram)
    (entropy entropy' : Entropy) :
    m.load program entropy = .ok ((words program).foldl compile (new (some seed) entropy')) := by
  rw [load, if_pos hfit, reset_eq_new h entropy entropy']

theorem seed_performAll (m : Machine) (cs : List Command) : (m.performAll cs).1.seed = m.seed := by
  rw [← after_events]
  exact (Linked.events m cs).seed_after

end Machine

/-- **A load forgets everything or changes nothing.** After every history of a machine with a seed,
a program that fits is loaded as into a new machine; a longer one is refused with its length and
leaves the machine as it was; and a reset gives a new machine. None of this depends on entropy. -/
theorem load_anew_or_refuse (seed : UInt64) (entropy : Entropy) (cs : List Command)
    (program : List UInt8) :
    let m := ((Machine.new (some seed) entropy).performAll cs).1
    (program.length ≤ Memory.maxProgram → ∃ loaded : Machine,
        (∀ drawn, m.load program drawn = .ok loaded) ∧
        (∀ made drawn, (Machine.new (some seed) made).load program drawn = .ok loaded) ∧
        loaded.Loaded seed program) ∧
      (Memory.maxProgram < program.length → ∀ drawn,
        m.load program drawn = .error (.programTooLarge program.length) ∧
        m.perform (.load program drawn) =
          { machine := m, reply := .refused (.programTooLarge program.length) }) ∧
      ∀ drawn made, m.reset drawn = Machine.new (some seed) made := by
  intro m
  have hseed : m.seed = some seed := Machine.seed_performAll _ cs
  refine ⟨fun hfit => ?_, fun hlong drawn => ⟨?_, Machine.perform_load_of_lt hlong⟩,
    Machine.reset_eq_new hseed⟩
  · exact ⟨_, fun drawn => Machine.load_eq_ok_new hseed hfit drawn entropy,
      fun made drawn => Machine.load_eq_ok_new (m := Machine.new (some seed) made) rfl hfit drawn
        entropy,
      Machine.loaded_compileAll hfit seed entropy⟩
  · rw [Machine.load, if_neg (by omega)]

/-- Overwrite the font with a random byte, and wait for a key inside a subroutine. -/
def overwriteAndWait : List UInt8 := [0xC0, 0xFF, 0xF0, 0x55, 0x22, 0x06, 0xF0, 0x0A]

/-- A program that fills memory is loaded into a blocked machine with an overwritten font, and the
cursor wraps to zero; a program with one byte more is refused. -/
theorem load_anew_or_refuse_fullMemory :
    let m := ((Machine.new (some 7) default).performAll [.load overwriteAndWait default, .step 9]).1
    (m.state.blocked = true ∧ m.state.stack.sp = 1 ∧ m.state.memory.get 0 ≠ 0xF0) ∧
      (∃ loaded, m.load (List.replicate 3584 0x12) default = .ok loaded ∧
        loaded.state.blocked = false ∧ loaded.state.memory.get 0 = 0xF0 ∧
        loaded.instructionAt 0xFFE = .jump ∧ loaded.cursor = 0) ∧
      m.load (List.replicate 3585 0x12) default = .error (.programTooLarge 3585) := by
  intro m
  obtain ⟨hload, -, -⟩ := load_anew_or_refuse 7 default [.load overwriteAndWait default, .step 9]
    (List.replicate 3584 0x12)
  obtain ⟨-, hrefuse, -⟩ := load_anew_or_refuse 7 default [.load overwriteAndWait default, .step 9]
    (List.replicate 3585 0x12)
  rw [List.length_replicate] at hload hrefuse
  obtain ⟨loaded, hok, -, hloaded⟩ := hload (by decide)
  have hbyte : imageByte (List.replicate 3584 0x12) 0 = 0xF0 := rfl
  have hbytes : ∀ i < 3584, (List.replicate 3584 (0x12 : UInt8))[i]? = some 0x12 := by
    intro i hi
    rw [List.getElem?_replicate, if_pos hi]
  have hjump := hloaded.compiled 1791 0x12 0x12 (hbytes _ (by decide)) (hbytes _ (by decide))
  have hcursor := hloaded.cursor
  rw [List.length_replicate] at hcursor
  refine ⟨by decide +kernel, ⟨loaded, hok default, hloaded.state.running, ?_, hjump, hcursor⟩,
    (hrefuse (by decide) default).1⟩
  rw [hloaded.memory 0 (by decide), hbyte]

end ChipEight
