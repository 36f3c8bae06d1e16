import ChipEight.Machine.Listing
import ChipEight.Proofs.Checked.Execute
import ChipEight.Proofs.Compilation

/-!
# No command meets a fault

Commands and queries again, with the accesses of `Checked`. On machines in range every command is
carried out without a fault and with the same result (`Checked.perform_eq`), and leaves the machine
in range; so every history of a fresh machine is carried out to its end
(`performAll_without_fault`).
-/

set_option autoImplicit false

namespace ChipEight

namespace Checked

/-! ## Fresh machines -/

/-- Memory with the font copied to its bottom. -/
def font : Except Fault Memory :=
  (Bank.fill 4096 0).copy? Font.glyphs.length (element? Font.glyphs) (add 64 0)

def start (g : Generator) : Except Fault State := do
  let memory ← font
  return { State.initial g with memory }

def new (seed : Option UInt64) (entropy : Entropy) : Except Fault Machine := do
  let state ← start (.start seed entropy)
  return { Machine.new seed entropy with state }

def reset (m : Machine) (entropy : Entropy) : Except Fault Machine := do
  let state ← start (.start m.seed entropy)
  return { m.reset entropy with state }

theorem font_eq : font = pure Memory.initial := by
  refine Bank.copy?_element? _ _ fun k hk => ?_
  have hk : k < 80 := hk
  rw [add_eq (by omega), Nat.mod_eq_of_lt (by omega)]

theorem start_eq (g : Generator) : start g = pure (.initial g) := by
  rw [start, font_eq, pure_bind]
  rfl

theorem new_eq (seed : Option UInt64) (entropy : Entropy) :
    new seed entropy = pure (Machine.new seed entropy) := by
  rw [new, start_eq, pure_bind]
  rfl

theorem reset_eq (m : Machine) (entropy : Entropy) :
    reset m entropy = pure (m.reset entropy) := by
  rw [reset, start_eq, pure_bind]
  rfl

/-! ## Compiling -/

/-- Writes a word and its class at the masked cursor. -/
def compile (m : Machine) (w : UInt16) : Except Fault Machine := do
  let here := m.cursor % Memory.size
  let memory ← m.state.memory.set? here (w >>> 8).toUInt8
  let i ← add 64 here 1
  let memory ← memory.set? (i % Memory.size) w.toUInt8
  let table ← m.table.set? here (.ofWord w)
  let cursor ← add 64 here 2
  return { m with state := { m.state with memory }, table, cursor := cursor % Memory.size }

/-- The pairs of bytes of a program, without an odd one at the end. -/
def chunks : List UInt8 → List (List UInt8)
  | hi :: lo :: rest => [hi, lo] :: chunks rest
  | _ => []

def word (chunk : List UInt8) : Except Fault UInt16 := do
  let (hi, lo) ← pair (element? chunk) 0
  return UInt16.ofNat (hi.toNat * 256 + lo.toNat)

/-- Resets the machine and compiles a program, unless it is too long. -/
def load (m : Machine) (program : List UInt8) (entropy : Entropy) :
    Except Fault (Except MachineError Machine) :=
  if program.length ≤ Memory.maxProgram then do
    let m ← reset m entropy
    let m ← (chunks program).foldlM (fun m chunk => do compile m (← word chunk)) m
    return .ok m
  else return .error (.programTooLarge program.length)

theorem compile_eq (m : Machine) (w : UInt16) : compile m w = pure (m.compile w) := by
  have hhere : m.cursor % Memory.size < 4096 := Nat.mod_lt _ (by decide)
  have hnext : ∀ k, (m.cursor % Memory.size + k) % Memory.size = (m.cursor + k) % Memory.size :=
    fun k => Nat.mod_add_mod _ _ _
  have hhi : m.state.memory.set? (m.cursor % Memory.size) (w >>> 8).toUInt8 =
      pure (m.state.memory.set m.cursor (w >>> 8).toUInt8) := Bank.set?_mod _ _ _
  have hlo : (m.state.memory.set m.cursor (w >>> 8).toUInt8).set?
        ((m.cursor + 1) % Memory.size) w.toUInt8 =
      pure (m.state.memory.write m.cursor (Machine.bytes w)) := Bank.set?_mod _ _ _
  have hclass : m.table.set? (m.cursor % Memory.size) (.ofWord w) =
      pure (m.table.set m.cursor (.ofWord w)) := Bank.set?_mod _ _ _
  -- The masked cursor is below 4096, so neither sum overflows.
  rw [compile, hhi, pure_bind, add_eq (by omega), pure_bind, hnext, hlo, pure_bind, hclass,
    pure_bind, add_eq (by omega), pure_bind, hnext]
  rfl

theorem foldlM_chunks (m : Machine) (program : List UInt8) :
    (chunks program).foldlM (fun m chunk => do compile m (← word chunk)) m =
      pure ((Machine.words program).foldl Machine.compile m) := by
  induction program using Machine.words.induct generalizing m with
  | case1 hi lo rest ih =>
    have hword : word [hi, lo] = pure (UInt16.ofNat (hi.toNat * 256 + lo.toNat)) := rfl
    rw [chunks, List.foldlM_cons, hword, pure_bind, compile_eq, pure_bind, ih, Machine.words,
      List.foldl_cons]
  | case2 program hshort =>
    rw [Machine.words.eq_2 program hshort, chunks.eq_2 program hshort]
    rfl

theorem load_eq (m : Machine) (program : List UInt8) (entropy : Entropy) :
    load m program entropy = pure (m.load program entropy) := by
  rw [load, Machine.load]
  split
  · rw [reset_eq, pure_bind, foldlM_chunks, pure_bind]
  · rfl

/-! ## Batches -/

/-- Executes the instruction that the table holds at the masked program counter. -/
def next (table : Table) (b : Batch) : Except Fault Batch := do
  let i ← table.get? (b.state.pc.toNat % Memory.size)
  let e ← execute i b.state
  return { state := e.state, drew := b.drew || e.signal == .redraw, log := b.log ++ e.log }

def advance (table : Table) : Nat → Batch → Except Fault Batch
  | 0, b => return b
  | n + 1, b => if b.state.blocked then return b else do advance table n (← next table b)

theorem next_eq (table : Table) {b : Batch} (h : b.state.stack.sp < 16) :
    next table b = pure (b.next table) := by
  have hclass : table.get? (b.state.pc.toNat % Memory.size) =
      pure (table.get b.state.pc.toNat) := Bank.get?_mod _ _
  rw [next, hclass, pure_bind, execute_eq _ h, pure_bind]
  rfl

theorem advance_eq (table : Table) (n : Nat) {b : Batch} (h : b.state.stack.sp < 16) :
    advance table n b = pure (b.advance table n) := by
  induction n generalizing b with
  | zero => rfl
  | succ n ih =>
    rw [advance, Batch.advance]
    split
    · rfl
    · -- The stack pointer is in range again for the rest of the batch.
      rw [next_eq table h, pure_bind, ih (Instruction.sp_execute_lt _ h)]

/-! ## Commands -/

def perform (m : Machine) : Command → Except Fault Performed
  | .reset entropy => do return { machine := ← reset m entropy, log := #[.reset] }
  | .load program entropy => do
    match ← load m program entropy with
    | .ok m => return { machine := m, log := (Machine.loadRecords program).toArray }
    | .error e => return { machine := m, reply := .refused e }
  | .compile w => do
    return { machine := ← compile m w, log := (Machine.illegalRecords m.cursor [w]).toArray }
  | .step n => do
    let b ← advance m.table n { state := m.state }
    return { machine := m.withState b.state, reply := .ran b.signal, log := b.log }
  | .tick => return { machine := m.tick }
  | .press none | .release none => return { machine := m }
  | .press (some k) => do
    let bit ← keyBit k
    let keypad := ⟨m.state.keypad.held ||| bit⟩
    return { machine := m.withState { m.state with keypad, pending := some k, blocked := false }
             log := #[.pressed k] }
  | .release (some k) => do
    let bit ← keyBit k
    let keypad := ⟨m.state.keypad.held &&& ~~~bit⟩
    return { machine := m.withState { m.state with keypad }, log := #[.released k] }
  | .setRegister x v => do return { machine := m.withState (← setReg m.state (x % 16) v) }
  | .setIndex index => return { machine := m.withState { m.state with index } }
  | .setDelay delay => return { machine := m.withState { m.state with delay } }
  | .write a data => do
    let memory ← m.state.memory.copy? data.length (element? data) (place a)
    return { machine := m.withState { m.state with memory } }

def performAll (m : Machine) : List Command → Except Fault (Machine × List Reply × Log)
  | [] => return (m, [], #[])
  | c :: cs => do
    let p ← perform m c
    let (m', replies, log) ← performAll p.machine cs
    return (m', p.reply :: replies, p.log ++ log)

end Checked

/-- Writes end below `2 ^ 64`. -/
def Command.Addressable : Command → Prop
  | .write a data => a + data.length < 2 ^ 64
  | _ => True

namespace Checked

theorem perform_eq {m : Machine} (hm : m.InRange) {c : Command} (hc : c.Addressable) :
    perform m c = pure (m.perform c) := by
  cases c with
  | reset entropy => rw [perform, reset_eq, pure_bind]; rfl
  | load program entropy =>
    rw [perform, load_eq, pure_bind, Machine.perform]
    cases m.load program entropy <;> rfl
  | compile w => rw [perform, compile_eq, pure_bind]; rfl
  | step n =>
    have hsp : ({ state := m.state } : Batch).state.stack.sp < 16 := hm.sp
    rw [perform, advance_eq m.table n hsp, pure_bind]; rfl
  | tick | setIndex a | setDelay v => rfl
  | press k | release k =>
    cases k with
    | none => rfl
    | some k => rw [perform, keyBit_eq, pure_bind]; rfl
  | setRegister x v =>
    have hset := Bank.set?_mod m.state.registers x v
    rw [perform, setReg, hset, pure_bind, pure_bind]; rfl
  | write a data =>
    have hcopy : m.state.memory.copy? data.length (element? data) (place a) =
        pure (m.state.memory.write a data) := by
      refine Bank.copy?_element? _ _ fun k hk => place_eq ?_
      have : a + data.length < 2 ^ 64 := hc
      omega
    rw [perform, hcopy, pure_bind]; rfl

theorem performAll_eq {m : Machine} (hm : m.InRange) {cs : List Command}
    (hcs : ∀ c ∈ cs, c.Addressable) : performAll m cs = pure (m.performAll cs) := by
  induction cs generalizing m with
  | nil => rfl
  | cons c cs ih =>
    obtain ⟨hc, hcs⟩ := List.forall_mem_cons.1 hcs
    rw [performAll, perform_eq hm hc, pure_bind, ih (hm.perform c) hcs, pure_bind]
    rfl

/-! ## Queries -/

/-- The instruction in the table at a masked address. -/
def instructionAt (m : Machine) (a : Nat) : Except Fault Instruction :=
  m.table.get? (a % Memory.size)

def isHeld (m : Machine) (k : Key) : Except Fault Bool := isHeldByte m.state.keypad k.toByte

/-- The line for the word at address `a`, of which only the second byte has its address masked. -/
def listingLine (m : Machine) (a : Nat) : Except Fault String := do
  let hi ← m.state.memory.get? a
  let i ← add 64 a 1
  let lo ← byteAt m.state.memory i
  let found ← m.table.get? a
  return Hex.text 4 a ++ ": " ++ Hex.text 2 hi.toNat ++ Hex.text 2 lo.toNat ++ " " ++ found.mnemonic

def listing (m : Machine) (count : Nat) : Except Fault String := do
  let lines ← (Machine.listedAddresses count).mapM (listingLine m)
  return unlines lines

/-- The character for the pixel in column `x` and row `y`, neither of them masked. -/
def pixelText (d : Display) (y x : Nat) : Except Fault Char := do
  let above ← mul 64 y Display.width
  let i ← add 64 x above
  let lit ← d.get? i
  return if lit then '#' else '.'

def rowText (d : Display) (y : Nat) : Except Fault String := do
  let row ← (List.range Display.width).mapM (pixelText d y)
  return String.ofList row

def displayText (d : Display) : Except Fault String := do
  let rows ← (List.range Display.height).mapM (rowText d)
  return unlines rows

/-- The names of the held keys, behind a heading if there are any. -/
def keypadText (p : Keypad) : Except Fault String :=
  if p.held = 0#16 then return ""
  else Key.all.foldlM (fun text k => do
    let held ← isHeldByte p k.toByte
    return if held then text ++ k.name else text) "keys: "

theorem instructionAt_eq (m : Machine) (a : Nat) : instructionAt m a = pure (m.instructionAt a) :=
  Bank.get?_mod _ _

theorem isHeld_eq (m : Machine) (k : Key) : isHeld m k = pure (m.state.keypad.isHeld k) := by
  rw [isHeld, isHeldByte_eq, Keypad.isHeldByte, Key.ofByte?_toByte, Option.any_some]

theorem listingLine_eq (m : Machine) {a : Nat} (h : a < 4096) :
    listingLine m a = pure (m.listingLine a) := by
  rw [listingLine, Bank.get?_of_lt _ h, pure_bind, add_eq (by omega), pure_bind, byteAt_eq,
    pure_bind, Bank.get?_of_lt _ h, pure_bind]
  rfl

theorem lt_of_mem_listedAddresses {a count : Nat} (h : a ∈ Machine.listedAddresses count) :
    a < 4096 := by
  obtain ⟨j, hj, rfl⟩ := List.mem_map.1 h
  rw [List.mem_range] at hj
  simp only [Memory.maxProgram, Memory.size, Memory.start] at hj ⊢
  omega

theorem listing_eq (m : Machine) (count : Nat) : listing m count = pure (m.listing count) := by
  rw [listing, mapM_eq fun a ha => listingLine_eq m (lt_of_mem_listedAddresses ha), pure_bind]
  rfl

theorem pixelText_eq (d : Display) {x y : Nat} (hx : x < 64) (hy : y < 32) :
    pixelText d y x = pure (if d.pixel x y then '#' else '.') := by
  have hplace : x + y * Display.width = Display.place x y := by
    simp only [Display.place, Display.width, Display.height]
    omega
  have hlt := Display.place_lt x y
  simp only [Display.width, Display.height] at hplace hlt
  rw [pixelText, mul_eq (by simp only [Display.width]; omega), pure_bind,
    add_eq (by simp only [Display.width]; omega), pure_bind, Display.width, hplace,
    Display.get?_place, pure_bind]

theorem rowText_eq (d : Display) {y : Nat} (hy : y ∈ List.range Display.height) :
    rowText d y = pure (d.rowText y) := by
  have hpixels : (List.range Display.width).mapM (pixelText d y) =
      pure ((List.range Display.width).map fun x => if d.pixel x y then '#' else '.') :=
    mapM_eq fun x hx => pixelText_eq d (List.mem_range.1 hx) (List.mem_range.1 hy)
  rw [rowText, hpixels, pure_bind]
  rfl

theorem displayText_eq (d : Display) : displayText d = pure d.text := by
  have hrows : (List.range Display.height).mapM (rowText d) =
      pure ((List.range Display.height).map d.rowText) := mapM_eq fun y hy => rowText_eq d hy
  rw [displayText, hrows, pure_bind]
  rfl

/-- A keypad with a bit set has a held key. -/
theorem toList_ne_nil {p : Keypad} (h : p.held ≠ 0#16) : p.toList ≠ [] := by
  intro hnil
  have hempty : p = .empty := by
    refine Keypad.ext_isHeld fun k => ?_
    rw [Keypad.isHeld_empty]
    refine Bool.eq_false_iff.2 fun hk => ?_
    have hmem : k ∈ p.toList := List.mem_filter.2 ⟨k.mem_all, hk⟩
    rw [hnil] at hmem
    cases hmem
  exact h (congrArg Keypad.held hempty)

theorem keypadText_eq (p : Keypad) : keypadText p = pure p.text := by
  rw [keypadText, Keypad.text]
  split
  · next h =>
    obtain rfl : p = .empty := congrArg Keypad.mk h
    rfl
  · next h =>
    have hloop := foldlM_eq (f := fun text (k : Key) => do
        let held ← isHeldByte p k.toByte
        return if held then text ++ k.name else text)
      (g := fun text k => if p.isHeld k then text ++ k.name else text) (l := Key.all) "keys: "
      fun k _ text => by
        rw [isHeldByte_eq, Keypad.isHeldByte, Key.ofByte?_toByte, Option.any_some, pure_bind]
    rw [hloop, ← List.foldl_filter, ← Keypad.toList]
    cases hkeys : p.toList with
    | nil => exact absurd hkeys (toList_ne_nil h)
    | cons k keys => rfl

end Checked

/-! ## The result -/

/-- **No operation meets a fault.** A fresh machine is made without one, and every history whose
writes end below `2 ^ 64` is carried out to its end, with the results it has on banks that wrap
around. The machine it leads to has its stack pointer and cursor in range and answers every
query. -/
theorem performAll_without_fault (seed : Option UInt64) (entropy : Entropy) {cs : List Command}
    (hcs : ∀ c ∈ cs, c.Addressable) :
    (do let m ← Checked.new seed entropy
        Checked.performAll m cs) = .ok ((Machine.new seed entropy).performAll cs) ∧
      let m := ((Machine.new seed entropy).performAll cs).1
      (m.state.stack.sp < 16 ∧ m.cursor < 4096) ∧
        (∀ a, Checked.instructionAt m a = .ok (m.instructionAt a)) ∧
        (∀ k, Checked.isHeld m k = .ok (m.state.keypad.isHeld k)) ∧
        (∀ count, Checked.listing m count = .ok (m.listing count)) ∧
        Checked.displayText m.state.display = .ok m.state.display.text ∧
        Checked.keypadText m.state.keypad = .ok m.state.keypad.text := by
  have hfresh : (Machine.new seed entropy).InRange := Machine.inRange_initial _ _
  have hrange := hfresh.performAll cs
  refine ⟨?_, ⟨hrange.sp, hrange.cursor⟩, fun a => Checked.instructionAt_eq _ a,
    fun k => Checked.isHeld_eq _ k, fun count => Checked.listing_eq _ count,
    Checked.displayText_eq _, Checked.keypadText_eq _⟩
  rw [Checked.new_eq, pure_bind]
  exact Checked.performAll_eq hfresh hcs

/-- A return with nothing pushed, and a write that ends just below `2 ^ 64`. -/
theorem performAll_without_fault_underflow :
    let cs := [.load [0x00, 0xEE] default, .step 1, .write (2 ^ 64 - 3) [0x12, 0x34]]
    let m := ((Machine.new (some 7) default).performAll cs).1
    (do let m ← Checked.new (some 7) default
        Checked.performAll m cs) = .ok ((Machine.new (some 7) default).performAll cs) ∧
      m.state.stack.sp = 15 ∧ m.state.memory.get 4093 = 0x12 ∧
      Checked.listing m 2 = .ok (m.listing 2) := by
  intro cs m
  have hcs : ∀ c ∈ cs, c.Addressable := by simp [cs, Command.Addressable]
  obtain ⟨hrun, -, -, -, hlisting, -⟩ := performAll_without_fault (some 7) default hcs
  exact ⟨hrun, by decide +kernel, by decide +kernel, hlisting 2⟩

end ChipEight
