import ChipEight.Execute
import ChipEight.Proofs.Checked.Access

/-!
# Instructions with checked accesses

The instructions again, with registers, stack slots, memory cells and pixels in arrays that do not
wrap around: only addresses are masked, the sums that may not overflow are checked, and arithmetic
has a case that no instruction reaches. As long as the stack pointer is in range, no instruction
meets a fault, and each does what it does on banks (`Checked.execute_eq`).
-/

set_option autoImplicit false

namespace ChipEight

namespace Checked

/-! ## Operands -/

/-- The byte at a masked address. -/
def byteAt (m : Memory) (a : Nat) : Except Fault UInt8 := m.get? (a % Memory.size)

/-- The bytes at an address and its successor, both masked. -/
def pair (read : Nat → Except Fault UInt8) (a : Nat) : Except Fault (UInt8 × UInt8) := do
  let hi ← read (a % Memory.size)
  let i ← add 64 a 1
  let lo ← read (i % Memory.size)
  return (hi, lo)

section Operands

-- The fields at the program counter. Only `x` does without the second byte.
variable (s : State)

def x : Except Fault Nat := do
  let hi ← byteAt s.memory s.pc.toNat
  return hi.toNat % 16

def xkk : Except Fault (Nat × UInt8) := do
  let (hi, lo) ← pair s.memory.get? s.pc.toNat
  return (hi.toNat % 16, lo)

def xyn : Except Fault (Nat × Nat × Nat) := do
  let (hi, lo) ← pair s.memory.get? s.pc.toNat
  return (hi.toNat % 16, lo.toNat / 16, lo.toNat % 16)

def nnn : Except Fault UInt16 := do
  let (hi, lo) ← pair s.memory.get? s.pc.toNat
  return UInt16.ofNat (hi.toNat % 16 * 256 + lo.toNat)

theorem byteAt_eq (m : Memory) (a : Nat) : byteAt m a = pure (m.get a) := Bank.get?_mod m a

theorem pair_memory (m : Memory) {a : Nat} (h : a + 1 < 2 ^ 64) :
    pair m.get? a = pure (m.get a, m.get (a + 1)) := by
  have hhi : m.get? (a % Memory.size) = pure (m.get a) := Bank.get?_mod m a
  have hlo : m.get? ((a + 1) % Memory.size) = pure (m.get (a + 1)) := Bank.get?_mod m (a + 1)
  rw [pair, hhi, pure_bind, add_eq h, pure_bind, hlo, pure_bind]

theorem pair_pc : pair s.memory.get? s.pc.toNat =
    pure (s.memory.get s.pc.toNat, s.memory.get (s.pc.toNat + 1)) := by
  have := s.pc.toNat_lt
  exact pair_memory _ (by omega)

theorem x_eq : x s = pure (s.memory.x s.pc.toNat) := by
  rw [x, byteAt_eq, pure_bind, Memory.x]

theorem xkk_eq : xkk s = pure (s.memory.x s.pc.toNat, s.memory.kk s.pc.toNat) := by
  rw [xkk, pair_pc, pure_bind, Memory.x, Memory.kk]

theorem xyn_eq : xyn s =
    pure (s.memory.x s.pc.toNat, s.memory.y s.pc.toNat, s.memory.n s.pc.toNat) := by
  rw [xyn, pair_pc, pure_bind, Memory.x, Memory.y, Memory.n]

theorem nnn_eq : nnn s = pure (s.memory.nnn s.pc.toNat) := by
  rw [nnn, pair_pc, pure_bind, Memory.nnn]

end Operands

def reg (s : State) (i : Nat) : Except Fault UInt8 := s.registers.get? i

def setReg (s : State) (i : Nat) (v : UInt8) : Except Fault State := do
  let registers ← s.registers.set? i v
  return { s with registers }

theorem reg_eq (s : State) {i : Nat} (h : i < 16) : reg s i = pure (s.reg i) := Bank.get?_of_lt _ h

theorem setReg_eq (s : State) {i : Nat} (h : i < 16) (v : UInt8) :
    setReg s i v = pure (s.setReg i v) := by
  rw [setReg, Bank.set?_of_lt _ h, pure_bind, State.setReg]

/-! ## Keys -/

/-- The bit of a key, a one shifted by its code. -/
def keyBit (k : Key) : Except Fault (BitVec 16) := do
  let i ← shift 16 k.code
  return BitVec.twoPow 16 i

/-- Whether the key with the code in `b` is down. -/
def isHeldByte (p : Keypad) (b : UInt8) : Except Fault Bool :=
  match Key.ofByte? b with
  | some k => do
    let bit ← keyBit k
    return p.held &&& bit != 0#16
  | none => return false

theorem keyBit_eq (k : Key) : keyBit k = pure (Keypad.bit k) := by
  rw [keyBit, shift_eq k.code.isLt, pure_bind, Keypad.bit]

theorem and_bit (p : Keypad) (k : Key) : (p.held &&& Keypad.bit k != 0#16) = p.isHeld k := by
  rw [Keypad.bit, BitVec.and_twoPow, Keypad.isHeld]
  by_cases h : p.held.getLsbD k.code = true
  · have hbit : BitVec.twoPow 16 k.code ≠ 0#16 := by
      intro hzero
      have := congrArg (BitVec.getLsbD · k.code) hzero
      simp [k.code.isLt] at this
    rw [if_pos h, h, bne_iff_ne]
    exact hbit
  · rw [if_neg h, Bool.eq_false_iff.2 h, bne_self_eq_false]

theorem isHeldByte_eq (p : Keypad) (b : UInt8) : isHeldByte p b = pure (p.isHeldByte b) := by
  rw [isHeldByte, Keypad.isHeldByte]
  cases Key.ofByte? b with
  | none => rfl
  | some k =>
    show (do
      let bit ← keyBit k
      return p.held &&& bit != 0#16) = pure (p.isHeld k)
    rw [keyBit_eq, pure_bind, and_bit]

/-! ## Arithmetic and conditions -/

def holds (c : Condition) (s : State) : Except Fault Bool :=
  match c with
  | .isByte => do
    let (x, kk) ← xkk s
    return (← reg s x) == kk
  | .isNotByte => do
    let (x, kk) ← xkk s
    return (← reg s x) != kk
  | .same => do
    let (x, y, _) ← xyn s
    return (← reg s x) == (← reg s y)
  | .differ => do
    let (x, y, _) ← xyn s
    return (← reg s x) != (← reg s y)
  | .keyDown => do isHeldByte s.keypad (← reg s (← x s))
  | .keyUp => do return !(← isHeldByte s.keypad (← reg s (← x s)))

/-- An arithmetic instruction. The sum of `add` has sixteen bits. -/
def arith (i : Instruction) (s : State) : Except Fault State := do
  let (x, y, _) ← xyn s
  let a ← reg s x
  let b ← reg s y
  match i with
  | .alu .add =>
    let sum ← add 16 a.toNat b.toNat
    let s ← setReg s x (UInt8.ofNat sum)
    setReg s State.flag (decide (255 < sum)).toUInt8
  | .alu op =>
    let s ← setReg s x (op.result a b)
    match op.flag? a b with
    | some f => setReg s State.flag f.toUInt8
    | none => return s
  | _ => throw .unreachable

theorem holds_eq (c : Condition) (s : State) : holds c s = pure (c.holds s) := by
  have hx := reg_eq s (s.memory.x_lt s.pc.toNat)
  have hy := reg_eq s (s.memory.y_lt s.pc.toNat)
  cases c <;>
    simp only [holds, Condition.holds, xkk_eq, xyn_eq, x_eq, pure_bind, hx, hy, isHeldByte_eq]

theorem arith_eq (op : AluOp) (s : State) :
    arith (.alu op) s = pure (s.arith op (s.memory.x s.pc.toNat) (s.memory.y s.pc.toNat)) := by
  have hx := reg_eq s (s.memory.x_lt s.pc.toNat)
  have hy := reg_eq s (s.memory.y_lt s.pc.toNat)
  have hset := fun v => setReg_eq s (s.memory.x_lt s.pc.toNat) v
  have hflag := fun (s : State) v => setReg_eq s (i := State.flag) (by decide) v
  have hsum : add 16 (s.reg (s.memory.x s.pc.toNat)).toNat (s.reg (s.memory.y s.pc.toNat)).toNat =
      pure ((s.reg (s.memory.x s.pc.toNat)).toNat + (s.reg (s.memory.y s.pc.toNat)).toNat) := by
    have := (s.reg (s.memory.x s.pc.toNat)).toNat_lt
    have := (s.reg (s.memory.y s.pc.toNat)).toNat_lt
    exact add_eq (by omega)
  cases op with
  | add =>
    simp only [arith, xyn_eq, pure_bind, hx, hy, hset, hflag, hsum, UInt8.ofNat_add,
      UInt8.ofNat_toNat]
    rfl
  | _ =>
    simp only [arith, xyn_eq, pure_bind, hx, hy, hset, hflag, AluOp.flag?]
    rfl

/-! ## Sprites -/

/-- Draws the pixel in column `c` of a byte of a sprite in a masked row, and notes whether that
erases one. -/
def plot (b : UInt8) (x row : Nat) (p : Display × Bool) (c : Nat) :
    Except Fault (Display × Bool) := do
  let k ← sub 7 c
  let k ← shift 8 k
  if b.toNat.testBit k then
    let column ← add 64 x c
    let above ← mul 64 row Display.width
    let i ← add 64 (column % Display.width) above
    let lit ← p.1.get? i
    let d ← p.1.flip? i
    return (d, p.2 || lit)
  else return p

/-- Draws row `r` of the sprite at an address, with its upper left corner at `(x, y)`. -/
def plotRow (m : Memory) (a x y : Nat) (p : Display × Bool) (r : Nat) :
    Except Fault (Display × Bool) := do
  let i ← place a r
  let b ← m.get? i
  let row ← add 64 y r
  (List.range 8).foldlM (plot b x (row % Display.height)) p

/-- Draws the sprite at the index register. -/
def draw (s : State) : Except Fault State := do
  let (x, y, n) ← xyn s
  let a ← reg s x
  let b ← reg s y
  let (display, erased) ←
    (List.range n).foldlM (plotRow s.memory s.index.toNat a.toNat b.toNat) (s.display, false)
  setReg { s with display } State.flag erased.toUInt8

theorem plot_eq (b : UInt8) {x c : Nat} (y : Nat) (p : Display × Bool) (hx : x < 256) (hc : c < 8) :
    plot b x (y % Display.height) p c = pure (Display.plot b x y p c) := by
  have hrow : y % 32 < 32 := Nat.mod_lt _ (by decide)
  have hcolumn : (x + c) % 64 < 64 := Nat.mod_lt _ (by decide)
  have hplace : (x + c) % Display.width + y % Display.height * Display.width =
      Display.place (x + c) y := rfl
  have hbit : b.toNat.testBit (7 - c) = Sprite.bit b c := by
    rw [Sprite.bit, BitVec.getMsbD, decide_eq_true hc, Bool.true_and]
    rfl
  rw [plot, sub_eq (by omega), pure_bind, shift_eq (by omega), pure_bind, hbit, Display.plot]
  split
  · rw [add_eq (by omega), pure_bind, mul_eq (by simp only [Display.width, Display.height]; omega),
      pure_bind, add_eq (by simp only [Display.width, Display.height]; omega), pure_bind, hplace,
      Display.get?_place, pure_bind, Display.flip?_place, pure_bind]
  · rfl

theorem plotRow_eq (m : Memory) {a x y r : Nat} (p : Display × Bool) (ha : a < 2 ^ 16)
    (hx : x < 256) (hy : y < 256) (hr : r < 16) :
    plotRow m a x y p r = pure (Display.plotRow (m.get (a + r)) x (y + r) p) := by
  have hbyte : m.get? ((a + r) % 4096) = pure (m.get (a + r)) := Bank.get?_mod m _
  rw [plotRow, place_eq (by omega), pure_bind, hbyte, pure_bind, add_eq (by omega), pure_bind]
  exact foldlM_eq p fun c hc p => plot_eq _ _ p hx (List.mem_range.1 hc)

theorem draw_eq (s : State) : draw s =
    pure ({ s with display := s.display.draw s.sprite }.setFlag (s.display.collides s.sprite)) := by
  have hx := reg_eq s (s.memory.x_lt s.pc.toNat)
  have hy := reg_eq s (s.memory.y_lt s.pc.toNat)
  have hn := s.memory.n_lt s.pc.toNat
  have hrows : (List.range (s.memory.n s.pc.toNat)).foldlM
      (plotRow s.memory s.index.toNat s.sprite.x s.sprite.y) (s.display, false) =
      pure (s.display.draw s.sprite, s.display.collides s.sprite) := by
    have hall := Display.foldl_plotRows (fun r => s.memory.get (s.index.toNat + r)) s.sprite.x
      s.sprite.y (s.display, false) (n := s.memory.n s.pc.toNat) (by omega)
    rw [Bool.false_or] at hall
    refine (foldlM_eq (s.display, false) fun r hr p => ?_).trans (congrArg pure hall)
    exact plotRow_eq _ p s.index.toNat_lt (UInt8.toNat_lt _) (UInt8.toNat_lt _)
      (Nat.lt_trans (List.mem_range.1 hr) hn)
  simp only [draw, xyn_eq, pure_bind, hx, hy]
  rw [show (s.reg (s.memory.x s.pc.toNat)).toNat = s.sprite.x from rfl,
    show (s.reg (s.memory.y s.pc.toNat)).toNat = s.sprite.y from rfl, hrows, pure_bind]
  exact setReg_eq _ (by decide) _

/-! ## Instructions -/

def awaitKey (s : State) : Except Fault Effect :=
  match s.pending with
  | some k => do
    let loaded ← setReg s (← x s) k.toByte
    return { state := { loaded with pending := none, blocked := false }.next
             log := #[.satisfied k] }
  | none =>
    return { state := { s with blocked := true }
             signal := .awaitKey
             log := if s.blocked then #[] else #[.blocked s.pc] }

def execute (i : Instruction) (s : State) : Except Fault Effect :=
  match i with
  | .illegal => return { state := s.next }
  | .clear => return { state := { s with display := .blank }.next, signal := .redraw }
  | .ret => do
    let (pc, stack) ← s.stack.pop?
    return { state := { s with pc, stack } }
  | .jump => do
    let pc ← nnn s
    return { state := { s with pc } }
  | .call => do
    let pc ← nnn s
    let stack ← s.stack.push? (s.pc + 2)
    return { state := { s with pc, stack } }
  | .skip c => do
    let taken ← holds c s
    return { state := { s with pc := s.pc + if taken then 4 else 2 } }
  | .loadByte => do
    let (x, kk) ← xkk s
    return { state := (← setReg s x kk).next }
  | .addByte => do
    let (x, kk) ← xkk s
    let v ← reg s x
    return { state := (← setReg s x (v + kk)).next }
  | .alu op => do return { state := (← arith (.alu op) s).next }
  | .loadIndex => do
    let index ← nnn s
    return { state := { s with index }.next }
  | .jumpOffset => do
    let a ← nnn s
    let v ← reg s 0
    -- The target is not masked, so the sum itself must fit.
    let sum ← add 16 a.toNat v.toNat
    return { state := { s with pc := UInt16.ofNat sum } }
  | .random => do
    let (x, kk) ← xkk s
    return { state := (← setReg { s with random := s.random.next } x (kk &&& s.random.byte)).next }
  | .draw => do return { state := (← draw s).next, signal := .redraw }
  | .readDelay => do return { state := (← setReg s (← x s) s.delay).next }
  | .awaitKey => awaitKey s
  | .setDelay => do
    let delay ← reg s (← x s)
    return { state := { s with delay }.next }
  | .setSound => do
    let sound ← reg s (← x s)
    return { state := { s with sound }.next }
  | .addIndex => do
    let v ← reg s (← x s)
    return { state := { s with index := s.index + v.toUInt16 }.next }
  | .glyph => do
    let v ← reg s (← x s)
    let offset ← mul 16 v.toNat Font.height
    let a ← add 16 0 offset
    return { state := { s with index := UInt16.ofNat a }.next }
  | .decimal => do
    let digits := decimalDigits (← reg s (← x s))
    let memory ← s.memory.copy? 3 (element? digits) (place s.index.toNat)
    return { state := { s with memory }.next }
  | .store => do
    let x ← x s
    let memory ← s.memory.copy? (x + 1) (reg s) (place s.index.toNat)
    return { state := { s with memory }.next }
  | .load => do
    let x ← x s
    let read := fun k => do s.memory.get? (← place s.index.toNat k)
    -- Addresses are masked, register numbers are not.
    let registers ← s.registers.copy? (x + 1) read pure
    return { state := { s with registers }.next }

theorem awaitKey_eq (s : State) : awaitKey s = pure (Instruction.executeAwaitKey s) := by
  rw [awaitKey, Instruction.executeAwaitKey]
  cases s.pending with
  | none => rfl
  | some k =>
    have hset := setReg_eq s (s.memory.x_lt s.pc.toNat) k.toByte
    simp only [x_eq, pure_bind, hset]

/-- The offset of a jump is added without overflow. -/
theorem add_nnn_eq (m : Memory) (a : Nat) (v : UInt8) :
    add 16 (m.nnn a).toNat v.toNat = pure ((m.nnn a).toNat + v.toNat) := by
  have := m.toNat_nnn_lt a
  have := v.toNat_lt
  exact add_eq (by omega)

theorem mul_height_eq (v : UInt8) : mul 16 v.toNat Font.height = pure (v.toNat * Font.height) := by
  have := v.toNat_lt
  exact mul_eq (by simp only [Font.height]; omega)

theorem add_zero_eq (v : UInt8) :
    add 16 0 (v.toNat * Font.height) = pure (v.toNat * Font.height) := by
  have := v.toNat_lt
  rw [add_eq (by simp only [Font.height]; omega), Nat.zero_add]

theorem place_index_eq (s : State) {k : Nat} (hk : k < 16) :
    place s.index.toNat k = pure ((s.index.toNat + k) % 4096) := by
  have := s.index.toNat_lt
  exact place_eq (by omega)

/-- **No instruction meets a fault.** -/
theorem execute_eq (i : Instruction) {s : State} (hsp : s.stack.sp < 16) :
    execute i s = pure (i.execute s) := by
  have hlt := s.memory.x_lt s.pc.toNat
  have hx := reg_eq s hlt
  have hset := fun v => setReg_eq s hlt v
  -- Register numbers are hexadecimal digits; only a call needs the stack pointer in range.
  cases i with
  | illegal | clear => rfl
  | ret => rw [execute, CallStack.pop?_eq, pure_bind]; rfl
  | jump | loadIndex => rw [execute, nnn_eq, pure_bind]; rfl
  | call => rw [execute, nnn_eq, pure_bind, CallStack.push?_eq hsp, pure_bind]; rfl
  | skip c => rw [execute, holds_eq, pure_bind]; rfl
  | loadByte | addByte => simp only [execute, xkk_eq, pure_bind, hx, hset]; rfl
  | alu op => rw [execute, arith_eq, pure_bind]; rfl
  | jumpOffset =>
    simp only [execute, nnn_eq, pure_bind, reg_eq s (i := 0) (by decide), add_nnn_eq,
      UInt16.ofNat_add, UInt16.ofNat_toNat, UInt16.ofNat_uInt8ToNat]
    rfl
  | random =>
    have hset' := setReg_eq { s with random := s.random.next } hlt
    simp only [execute, xkk_eq, pure_bind, hset']
    rfl
  | draw => rw [execute, draw_eq, pure_bind]; rfl
  | readDelay => simp only [execute, x_eq, pure_bind, hset]; rfl
  | awaitKey => exact awaitKey_eq s
  | setDelay | setSound | addIndex => simp only [execute, x_eq, pure_bind, hx]; rfl
  | glyph => simp only [execute, x_eq, pure_bind, hx, mul_height_eq, add_zero_eq]; rfl
  | decimal =>
    have hcopy : s.memory.copy? 3 (element? (decimalDigits (s.reg (s.memory.x s.pc.toNat))))
        (place s.index.toNat) =
        pure (s.memory.write s.index.toNat (decimalDigits (s.reg (s.memory.x s.pc.toNat)))) :=
      Bank.copy?_element? _ _ fun k (hk : k < 3) => place_index_eq s (by omega)
    simp only [execute, x_eq, pure_bind, hx, hcopy]
    rfl
  | store =>
    have hcopy : s.memory.copy? (s.memory.x s.pc.toNat + 1) (reg s) (place s.index.toNat) =
        pure (s.memory.write s.index.toNat
          (s.registers.window 0 (s.memory.x s.pc.toNat + 1))) := by
      have hread : ∀ k < s.memory.x s.pc.toNat + 1, reg s k = pure (s.registers.get (0 + k)) := by
        intro k hk
        rw [Nat.zero_add]
        exact reg_eq s (by omega)
      exact Bank.copy?_eq _ hread fun k hk => place_index_eq s (by omega)
    simp only [execute, x_eq, pure_bind, hcopy]
    rfl
  | load =>
    have hcopy : s.registers.copy? (s.memory.x s.pc.toNat + 1)
        (fun k => do s.memory.get? (← place s.index.toNat k)) pure =
        pure (s.registers.write 0
          (s.memory.window s.index.toNat (s.memory.x s.pc.toNat + 1))) := by
      refine Bank.copy?_eq _ (fun k hk => ?_) fun k hk => ?_
      · rw [place_index_eq s (by omega), pure_bind]
        exact Bank.get?_mod _ _
      · rw [Nat.zero_add, Nat.mod_eq_of_lt (by omega)]
    simp only [execute, x_eq, pure_bind, hcopy]
    rfl

end Checked

end ChipEight
