import ChipEight.Machine.Command
import ChipEight.Proofs.Pixels
import Mathlib.Algebra.BigOperators.Intervals
import Mathlib.Algebra.BigOperators.Group.Finset.Sigma
import Mathlib.Data.Finset.SymmDiff

/-!
# What a draw does to every pixel

Drawing a sprite is an exclusive or with a picture that does not depend on the display
(`Display.pixel_draw`). The bits of a sprite that is no higher than the screen fall on different
pixels (`Sprite.place_injOn`), so the pixels that change are those covered by a set bit, and a lit
pixel among them is a collision (`Display.collides_iff`). The lit pixels are then a symmetric
difference, which counts them (`Display.card_lit_draw`). `draw_exact` says all this of the draw
instruction.
-/

set_option autoImplicit false

namespace ChipEight

/-! ## The picture of a sprite -/

namespace Sprite

/-- Whether drawing rows with the upper left corner at `(x, y)` changes a pixel. A sprite higher
than the screen comes back to its first rows and may change a pixel again. -/
def flips (x y px py : Nat) : List UInt8 → Bool
  | [] => false
  | b :: bs =>
    (decide (py % 32 = y % 32) && bit b (Display.column x px)) ^^ flips x (y + 1) px py bs

/-- In a sprite no higher than the screen at most one row falls on a pixel. -/
theorem flips_iff {x y px py : Nat} {bs : List UInt8} (h : bs.length ≤ 32) :
    flips x y px py bs = true ↔
      ∃ r b, bs[r]? = some b ∧ py % 32 = (y + r) % 32 ∧ bit b (Display.column x px) = true := by
  induction bs generalizing y with
  | nil => simp [flips]
  | cons b bs ih =>
    have hlen : bs.length < 32 := h
    have ih := ih (y := y + 1) (Nat.le_of_lt hlen)
    rw [flips]
    by_cases hy : py % 32 = y % 32
    · -- The first row falls on the pixel, and fewer than 32 rows follow.
      have hrest : flips x (y + 1) px py bs = false := by
        rw [Bool.eq_false_iff, Ne, ih]
        rintro ⟨r, b', hr, hpy, -⟩
        have := (List.getElem?_eq_some_iff.1 hr).1
        omega
      rw [decide_eq_true hy, hrest, Bool.true_and, Bool.xor_false]
      constructor
      · intro hbit
        exact ⟨0, b, rfl, hy, hbit⟩
      · rintro ⟨r, b', hr, hpy, hbit⟩
        have hlt := (List.getElem?_eq_some_iff.1 hr).1
        rw [List.length_cons] at hlt
        obtain rfl : r = 0 := by omega
        obtain rfl : b = b' := by simpa using hr
        exact hbit
    · rw [decide_eq_false hy, Bool.false_and, Bool.false_xor, ih]
      constructor
      · rintro ⟨r, b', hr, hpy, hbit⟩
        exact ⟨r + 1, b', hr, by rw [hpy]; congr 1; omega, hbit⟩
      · rintro ⟨r, b', hr, hpy, hbit⟩
        cases r with
        | zero => exact absurd hpy hy
        | succ r => exact ⟨r, b', hr, by rw [hpy]; congr 1; omega, hbit⟩

theorem bit_column_iff {b : UInt8} {x px : Nat} :
    bit b (Display.column x px) = true ↔ ∃ c < 8, px % 64 = (x + c) % 64 ∧ bit b c = true := by
  constructor
  · intro h
    have hlt : Display.column x px < 8 := by
      refine Nat.lt_of_not_le fun hge => ?_
      rw [bit_of_le hge] at h
      cases h
    exact ⟨_, hlt, (Display.column_eq_iff (Display.column_lt x px)).1 rfl, h⟩
  · rintro ⟨c, hc, hpx, h⟩
    rwa [(Display.column_eq_iff (by omega)).2 hpx]

/-- The set bits of a sprite, each with its row and its column. -/
def bits (s : Sprite) : Finset (Nat × Nat) :=
  (Finset.range s.rows.length ×ˢ Finset.range 8).filter fun p => bit (s.rows.getD p.1 0) p.2

/-- The pixel that the bit in row `p.1` and column `p.2` falls on. -/
def place (s : Sprite) (p : Nat × Nat) : Nat × Nat := ((s.x + p.2) % 64, (s.y + p.1) % 32)

/-- The pixels covered by a set bit. -/
def cells (s : Sprite) : Finset (Nat × Nat) := s.bits.image s.place

theorem mem_bits {s : Sprite} {p : Nat × Nat} :
    p ∈ s.bits ↔ p.2 < 8 ∧ ∃ b, s.rows[p.1]? = some b ∧ bit b p.2 = true := by
  simp only [bits, Finset.mem_filter, Finset.mem_product, Finset.mem_range,
    List.getD_eq_getElem?_getD]
  constructor
  · rintro ⟨⟨hr, hc⟩, hbit⟩
    have hb := List.getElem?_eq_getElem hr
    rw [hb] at hbit
    exact ⟨hc, _, hb, hbit⟩
  · rintro ⟨hc, b, hb, hbit⟩
    rw [hb]
    exact ⟨⟨(List.getElem?_eq_some_iff.1 hb).1, hc⟩, hbit⟩

theorem place_injOn {s : Sprite} (h : s.rows.length ≤ 32) : Set.InjOn s.place s.bits := by
  rintro ⟨r, c⟩ hp ⟨r', c'⟩ hq heq
  obtain ⟨hc, b, hb, -⟩ := mem_bits.1 hp
  obtain ⟨hc', b', hb', -⟩ := mem_bits.1 hq
  have hr := (List.getElem?_eq_some_iff.1 hb).1
  have hr' := (List.getElem?_eq_some_iff.1 hb').1
  simp only [place, Prod.mk.injEq] at heq hc hc' hr hr' ⊢
  omega

theorem lt_of_mem_cells {s : Sprite} {p : Nat × Nat} (h : p ∈ s.cells) : p.1 < 64 ∧ p.2 < 32 := by
  obtain ⟨q, -, rfl⟩ := Finset.mem_image.1 h
  simp only [place]
  omega

theorem flips_iff_mem_cells {s : Sprite} (h : s.rows.length ≤ 32) {px py : Nat} (hx : px < 64)
    (hy : py < 32) : flips s.x s.y px py s.rows = true ↔ (px, py) ∈ s.cells := by
  simp only [flips_iff h, bit_column_iff, Nat.mod_eq_of_lt hx, Nat.mod_eq_of_lt hy, cells,
    Finset.mem_image, mem_bits, place, Prod.mk.injEq, Prod.exists]
  constructor
  · rintro ⟨r, b, hr, hpy, c, hc, hpx, hbit⟩
    exact ⟨r, c, ⟨hc, b, hr, hbit⟩, hpx.symm, hpy.symm⟩
  · rintro ⟨r, c, ⟨hc, b, hr, hbit⟩, hpx, hpy⟩
    exact ⟨r, b, hr, hpy.symm, c, hc, hpx.symm, hbit⟩

/-- The set bits of a sprite, counted row by row. -/
theorem card_bits (s : Sprite) :
    s.bits.card =
      ∑ r ∈ Finset.range s.rows.length,
        ((Finset.range 8).filter fun c => bit (s.rows.getD r 0) c).card := by
  rw [bits, Finset.card_filter, Finset.sum_product]
  simp only [Finset.card_filter]

end Sprite

/-! ## Drawing -/

namespace Display

/-- **A draw is an exclusive or** with the picture of the sprite. -/
theorem pixel_draw (d : Display) (s : Sprite) (px py : Nat) :
    (d.draw s).pixel px py = (d.pixel px py ^^ Sprite.flips s.x s.y px py s.rows) := by
  obtain ⟨x, y, bs⟩ := s
  induction bs generalizing d y with
  | nil => exact (Bool.xor_false _).symm
  | cons b bs ih =>
    have hrow := pixel_xorRow d y (stripe b x) px py
    rw [getMsbD_stripe b x (Nat.mod_lt _ (by decide)), column_mod] at hrow
    exact (ih (d.xorRow y (stripe b x)) (y + 1)).trans (by rw [hrow, Bool.xor_assoc, Sprite.flips])

theorem overlaps_iff {d : Display} {x y : Nat} {bs : List UInt8} :
    d.overlaps x y bs = true ↔
      ∃ r b, bs[r]? = some b ∧ ∃ c < 8, Sprite.bit b c = true ∧ d.pixel (x + c) (y + r) = true := by
  induction bs generalizing y with
  | nil => simp [overlaps]
  | cons b bs ih =>
    rw [overlaps, Bool.or_eq_true, ih, ← any_bit, List.any_eq_true]
    simp only [List.mem_range, Bool.and_eq_true]
    constructor
    · rintro (hfirst | ⟨r, b', hr, c, hc, hbit, hlit⟩)
      · exact ⟨0, b, rfl, hfirst⟩
      · refine ⟨r + 1, b', hr, c, hc, hbit, ?_⟩
        rwa [show y + (r + 1) = y + 1 + r by omega]
    · rintro ⟨r, b', hr, c, hc, hbit, hlit⟩
      cases r with
      | zero =>
        obtain rfl : b = b' := by simpa using hr
        exact .inl ⟨c, hc, hbit, hlit⟩
      | succ r =>
        refine .inr ⟨r, b', hr, c, hc, hbit, ?_⟩
        rwa [show y + 1 + r = y + (r + 1) by omega]

/-- The lit pixels. -/
@[irreducible] def lit (d : Display) : Finset (Nat × Nat) :=
  (Finset.range width ×ˢ Finset.range height).filter fun p => d.pixel p.1 p.2

theorem mem_lit {d : Display} {p : Nat × Nat} :
    p ∈ d.lit ↔ (p.1 < 64 ∧ p.2 < 32) ∧ d.pixel p.1 p.2 = true := by
  unfold lit
  rw [Finset.mem_filter, Finset.mem_product, Finset.mem_range, Finset.mem_range]
  rfl

theorem collides_iff {d : Display} {s : Sprite} :
    d.collides s = true ↔ ∃ p ∈ s.cells, d.pixel p.1 p.2 = true := by
  have hwrap (c r : Nat) : d.pixel ((s.x + c) % 64) ((s.y + r) % 32) =
      d.pixel (s.x + c) (s.y + r) :=
    d.pixel_congr (Nat.mod_mod _ _) (Nat.mod_mod _ _)
  simp only [collides, overlaps_iff, Sprite.cells, Finset.exists_mem_image, Sprite.mem_bits,
    Sprite.place, hwrap, Prod.exists]
  constructor
  · rintro ⟨r, b, hr, c, hc, hbit, hlit⟩
    exact ⟨r, c, ⟨hc, b, hr, hbit⟩, hlit⟩
  · rintro ⟨r, c, ⟨hc, b, hr, hbit⟩, hlit⟩
    exact ⟨r, b, hr, c, hc, hbit, hlit⟩

/-- The covered pixels that are lit. -/
theorem lit_inter_cells (d : Display) (s : Sprite) :
    d.lit ∩ s.cells = s.cells.filter fun p => d.pixel p.1 p.2 := by
  ext p
  rw [Finset.mem_inter, Finset.mem_filter, mem_lit]
  constructor
  · rintro ⟨⟨-, hlit⟩, hcell⟩
    exact ⟨hcell, hlit⟩
  · rintro ⟨hcell, hlit⟩
    exact ⟨⟨Sprite.lt_of_mem_cells hcell, hlit⟩, hcell⟩

open scoped symmDiff

theorem lit_draw {d : Display} {s : Sprite} (h : s.rows.length ≤ 32) :
    (d.draw s).lit = d.lit ∆ s.cells := by
  ext ⟨px, py⟩
  rw [Finset.mem_symmDiff, mem_lit, mem_lit, pixel_draw, bne_iff_ne]
  by_cases hin : px < 64 ∧ py < 32
  · rw [← Sprite.flips_iff_mem_cells h hin.1 hin.2]
    cases d.pixel px py <;> cases Sprite.flips s.x s.y px py s.rows <;> simp [hin]
  · have hout : (px, py) ∉ s.cells := fun hmem => hin (Sprite.lt_of_mem_cells hmem)
    simp [hin, hout]

/-- Lit pixels after a draw: every set bit lights one, but for those that erase one. -/
theorem card_lit_draw {d : Display} {s : Sprite} (h : s.rows.length ≤ 32) :
    (d.draw s).lit.card + 2 * (d.lit ∩ s.cells).card = d.lit.card + s.bits.card := by
  have hcells : s.cells.card = s.bits.card := Finset.card_image_of_injOn (Sprite.place_injOn h)
  have hold := Finset.card_sdiff_add_card_inter d.lit s.cells
  have hnew := Finset.card_sdiff_add_card_inter s.cells d.lit
  rw [Finset.inter_comm] at hnew
  rw [lit_draw h, Finset.symmDiff_def, Finset.card_union_of_disjoint disjoint_sdiff_sdiff]
  omega

end Display

/-! ## The draw instruction -/

namespace State

/-- The pixel for bit `c` of row `r`, counted from the left, of the sprite that a draw at the
program counter describes. -/
def spot (s : State) (r c : Nat) : Nat × Nat :=
  (((s.reg (s.memory.x s.pc.toNat)).toNat + c) % 64,
    ((s.reg (s.memory.y s.pc.toNat)).toNat + r) % 32)

/-- Byte `r` of that sprite. -/
def spriteByte (s : State) (r : Nat) : UInt8 := s.memory.get ((s.index.toNat + r) % 4096)

/-- Whether a set bit of that sprite falls on a pixel. -/
def Covers (s : State) (p : Nat × Nat) : Prop :=
  ∃ r < s.memory.n s.pc.toNat, ∃ c < 8, p = s.spot r c ∧ (s.spriteByte r).toNat.testBit (7 - c)

instance (s : State) (p : Nat × Nat) : Decidable (s.Covers p) :=
  inferInstanceAs (Decidable (∃ r < _, ∃ c < 8, _ ∧ _))

theorem length_rows_sprite (s : State) : s.sprite.rows.length = s.memory.n s.pc.toNat :=
  Bank.length_window _ _ _

/-- Sprites are at most fifteen rows high, and the screen has 32. -/
theorem length_rows_sprite_le (s : State) : s.sprite.rows.length ≤ 32 := by
  have hn := s.memory.n_lt s.pc.toNat
  rw [length_rows_sprite]
  omega

theorem getElem?_rows_sprite (s : State) {r : Nat} (h : r < s.memory.n s.pc.toNat) :
    s.sprite.rows[r]? = some (s.spriteByte r) := by
  rw [sprite, Bank.window, List.getElem?_map, List.getElem?_range h, spriteByte, Bank.get_mod]
  rfl

end State

/-- How many bits of a byte are set. -/
def bitCount (b : UInt8) : Nat := ((Finset.range 8).filter fun i => b.toNat.testBit i).card

theorem Sprite.bit_eq_testBit (b : UInt8) {c : Nat} (h : c < 8) :
    bit b c = b.toNat.testBit (7 - c) := by
  rw [bit, BitVec.getMsbD_eq_getLsbD, decide_eq_true h, Bool.true_and]
  rfl

/-- Bit `c` from the left is bit `7 - c` from the right, so there are as many either way. -/
theorem Sprite.card_bit (b : UInt8) :
    ((Finset.range 8).filter fun c => bit b c).card = bitCount b := by
  rw [bitCount, Finset.card_filter, Finset.card_filter, ← Finset.sum_range_reflect]
  refine Finset.sum_congr rfl fun c hc => ?_
  have hc := Finset.mem_range.1 hc
  rw [bit_eq_testBit b (by omega), show 7 - (8 - 1 - c) = c by omega]

namespace State

theorem mem_cells_sprite {s : State} {p : Nat × Nat} : p ∈ s.sprite.cells ↔ s.Covers p := by
  simp only [Sprite.cells, Finset.mem_image, Sprite.mem_bits, Prod.exists]
  constructor
  · rintro ⟨r, c, ⟨hc, b, hr, hbit⟩, rfl⟩
    have hlt := (List.getElem?_eq_some_iff.1 hr).1
    rw [length_rows_sprite] at hlt
    obtain rfl : s.spriteByte r = b := by simpa [getElem?_rows_sprite s hlt] using hr
    exact ⟨r, hlt, c, hc, rfl, by rwa [← Sprite.bit_eq_testBit _ hc]⟩
  · rintro ⟨r, hr, c, hc, rfl, hbit⟩
    rw [← Sprite.bit_eq_testBit _ hc] at hbit
    exact ⟨r, c, ⟨hc, _, getElem?_rows_sprite s hr, hbit⟩, rfl⟩

theorem card_bits_sprite (s : State) :
    s.sprite.bits.card = ∑ r ∈ Finset.range (s.memory.n s.pc.toNat), bitCount (s.spriteByte r) := by
  rw [Sprite.card_bits, length_rows_sprite]
  refine Finset.sum_congr rfl fun r hr => ?_
  rw [List.getD_eq_getElem?_getD, getElem?_rows_sprite s (Finset.mem_range.1 hr),
    Option.getD_some, Sprite.card_bit]

/-- The lit pixels that a draw erases. -/
def erased (s : State) : Finset (Nat × Nat) := s.display.lit.filter s.Covers

theorem erased_eq (s : State) : s.erased = s.display.lit ∩ s.sprite.cells := by
  ext p
  rw [erased, Finset.mem_filter, Finset.mem_inter, mem_cells_sprite]

theorem collides_sprite (s : State) : s.display.collides s.sprite = decide s.erased.Nonempty := by
  rw [Bool.eq_iff_iff, Display.collides_iff, decide_eq_true_eq, erased_eq, Display.lit_inter_cells,
    Finset.filter_nonempty_iff]

theorem pixel_draw_sprite (s : State) {px py : Nat} (hx : px < 64) (hy : py < 32) :
    (s.display.draw s.sprite).pixel px py =
      (s.display.pixel px py ^^ decide (s.Covers (px, py))) := by
  have hflips := Sprite.flips_iff_mem_cells s.length_rows_sprite_le hx hy
  rw [mem_cells_sprite] at hflips
  rw [Display.pixel_draw, Bool.eq_iff_iff.2 (hflips.trans decide_eq_true_iff.symm)]

end State

/-- A running machine whose next instruction is a draw executes it and stops. -/
theorem Machine.perform_step_draw {m : Machine} (hrun : m.state.blocked = false)
    (hdraw : m.instructionAt m.state.pc.toNat = .draw) :
    m.perform (.step 1) =
      { machine := m.withState
          { m.state with
            pc := m.state.pc + 2
            registers := m.state.registers.set State.flag
              (m.state.display.collides m.state.sprite).toUInt8
            display := m.state.display.draw m.state.sprite }
        reply := .ran .redraw } := by
  have hnext : m.table.get m.state.pc.toNat = .draw := hdraw
  have hgo : ¬m.state.blocked = true := by simp [hrun]
  rw [perform, run, Batch.advance, if_neg hgo, Batch.advance, Batch.next, hnext]
  simp only [Batch.signal, Instruction.execute, State.next, State.setFlag, State.setReg, hrun]
  rfl

/-- **A draw, pixel by pixel.** A draw instruction changes exactly the pixels that a set bit of its
sprite falls on, sets the flag to whether one of them was lit, moves on to the next instruction and
does nothing else. Its coordinates are those before the flag is written. No two bits fall on one
pixel, so each set bit lights a pixel, but for those that erase one. -/
theorem draw_exact {m : Machine} (hrun : m.state.blocked = false)
    (hdraw : m.instructionAt m.state.pc.toNat = .draw) :
    let s := m.state
    let n := s.memory.n s.pc.toNat
    (∃ display : Display,
      m.perform (.step 1) =
        { machine := m.withState
            { s with
              pc := s.pc + 2
              registers := s.registers.set State.flag (if s.erased.Nonempty then 1 else 0)
              display }
          reply := .ran .redraw } ∧
      (∀ px < 64, ∀ py < 32,
        display.pixel px py = (s.display.pixel px py ^^ decide (s.Covers (px, py)))) ∧
      display.lit.card + 2 * s.erased.card =
        s.display.lit.card + ∑ r ∈ Finset.range n, bitCount (s.spriteByte r)) ∧
    ∀ r < n, ∀ r' < n, ∀ c < 8, ∀ c' < 8, s.spot r c = s.spot r' c' → r = r' ∧ c = c' := by
  intro s n
  have hn : n < 16 := s.memory.n_lt s.pc.toNat
  refine ⟨⟨s.display.draw s.sprite, ?_, fun px hx py hy => ?_, ?_⟩, ?_⟩
  · have hflag : (decide s.erased.Nonempty).toUInt8 = if s.erased.Nonempty then 1 else 0 := by
      simp only [Bool.toUInt8, decide_eq_true_eq]
    rw [Machine.perform_step_draw hrun hdraw, State.collides_sprite, hflag]
  · exact s.pixel_draw_sprite hx hy
  · rw [State.erased_eq, Display.card_lit_draw s.length_rows_sprite_le, State.card_bits_sprite]
  · intro r hr r' hr' c hc c' hc' hspot
    simp only [State.spot, Prod.mk.injEq] at hspot
    omega

/-- A sprite in the lower right corner, and a second one for which the flag register gives both
coordinates. The second wraps around both edges, its bytes around the end of memory, and it erases
the one pixel that both cover. -/
theorem draw_exact_wrapping :
    let m := ((Machine.new (some 7) default).performAll [.load [0xD0, 0x03, 0xDF, 0xF3] default,
      .setRegister 0 61, .setIndex 0xFFF, .step 1, .setRegister 15 62]).1
    m.state.blocked = false ∧ m.instructionAt m.state.pc.toNat = .draw ∧
      ∃ display : Display,
        m.perform (.step 1) =
          { machine := m.withState
              { m.state with
                pc := 0x204
                registers := m.state.registers.set State.flag 1
                display }
            reply := .ran .redraw } ∧
        display.pixel 61 31 = true ∧ display.pixel 0 31 = false ∧ display.pixel 1 0 = true ∧
        display.lit.card = m.state.display.lit.card + 4 := by
  intro m
  have hrun : m.state.blocked = false := by decide +kernel
  have hdraw : m.instructionAt m.state.pc.toNat = .draw := by decide +kernel
  obtain ⟨⟨display, hstep, hpixel, hcount⟩, -⟩ := draw_exact hrun hdraw
  have hpc : m.state.pc + 2 = 0x204 := by decide +kernel
  have herased : m.state.erased.card = 1 := by
    rw [State.erased_eq, Display.lit_inter_cells]
    decide +kernel
  have hbits : ∑ r ∈ Finset.range (m.state.memory.n m.state.pc.toNat),
      bitCount (m.state.spriteByte r) = 6 := by decide +kernel
  rw [hpc, if_pos (Finset.card_pos.1 (by omega))] at hstep
  refine ⟨hrun, hdraw, display, hstep, ?_, ?_, ?_, by omega⟩
  · rw [hpixel 61 (by decide) 31 (by decide)]
    decide +kernel
  · rw [hpixel 0 (by decide) 31 (by decide)]
    decide +kernel
  · rw [hpixel 1 (by decide) 0 (by decide)]
    decide +kernel

end ChipEight
