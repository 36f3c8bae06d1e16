import ChipEight.Display

/-!
# Sprites pixel by pixel

A sprite is drawn by exclusive or of whole rows. Here the same is done one pixel at a time, from
left to right and row by row, changing the pixel and noting whether it was lit (`Display.plot`). The
pixels of a sprite that is no higher than the screen are all different, so that none is seen after
it was changed, and both ways agree (`foldl_plotRows`).
-/

set_option autoImplicit false

namespace ChipEight

/-- Whether a byte of a sprite has its pixel in column `c` set, counted from the left. -/
def Sprite.bit (b : UInt8) (c : Nat) : Bool := b.toBitVec.getMsbD c

theorem Sprite.bit_of_le {b : UInt8} {c : Nat} (h : 8 ≤ c) : Sprite.bit b c = false :=
  BitVec.getMsbD_of_ge _ _ h

namespace Display

/-- The column of a stripe at column `x` that covers column `px`. -/
def column (x px : Nat) : Nat := (px % 64 + 64 - x % 64) % 64

theorem column_lt (x px : Nat) : column x px < 64 := Nat.mod_lt _ (by decide)

theorem column_mod (x px : Nat) : column x (px % 64) = column x px := by
  rw [column, Nat.mod_mod, column]

theorem column_eq_iff {x px c : Nat} (h : c < 64) : column x px = c ↔ px % 64 = (x + c) % 64 := by
  unfold column
  omega

theorem getMsbD_stripe (b : UInt8) (x : Nat) {p : Nat} (h : p < 64) :
    (stripe b x).getMsbD p = Sprite.bit b (column x p) := by
  have hwide : ∀ i, (b.toBitVec ++ 0#56 : BitVec 64).getMsbD i = Sprite.bit b i := by
    intro i
    rw [BitVec.getMsbD_append, BitVec.getMsbD_zero]
    split
    · next hi => exact (Sprite.bit_of_le hi).symm
    · rfl
  rw [stripe, BitVec.getMsbD_rotateRight, hwide, hwide, decide_eq_true h, Bool.true_and, column]
  split <;> congr 1 <;> omega

/-! ## Single pixels -/

theorem pixel_congr (d : Display) {x y x' y' : Nat} (hx : x % 64 = x' % 64)
    (hy : y % 32 = y' % 32) : d.pixel x y = d.pixel x' y' := by
  rw [pixel, pixel, hx, d.rows.get_congr hy]

/-- Displays with the same pixels are equal. -/
theorem ext_pixel {d e : Display} (h : ∀ x y, d.pixel x y = e.pixel x y) : d = e := by
  obtain ⟨rows⟩ := d
  obtain ⟨rows'⟩ := e
  congr 1
  refine Bank.ext_get fun y _ => BitVec.eq_of_getMsbD_eq fun x hx => ?_
  have := h x y
  rwa [pixel, pixel, Nat.mod_eq_of_lt hx] at this

/-- The display with a row replaced by its exclusive or with `v`. -/
def xorRow (d : Display) (y : Nat) (v : BitVec 64) : Display := ⟨d.rows.set y (d.rows.get y ^^^ v)⟩

theorem pixel_xorRow (d : Display) (y : Nat) (v : BitVec 64) (px py : Nat) :
    (d.xorRow y v).pixel px py =
      (d.pixel px py ^^ (decide (py % 32 = y % 32) && v.getMsbD (px % 64))) := by
  rw [pixel, xorRow, Bank.get_set]
  by_cases h : y % 32 = py % 32
  · rw [if_pos h, decide_eq_true h.symm, BitVec.getMsbD_xor, Bool.true_and, d.rows.get_congr h]
    rfl
  · rw [if_neg h, decide_eq_false (Ne.symm h), Bool.false_and, Bool.xor_false]
    rfl

/-- The display with the pixel in column `x` and row `y` changed. -/
def toggle (d : Display) (x y : Nat) : Display := d.xorRow y (BitVec.twoPow 64 (63 - x % 64))

theorem toggle_congr (d : Display) {x y x' y' : Nat} (hx : x % 64 = x' % 64)
    (hy : y % 32 = y' % 32) : d.toggle x y = d.toggle x' y' := by
  rw [toggle, toggle, xorRow, xorRow, hx, d.rows.get_congr hy, d.rows.set_congr _ hy]

theorem pixel_toggle (d : Display) (x y px py : Nat) :
    (d.toggle x y).pixel px py =
      (d.pixel px py ^^ (decide (py % 32 = y % 32) && decide (px % 64 = x % 64))) := by
  have hcol : (BitVec.twoPow 64 (63 - x % 64)).getMsbD (px % 64) = decide (px % 64 = x % 64) := by
    rw [BitVec.getMsbD_twoPow, decide_eq_true (by omega), Bool.true_and]
    exact decide_eq_decide.2 (by omega)
  rw [toggle, pixel_xorRow, hcol]

/-! ## Rows of pixels -/

/-- Draws the pixel in column `c` of a byte with its upper left corner at `(x, y)`, and notes
whether that erases one. -/
def plot (b : UInt8) (x y : Nat) (p : Display × Bool) (c : Nat) : Display × Bool :=
  if Sprite.bit b c then (p.1.toggle (x + c) y, p.2 || p.1.pixel (x + c) y) else p

/-- The pixels of the first columns. -/
theorem foldl_plot (b : UInt8) (x y : Nat) (p : Display × Bool) {k : Nat} (hk : k ≤ 64) :
    (∀ px py, ((List.range k).foldl (plot b x y) p).1.pixel px py =
      (p.1.pixel px py ^^ (decide (py % 32 = y % 32) &&
        (decide (column x px < k) && Sprite.bit b (column x px))))) ∧
    ((List.range k).foldl (plot b x y) p).2 =
      (p.2 || (List.range k).any fun c => Sprite.bit b c && p.1.pixel (x + c) y) := by
  induction k with
  | zero => simp
  | succ k ih =>
    obtain ⟨hpixel, herased⟩ := ih (by omega)
    rw [List.range_succ, List.foldl_append, List.foldl_cons, List.foldl_nil, List.any_append]
    generalize (List.range k).foldl (plot b x y) p = q at hpixel herased ⊢
    -- The pixel in column `k` is not among the first `k`, so it is still what it was.
    have hcol : column x (x + k) = k := (column_eq_iff (by omega)).2 rfl
    have hseen : q.1.pixel (x + k) y = p.1.pixel (x + k) y := by
      rw [hpixel, hcol, decide_eq_false (Nat.lt_irrefl k), Bool.false_and, Bool.and_false,
        Bool.xor_false]
    constructor
    · intro px py
      have hsplit : (decide (column x px < k + 1) && Sprite.bit b (column x px)) =
          ((decide (column x px < k) && Sprite.bit b (column x px)) ^^
            (decide (px % 64 = (x + k) % 64) && Sprite.bit b k)) := by
        have hiff : column x px = k ↔ px % 64 = (x + k) % 64 := column_eq_iff (by omega)
        by_cases hk' : column x px = k
        · rw [decide_eq_true (hiff.1 hk'), hk', decide_eq_false (Nat.lt_irrefl k),
            decide_eq_true (Nat.lt_succ_self k), Bool.false_and, Bool.false_xor]
        · rw [decide_eq_false (mt hiff.2 hk'), Bool.false_and, Bool.xor_false]
          congr 1
          exact decide_eq_decide.2 (by omega)
      rw [hsplit, Bool.and_xor_distrib_left, ← Bool.xor_assoc, ← hpixel, plot]
      by_cases hbit : Sprite.bit b k = true
      · rw [if_pos hbit, pixel_toggle, hbit, Bool.and_true]
      · rw [if_neg hbit, Bool.eq_false_iff.2 hbit, Bool.and_false, Bool.and_false, Bool.xor_false]
    · rw [List.any_cons, List.any_nil, Bool.or_false, ← Bool.or_assoc, ← herased, ← hseen, plot]
      by_cases hbit : Sprite.bit b k = true
      · rw [if_pos hbit, hbit, Bool.true_and]
      · rw [if_neg hbit, Bool.eq_false_iff.2 hbit, Bool.false_and, Bool.or_false]

theorem exists_getMsbD {v : BitVec 64} (h : v ≠ 0#64) : ∃ p, p < 64 ∧ v.getMsbD p = true := by
  refine Classical.byContradiction fun hnone => h (BitVec.eq_of_getMsbD_eq fun p hp => ?_)
  rw [BitVec.getMsbD_zero]
  exact Bool.eq_false_iff.2 fun hlit => hnone ⟨p, hp, hlit⟩

/-- A stripe covers a lit pixel of a row if one of its bits does. -/
theorem any_bit (d : Display) (b : UInt8) (x y : Nat) :
    ((List.range 8).any fun c => Sprite.bit b c && d.pixel (x + c) y) =
      (d.rows.get y &&& stripe b x != 0#64) := by
  rw [Bool.eq_iff_iff, List.any_eq_true, bne_iff_ne]
  constructor
  · rintro ⟨c, hc, h⟩
    rw [Bool.and_eq_true] at h
    have hlt : c < 64 := Nat.lt_trans (List.mem_range.1 hc) (by decide)
    have hcol : column x ((x + c) % 64) = c := (column_eq_iff hlt).2 (Nat.mod_mod _ _)
    intro hzero
    have hbit := congrArg (BitVec.getMsbD · ((x + c) % 64)) hzero
    simp only [BitVec.getMsbD_and, BitVec.getMsbD_zero] at hbit
    rw [getMsbD_stripe b x (Nat.mod_lt _ (by decide)), hcol, h.1, Bool.and_true] at hbit
    exact Bool.false_ne_true (hbit.symm.trans h.2)
  · intro h
    obtain ⟨p, hp, hlit⟩ := exists_getMsbD h
    rw [BitVec.getMsbD_and, getMsbD_stripe b x hp, Bool.and_eq_true] at hlit
    have hcol : column x p < 8 := by
      refine Nat.lt_of_not_le fun hge => ?_
      rw [Sprite.bit_of_le hge] at hlit
      exact Bool.false_ne_true hlit.2
    have hp' : (x + column x p) % 64 = p := by
      rw [← (column_eq_iff (column_lt x p)).1 rfl, Nat.mod_eq_of_lt hp]
    refine ⟨column x p, List.mem_range.2 hcol, ?_⟩
    rw [hlit.2, Bool.true_and, pixel, hp']
    exact hlit.1

/-- Draws the eight pixels of a byte. -/
def plotRow (b : UInt8) (x y : Nat) (p : Display × Bool) : Display × Bool :=
  (List.range 8).foldl (plot b x y) p

/-- Eight pixels are one stripe. -/
theorem plotRow_eq (b : UInt8) (x y : Nat) (p : Display × Bool) :
    plotRow b x y p =
      (p.1.xorRow y (stripe b x), p.2 || p.1.rows.get y &&& stripe b x != 0#64) := by
  obtain ⟨hpixel, herased⟩ := foldl_plot b x y p (k := 8) (by decide)
  refine Prod.ext (ext_pixel fun px py => ?_) ?_
  · rw [plotRow, hpixel, pixel_xorRow, getMsbD_stripe b x (Nat.mod_lt _ (by decide)), column_mod]
    congr 2
    by_cases h : column x px < 8
    · rw [decide_eq_true h, Bool.true_and]
    · rw [Sprite.bit_of_le (Nat.not_lt.1 h), Bool.and_false]
  · rw [plotRow, herased, any_bit]

/-! ## Sprites -/

theorem overlaps_congr {d e : Display} {x y : Nat} {bs : List UInt8}
    (h : ∀ r, r < bs.length → d.rows.get (y + r) = e.rows.get (y + r)) :
    d.overlaps x y bs = e.overlaps x y bs := by
  induction bs generalizing y with
  | nil => rfl
  | cons b bs ih =>
    have hfirst := h 0 (Nat.succ_pos _)
    rw [overlaps, overlaps, ih fun r hr => ?_, ← Nat.add_zero y, hfirst]
    rw [Nat.add_right_comm]
    exact h (r + 1) (Nat.succ_lt_succ hr)

/-- Drawing the rows `f 0`, `f 1`, ... of a sprite one after the other. No row is drawn on before it
is looked at. -/
theorem foldl_plotRows (f : Nat → UInt8) (x y : Nat) (p : Display × Bool) {n : Nat} (h : n ≤ 32) :
    (List.range n).foldl (fun p r => plotRow (f r) x (y + r) p) p =
      (⟨flipRows p.1.rows x y ((List.range n).map f)⟩,
        p.2 || p.1.overlaps x y ((List.range n).map f)) := by
  induction n generalizing f y p with
  | zero => simp [flipRows, overlaps]
  | succ n ih =>
    have hlater : (fun (p : Display × Bool) r => plotRow (f (.succ r)) x (y + .succ r) p) =
        fun p r => plotRow ((f ∘ .succ) r) x (y + 1 + r) p := by
      funext p r
      rw [Nat.add_right_comm]
      rfl
    -- At most 31 rows follow, and none of them is the first one again.
    have hrest : (p.1.xorRow y (stripe (f 0) x)).overlaps x (y + 1)
          ((List.range n).map (f ∘ .succ)) =
        p.1.overlaps x (y + 1) ((List.range n).map (f ∘ .succ)) := by
      refine overlaps_congr fun r hr => Bank.get_set_of_ne _ _ ?_
      simp only [List.length_map, List.length_range] at hr
      omega
    rw [List.range_succ_eq_map, List.foldl_cons, List.foldl_map, List.map_cons, List.map_map,
      hlater, ih _ _ _ (by omega), Nat.add_zero, plotRow_eq (f 0) x y p]
    simp only [hrest, Bool.or_assoc]
    rfl

end Display

end ChipEight
