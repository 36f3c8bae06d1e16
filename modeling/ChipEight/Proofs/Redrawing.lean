import ChipEight.Proofs.Drawing
import ChipEight.Proofs.History

/-!
# Draws cancel and commute

What a run leaves on the display, as long as nothing clears it, is what the sprites of its draws
leave when they are drawn one after the other (`Linked.display_after`). Each of them is an exclusive
or with a picture of its own, so their order does not matter (`Display.drawAll_perm`) and two equal
ones cancel wherever they stand (`Display.drawAll_cancel`).
-/

set_option autoImplicit false

namespace ChipEight

namespace Display

theorem draw_right_comm (d : Display) (s t : Sprite) : (d.draw s).draw t = (d.draw t).draw s := by
  refine ext_pixel fun px py => ?_
  simp only [pixel_draw]
  exact Bool.xor_right_comm _ _ _

theorem draw_draw (d : Display) (s : Sprite) : (d.draw s).draw s = d := by
  refine ext_pixel fun px py => ?_
  rw [pixel_draw, pixel_draw, Bool.xor_assoc, Bool.xor_self, Bool.xor_false]

/-- The display after drawing sprites one after the other. -/
def drawAll (d : Display) (ss : List Sprite) : Display := ss.foldl draw d

theorem drawAll_append (d : Display) (ss ts : List Sprite) :
    d.drawAll (ss ++ ts) = (d.drawAll ss).drawAll ts := List.foldl_append

theorem drawAll_perm (d : Display) {ss ts : List Sprite} (h : ss.Perm ts) :
    d.drawAll ss = d.drawAll ts :=
  h.foldl_eq' (fun s _ t _ d => d.draw_right_comm s t) d

/-- Two equal sprites may be left out. -/
theorem drawAll_cancel (d : Display) (s : Sprite) (as bs cs : List Sprite) :
    d.drawAll (as ++ s :: bs ++ s :: cs) = d.drawAll (as ++ bs ++ cs) := by
  have hfront : (as ++ s :: bs ++ s :: cs).Perm (s :: s :: (as ++ bs ++ cs)) := by
    refine List.perm_middle.trans (.cons s ?_)
    rw [List.append_assoc, List.append_assoc]
    exact List.perm_middle
  rw [d.drawAll_perm hfront, drawAll, List.foldl_cons, List.foldl_cons, draw_draw, drawAll]

end Display

/-! ## The draws of a run -/

namespace Event

/-- The sprite drawn, if the event is a draw. -/
def sprite? (e : Event) : Option Sprite :=
  if e.move = .execute .draw then some e.machine.state.sprite else none

/-- Whether the event clears the display. -/
def wipes (e : Event) : Bool := e.move = .execute .clear || e.restarts

theorem display_after {e : Event} (hv : e.Valid) (hkeep : e.wipes = false) :
    e.after.state.display = e.machine.state.display.drawAll e.sprite?.toList := by
  obtain ⟨m, move⟩ := e
  simp only [wipes, Bool.or_eq_false_iff, decide_eq_false_iff_not] at hkeep
  obtain ⟨hclear, hrestart⟩ := hkeep
  cases move with
  | execute i =>
    show (i.execute m.state).state.display = _
    rw [Instruction.display_execute]
    cases i with
    | clear => exact absurd rfl hclear
    | draw => rfl
    | _ => rfl
  | command c =>
    cases c with
    | reset entropy => cases hrestart
    | load program entropy =>
      rcases m.perform_load program entropy with ⟨hdone, -⟩ | ⟨-, hsame⟩
      · simp [restarts, hdone] at hrestart
      · exact congrArg (·.state.display) hsame
    | step n => exact absurd rfl (hv n)
    | press k | release k => cases k <;> rfl
    | _ => rfl

end Event

/-- **What a run leaves on the display** is what its draws leave. -/
theorem Linked.display_after {m : Machine} {es : List Event} (h : Linked m es)
    (hkeep : ∀ e ∈ es, e.wipes = false) :
    (m.after es).state.display = m.state.display.drawAll (es.filterMap Event.sprite?) := by
  induction h with
  | nil m => rfl
  | @cons e es hv _ ih =>
    have hrest := ih fun e' he' => hkeep e' (List.mem_cons_of_mem _ he')
    have hfirst := Event.display_after hv (hkeep e List.mem_cons_self)
    rw [Machine.after, hrest, hfirst, ← Display.drawAll_append]
    congr 1
    cases hs : e.sprite? <;> simp [hs]

/-! ## Drawing twice -/

namespace State

/-- The next instruction of `t`, if it is a draw, has the operands that one at `s` has, and finds
the same registers but for the flag, the same index and the same bytes. -/
structure SameDraw (s t : State) : Prop where
  x : t.memory.x t.pc.toNat = s.memory.x s.pc.toNat
  y : t.memory.y t.pc.toNat = s.memory.y s.pc.toNat
  n : t.memory.n t.pc.toNat = s.memory.n s.pc.toNat
  registers : ∀ k < flag, t.reg k = s.reg k
  index : t.index = s.index
  bytes : ∀ r < s.memory.n s.pc.toNat, t.spriteByte r = s.spriteByte r

/-- The sprite is the same if the flag is not one of its coordinates. -/
theorem SameDraw.sprite_eq {s t : State} (h : s.SameDraw t)
    (hx : s.memory.x s.pc.toNat ≠ flag) (hy : s.memory.y s.pc.toNat ≠ flag) :
    t.sprite = s.sprite := by
  have hx' := s.memory.x_lt s.pc.toNat
  have hy' := s.memory.y_lt s.pc.toNat
  have hrows : t.sprite.rows = s.sprite.rows := by
    refine List.ext_getElem? fun r => ?_
    rcases Nat.lt_or_ge r (s.memory.n s.pc.toNat) with hr | hr
    · rw [getElem?_rows_sprite s hr, getElem?_rows_sprite t (h.n ▸ hr), h.bytes r hr]
    · rw [List.getElem?_eq_none (by rwa [length_rows_sprite, h.n]),
        List.getElem?_eq_none (by rwa [length_rows_sprite])]
  rw [sprite, sprite, Sprite.mk.injEq]
  rw [h.x, h.y, h.registers _ (by simp only [flag] at *; omega),
    h.registers _ (by simp only [flag] at *; omega)]
  exact ⟨rfl, rfl, hrows⟩

/-- Drawn again at once, a sprite erases what it lit the first time. -/
theorem collides_redraw (s : State) :
    (s.display.draw s.sprite).collides s.sprite = true ↔
      ∃ p, s.Covers p ∧ s.display.pixel p.1 p.2 = false := by
  rw [Display.collides_iff]
  refine exists_congr fun p => ?_
  rw [mem_cells_sprite, and_congr_right_iff]
  intro hp
  have hlt := Sprite.lt_of_mem_cells (mem_cells_sprite.2 hp)
  rw [pixel_draw_sprite s hlt.1 hlt.2, decide_eq_true hp, Bool.xor_true, Bool.not_eq_true']

end State

/-- **Draws cancel and commute.** A run that does not clear the display leaves on it what the
sprites of its draws leave, drawn one after the other. Any other order of the sprites gives the same
display, and so does leaving out two equal ones. A draw that is executed again with the same
operands, neither coordinate in the flag register, and with the same registers but for the flag, the
same index and the same bytes, restores the display; its flag tells whether the first one lit a
pixel. -/
theorem draws_cancel_and_commute :
    (∀ (m : Machine) (cs : List Command), (∀ e ∈ m.events cs, e.wipes = false) →
      (m.performAll cs).1.state.display =
        m.state.display.drawAll ((m.events cs).filterMap Event.sprite?)) ∧
    (∀ (d : Display) (ss ts : List Sprite), ss.Perm ts → d.drawAll ss = d.drawAll ts) ∧
    (∀ (d : Display) (s : Sprite) (as bs cs : List Sprite),
      d.drawAll (as ++ s :: bs ++ s :: cs) = d.drawAll (as ++ bs ++ cs)) ∧
    ∀ s t : State, s.SameDraw t → t.display = (Instruction.draw.execute s).state.display →
      s.memory.x s.pc.toNat ≠ State.flag → s.memory.y s.pc.toNat ≠ State.flag →
      (Instruction.draw.execute t).state.display = s.display ∧
        ((Instruction.draw.execute t).state.reg State.flag = 1 ↔
          ∃ p, s.Covers p ∧ s.display.pixel p.1 p.2 = false) := by
  refine ⟨fun m cs hkeep => ?_, fun d ss ts h => d.drawAll_perm h,
    fun d s as bs cs => d.drawAll_cancel s as bs cs, fun s t hsame hdisplay hx hy => ?_⟩
  · rw [← Machine.after_events]
    exact (Linked.events m cs).display_after hkeep
  · have hsprite := hsame.sprite_eq hx hy
    have hdrawn : t.display = s.display.draw s.sprite := hdisplay
    constructor
    · show t.display.draw t.sprite = s.display
      rw [hsprite, hdrawn, Display.draw_draw]
    · have hflag : (Instruction.draw.execute t).state.reg State.flag =
          (t.display.collides t.sprite).toUInt8 := Bank.get_set_self _ _ _
      rw [hflag, hsprite, hdrawn, ← s.collides_redraw]
      cases (s.display.draw s.sprite).collides s.sprite <;> decide

/-- Draws the same glyph twice and sets a timer in between. -/
def glyphTwice : List UInt8 := [0xD0, 0x15, 0xF3, 0x18, 0xD0, 0x15]

/-- The glyph wraps around the lower right corner. The second draw erases all of it. A bar across
it gives the same display whether it is drawn before or after it. -/
theorem draws_cancel_and_commute_glyph :
    let m := ((Machine.new (some 7) default).performAll
      [.load glyphTwice default, .setRegister 0 62, .setRegister 1 30]).1
    let t := (m.step 2).state
    let bar : Sprite := ⟨60, 31, [0xFF]⟩
    (∀ e ∈ m.events [.step 3], e.wipes = false) ∧
      (m.performAll [.step 3]).1.state.display = m.state.display ∧
      m.state.SameDraw t ∧
      (Instruction.draw.execute t).state.display = m.state.display ∧
      (Instruction.draw.execute t).state.reg State.flag = 1 ∧
      m.state.display.drawAll [m.state.sprite, bar] =
        m.state.display.drawAll [bar, m.state.sprite] := by
  intro m t bar
  obtain ⟨hrun, hperm, hcancel, htwice⟩ := draws_cancel_and_commute
  have hkeep : ∀ e ∈ m.events [.step 3], e.wipes = false := by decide +kernel
  have hdraws : (m.events [.step 3]).filterMap Event.sprite? =
      [] ++ m.state.sprite :: [] ++ m.state.sprite :: [] := by decide +kernel
  have hsame : m.state.SameDraw t :=
    ⟨by decide +kernel, by decide +kernel, by decide +kernel, by decide +kernel,
      by decide +kernel, by decide +kernel⟩
  obtain ⟨hrestored, hflag⟩ := htwice m.state t hsame (by decide +kernel) (by decide +kernel)
    (by decide +kernel)
  refine ⟨hkeep, ?_, hsame, hrestored, hflag.2 ⟨(62, 30), ?_, ?_⟩, hperm _ _ _ (.swap _ _ _)⟩
  · rw [hrun m _ hkeep, hdraws, hcancel]
    rfl
  · decide +kernel
  · decide +kernel

/-- With the flag register as a coordinate the second draw goes elsewhere. -/
example : ((Machine.new (some 7) default).performAll
    [.load [0xDF, 0x01, 0xDF, 0x01] default, .setRegister 15 9, .step 2]).1.state.display ≠
      .blank := by
  decide +kernel

end ChipEight
