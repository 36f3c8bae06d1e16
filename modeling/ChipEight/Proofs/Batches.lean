import ChipEight.Proofs.KeyWait
import Mathlib.Data.ENat.Lattice
import Mathlib.Data.Nat.Find

/-!
# Batches

A batch executes instructions until it has as many as it may or the machine blocks, whichever comes
first (`Machine.length_batchEvents`), and reports whether it has drawn. Where a batch is cut in two
makes no difference to the state, the log or the report, also where the cut lies just before or
after the instruction that blocks (`batches_compose`).
-/

set_option autoImplicit false

namespace ChipEight

/-- The execution of an instruction that changes the display: a clear or a draw. -/
def Event.draws (e : Event) : Bool := e.move = .execute .clear || e.move = .execute .draw

/-! ## Two batches in a row -/

namespace Batch

/-- A batch and another one from where it ends. -/
def append (b c : Batch) : Batch :=
  { state := c.state, drew := b.drew || c.drew, log := b.log ++ c.log }

theorem next_eq_append (table : Table) (b : Batch) :
    b.next table = b.append (({ state := b.state } : Batch).next table) := by
  simp [next, append]

/-- A batch goes on from its state as a fresh one would. -/
theorem advance_eq_append (table : Table) (n : Nat) (b : Batch) :
    b.advance table n = b.append (({ state := b.state } : Batch).advance table n) := by
  induction n generalizing b with
  | zero => simp [advance, append]
  | succ n ih =>
    rw [advance, advance]
    split
    · simp [append]
    · rw [ih (b.next table), ih (({ state := b.state } : Batch).next table), next_eq_append]
      simp [append, Bool.or_assoc, Array.append_assoc]

end Batch

namespace Machine

theorem run_add (m : Machine) (a b : Nat) :
    m.run (a + b) = (m.run a).append ((m.step a).run b) := by
  rw [run, Batch.advance_add, Batch.advance_eq_append]
  rfl

theorem step_add (m : Machine) (a b : Nat) : m.step (a + b) = (m.step a).step b := by
  rw [step, run_add]
  rfl

end Machine

theorem Batch.signal_eq_awaitKey_iff {b : Batch} :
    b.signal = .awaitKey ↔ b.state.blocked = true := by
  unfold Batch.signal
  cases b.state.blocked <;> cases b.drew <;> simp

theorem Batch.signal_eq_redraw_iff {b : Batch} :
    b.signal = .redraw ↔ b.state.blocked = false ∧ b.drew = true := by
  unfold Batch.signal
  cases b.state.blocked <;> cases b.drew <;> simp

theorem Batch.signal_eq_nothing_iff {b : Batch} :
    b.signal = .nothing ↔ b.state.blocked = false ∧ b.drew = false := by
  unfold Batch.signal
  cases b.state.blocked <;> cases b.drew <;> simp

/-- The report of two batches: that of the second if it waits, and otherwise whether one of them
has drawn. -/
theorem Batch.signal_append {b c : Batch} (h : b.state.blocked = true → c.state.blocked = true) :
    (b.append c).signal =
      if c.signal = .awaitKey then .awaitKey
      else if b.signal = .redraw ∨ c.signal = .redraw then .redraw
      else .nothing := by
  by_cases hc : c.state.blocked = true
  · simp [signal, append, hc]
  · have hb : ¬b.state.blocked = true := mt h hc
    by_cases hdrew : b.drew = true <;> by_cases hdrew' : c.drew = true <;>
      simp [signal, append, hb, hc, hdrew, hdrew']

/-! ## The instructions executed -/

namespace Machine

/-- The machine `k` instructions later, if it executes them blocked or not. -/
def ahead (m : Machine) : Nat → Machine
  | 0 => m
  | k + 1 => m.execution.after.ahead k

open Classical in
/-- How many instructions the machine executes before it stops: none if it is blocked, and otherwise
those up to and including the first key wait that finds no key. -/
noncomputable def untilBlocked (m : Machine) : ℕ∞ :=
  if m.state.blocked then 0
  else if h : ∃ k, (m.ahead k).execution.starves = true then (Nat.find h + 1 : ℕ)
  else ⊤

theorem untilBlocked_of_blocked {m : Machine} (h : m.state.blocked = true) :
    m.untilBlocked = 0 := by
  rw [untilBlocked, if_pos h]

theorem blocked_after_execution {m : Machine} (h : m.state.blocked = false) :
    m.execution.after.state.blocked = m.execution.starves := by
  have hvalid : m.execution.Valid := ⟨h, rfl⟩
  rw [Event.blocked_after hvalid]
  have hdecides : m.execution.decides = m.execution.starves := by
    simp [Event.decides, Event.pressed?, Event.restarts, execution]
  rw [hdecides]
  cases hs : m.execution.starves with
  | true => rfl
  | false => exact h

/-- A machine that runs executes one instruction more than it does after that. -/
theorem untilBlocked_of_running {m : Machine} (h : m.state.blocked = false) :
    m.untilBlocked = m.execution.after.untilBlocked + 1 := by
  classical
  have hafter := blocked_after_execution h
  rw [untilBlocked, if_neg (by simp [h])]
  cases hs : m.execution.starves with
  | true =>
    have hex : ∃ k, (m.ahead k).execution.starves = true := ⟨0, hs⟩
    have hfirst : Nat.find hex = 0 := (Nat.find_eq_zero hex).2 hs
    rw [dif_pos hex, hfirst, untilBlocked_of_blocked (by rw [hafter, hs])]
    rfl
  | false =>
    rw [untilBlocked, if_neg (by rw [hafter, hs]; simp)]
    have hzero : ¬(m.ahead 0).execution.starves = true := by
      show ¬m.execution.starves = true
      simp [hs]
    by_cases hex : ∃ k, (m.execution.after.ahead k).execution.starves = true
    · have hex' : ∃ k, (m.ahead k).execution.starves = true := by
        obtain ⟨k, hk⟩ := hex
        exact ⟨k + 1, hk⟩
      have hfind : Nat.find hex' = Nat.find hex + 1 := Nat.find_comp_succ hex' hex hzero
      rw [dif_pos hex, dif_pos hex', hfind]
      rfl
    · have hex' : ¬∃ k, (m.ahead k).execution.starves = true := by
        rintro ⟨k, hk⟩
        cases k with
        | zero => exact hzero hk
        | succ k => exact hex ⟨k, hk⟩
      rw [dif_neg hex, dif_neg hex']
      rfl

/-- A batch executes as many instructions as it may, or as many as there are until the machine
blocks. -/
theorem length_batchEvents (m : Machine) (n : Nat) :
    ((m.batchEvents n).length : ℕ∞) = min (n : ℕ∞) m.untilBlocked := by
  induction n generalizing m with
  | zero => simp [batchEvents]
  | succ n ih =>
    rw [batchEvents]
    cases h : m.state.blocked with
    | true => simp [untilBlocked_of_blocked h]
    | false =>
      rw [if_neg (by simp), List.length_cons, Nat.cast_succ, ih, untilBlocked_of_running h,
        Nat.cast_succ, min_add_add_right]

/-- The instructions executed are the next ones. -/
theorem getElem?_batchEvents {m : Machine} {n k : Nat} (h : k < (m.batchEvents n).length) :
    (m.batchEvents n)[k]? = some (m.ahead k).execution := by
  induction n generalizing m k with
  | zero => cases h
  | succ n ih =>
    rw [batchEvents] at h ⊢
    split at h
    · cases h
    · next hrun =>
      rw [if_neg hrun]
      cases k with
      | zero => rfl
      | succ k => exact ih (Nat.lt_of_succ_lt_succ h)

theorem step_eq_ahead (m : Machine) (n : Nat) : m.step n = m.ahead (m.batchEvents n).length := by
  rw [← after_batchEvents]
  induction n generalizing m with
  | zero => rfl
  | succ n ih =>
    rw [batchEvents]
    split
    · rfl
    · exact ih m.execution.after

/-! ## Drawing -/

theorem drew_next (m : Machine) (b : Batch) :
    (b.next m.table).drew = (b.drew || (m.withState b.state).execution.draws) := by
  show (b.drew || ((m.table.get b.state.pc.toNat).execute b.state).signal == .redraw) =
    (b.drew || (decide (Move.execute (m.table.get b.state.pc.toNat) = .execute .clear) ||
      decide (Move.execute (m.table.get b.state.pc.toNat) = .execute .draw)))
  rw [Instruction.signal_execute]
  cases m.table.get b.state.pc.toNat with
  | awaitKey => cases b.state.pending <;> rfl
  | _ => simp

/-- A batch has drawn if one of its instructions draws. -/
theorem drew_advance (m : Machine) (n : Nat) (b : Batch) :
    (b.advance m.table n).drew =
      (b.drew || ((m.withState b.state).batchEvents n).any Event.draws) := by
  induction n generalizing b with
  | zero => simp [Batch.advance, batchEvents]
  | succ n ih =>
    by_cases hb : b.state.blocked = true
    · rw [Batch.advance_of_blocked _ _ hb]
      simp [batchEvents, withState, hb]
    · have hs : ¬(m.withState b.state).state.blocked = true := hb
      rw [Batch.advance, if_neg hb, ih, drew_next, batchEvents, if_neg hs, after_execution,
        List.any_cons, Bool.or_assoc]

theorem drew_run (m : Machine) (n : Nat) :
    (m.run n).drew = (m.batchEvents n).any Event.draws := by
  have h := m.drew_advance n { state := m.state }
  rwa [Bool.false_or] at h

theorem display_after_execution {m : Machine} (h : m.execution.draws = false) :
    m.execution.after.state.display = m.state.display := by
  obtain ⟨hclear, hdraw⟩ : m.instructionAt m.state.pc.toNat ≠ .clear ∧
      m.instructionAt m.state.pc.toNat ≠ .draw := by
    simpa [Event.draws, execution] using h
  show ((m.instructionAt m.state.pc.toNat).execute m.state).state.display = _
  rw [Instruction.display_execute]
  split
  · next hi => exact absurd hi hclear
  · next hi => exact absurd hi hdraw
  · rfl

theorem display_step {m : Machine} {n : Nat} (h : ∀ e ∈ m.batchEvents n, e.draws = false) :
    (m.step n).state.display = m.state.display := by
  rw [← after_batchEvents]
  induction n generalizing m with
  | zero => rfl
  | succ n ih =>
    rw [batchEvents] at h ⊢
    split at h
    · next hb => rw [if_pos hb]; rfl
    · next hb =>
      obtain ⟨hfirst, hrest⟩ := List.forall_mem_cons.1 h
      rw [if_neg hb]
      exact (ih hrest).trans (display_after_execution hfirst)

end Machine

/-! ## A loop with two exits -/

theorem Instruction.blocked_of_signal {i : Instruction} {s : State}
    (h : (i.execute s).signal = .awaitKey) : (i.execute s).state.blocked = true := by
  rw [signal_execute] at h
  rw [blocked_execute]
  cases i with
  | awaitKey => simpa using h
  | _ => cases h

namespace Batch

/-- Executes up to `n` instructions. The loop ends when the machine is blocked before an
instruction, and at once when an instruction signals that it waits; it keeps the state, the signal
of the last drawing and the log. -/
def loop (table : Table) : Nat → State → Signal → Log → State × Signal × Log
  | 0, s, flow, log => (s, flow, log)
  | n + 1, s, flow, log =>
    if s.blocked then (s, flow, log)
    else
      let e := (table.get s.pc.toNat).execute s
      match e.signal with
      | .nothing => loop table n e.state flow (log ++ e.log)
      | .redraw => loop table n e.state .redraw (log ++ e.log)
      | .awaitKey => (e.state, flow, log ++ e.log)

/-- What the loop keeps of the drawing. -/
def flow (b : Batch) : Signal := if b.drew then .redraw else .nothing

theorem loop_eq (table : Table) (n : Nat) (b : Batch) :
    loop table n b.state b.flow b.log =
      ((b.advance table n).state, (b.advance table n).flow, (b.advance table n).log) := by
  induction n generalizing b with
  | zero => rfl
  | succ n ih =>
    rw [loop, advance]
    split
    · rfl
    · rw [← ih (b.next table)]
      dsimp only
      split
      · next hsignal =>
        have hflow : (b.next table).flow = b.flow := by simp [flow, next, hsignal]
        rw [hflow]
        rfl
      · next hsignal =>
        have hflow : (b.next table).flow = .redraw := by simp [flow, next, hsignal]
        rw [hflow]
        rfl
      · next hsignal =>
        -- An instruction that waits leaves the machine blocked, so the other exit is taken next.
        have hblocked : (b.next table).state.blocked = true :=
          Instruction.blocked_of_signal hsignal
        have hflow : (b.next table).flow = b.flow := by simp [flow, next, hsignal]
        rw [ih, advance_of_blocked _ _ hblocked, hflow]
        rfl

end Batch

namespace Machine

/-- A batch as a loop with two exits. Whether the machine is blocked at the end overrules what the
loop has kept. -/
def loop (m : Machine) (n : Nat) : Performed :=
  let (s, flow, log) := Batch.loop m.table n m.state .nothing #[]
  { machine := m.withState s
    reply := .ran (if s.blocked then .awaitKey else flow)
    log := log }

theorem loop_eq (m : Machine) (n : Nat) : m.loop n = m.perform (.step n) := by
  have h : Batch.loop m.table n m.state .nothing #[] = _ :=
    Batch.loop_eq m.table n { state := m.state }
  rw [loop, h]
  rfl

end Machine

/-! ## Reports -/

namespace Machine

/-- A report of two batches in a row, as one. -/
theorem reply_step_add (m : Machine) (a b : Nat) :
    (m.perform (.step (a + b))).reply =
      if ((m.step a).perform (.step b)).reply = .ran .awaitKey then .ran .awaitKey
      else if (m.perform (.step a)).reply = .ran .redraw ∨
        ((m.step a).perform (.step b)).reply = .ran .redraw then .ran .redraw
      else .ran .nothing := by
  have hlast : (m.run a).state.blocked = true → ((m.step a).run b).state.blocked = true := by
    intro h
    rw [run_of_blocked (m := m.step a) h]
    exact h
  show Reply.ran (m.run (a + b)).signal = _
  rw [run_add, Batch.signal_append hlast, apply_ite Reply.ran, apply_ite Reply.ran]
  simp only [perform, Reply.ran.injEq]

theorem reply_step_eq_awaitKey_iff (m : Machine) (n : Nat) :
    (m.perform (.step n)).reply = .ran .awaitKey ↔ (m.step n).state.blocked = true := by
  show Reply.ran (m.run n).signal = .ran .awaitKey ↔ _
  rw [Reply.ran.injEq, Batch.signal_eq_awaitKey_iff]
  rfl

theorem reply_step_eq_redraw_iff (m : Machine) (n : Nat) :
    (m.perform (.step n)).reply = .ran .redraw ↔
      (m.step n).state.blocked = false ∧ ∃ e ∈ m.batchEvents n, e.draws = true := by
  show Reply.ran (m.run n).signal = .ran .redraw ↔ _
  rw [Reply.ran.injEq, Batch.signal_eq_redraw_iff, drew_run, List.any_eq_true]
  rfl

theorem reply_step_eq_nothing_iff (m : Machine) (n : Nat) :
    (m.perform (.step n)).reply = .ran .nothing ↔
      (m.step n).state.blocked = false ∧ ∀ e ∈ m.batchEvents n, e.draws = false := by
  show Reply.ran (m.run n).signal = .ran .nothing ↔ _
  rw [Reply.ran.injEq, Batch.signal_eq_nothing_iff, drew_run, List.any_eq_false]
  simp only [Bool.not_eq_true]
  rfl

end Machine

/-- **Batches compose.** A batch of `a` and one of `b` instructions leave the machine and the log as
one batch of `a + b` does, whose report is that of the second if it waits and otherwise whether one
of them has drawn. A batch of `n` executes the next `n` instructions, or those until the machine
blocks; leaving the loop at once when an instruction waits makes no difference. It reports a wait if
the machine is blocked at the end, otherwise a drawing if it has executed one, and if it reports
neither the display is as it was. -/
theorem batches_compose (m : Machine) (a b n : Nat) :
    let first := m.perform (.step a)
    let second := first.machine.perform (.step b)
    let whole := m.perform (.step (a + b))
    let batch := m.perform (.step n)
    let executed := m.batchEvents n
    (whole.machine = second.machine ∧ whole.log = first.log ++ second.log ∧
        whole.reply =
          if second.reply = .ran .awaitKey then .ran .awaitKey
          else if first.reply = .ran .redraw ∨ second.reply = .ran .redraw then .ran .redraw
          else .ran .nothing) ∧
      ((executed.length : ℕ∞) = min (n : ℕ∞) m.untilBlocked ∧
        (∀ k < executed.length, executed[k]? = some (m.ahead k).execution) ∧
        batch.machine = m.ahead executed.length ∧ m.loop n = batch) ∧
      (batch.reply = .ran .awaitKey ↔ batch.machine.state.blocked = true) ∧
      (batch.reply = .ran .redraw ↔
        batch.machine.state.blocked = false ∧ ∃ e ∈ executed, e.draws = true) ∧
      (batch.reply = .ran .nothing ↔
        batch.machine.state.blocked = false ∧ ∀ e ∈ executed, e.draws = false) ∧
      (batch.reply = .ran .nothing → batch.machine.state.display = m.state.display) := by
  intro first second whole batch executed
  have hlog : whole.log = first.log ++ second.log := by
    show (m.run (a + b)).log = _
    rw [Machine.run_add]
    rfl
  refine ⟨⟨m.step_add a b, hlog, m.reply_step_add a b⟩,
    ⟨m.length_batchEvents n, fun k hk => Machine.getElem?_batchEvents hk, m.step_eq_ahead n,
      m.loop_eq n⟩,
    m.reply_step_eq_awaitKey_iff n, m.reply_step_eq_redraw_iff n, m.reply_step_eq_nothing_iff n,
    fun h => ?_⟩
  obtain ⟨-, hnone⟩ := (m.reply_step_eq_nothing_iff n).1 h
  exact Machine.display_step hnone

/-- `V0 := 5`, wait for a key, clear the display. -/
def loadAndWait : List UInt8 := [0x60, 0x05, 0xF3, 0x0A, 0x00, 0xE0]

/-- Ten instructions stop after the second, which waits; so does a batch of nine after the first. -/
theorem batches_compose_wait :
    let m := ((Machine.new (some 7) default).perform (.load loadAndWait default)).machine
    (m.perform (.step 1)).reply = .ran .nothing ∧
      (m.perform (.step 1)).machine.state.display = m.state.display ∧
      (m.perform (.step 10)).reply = .ran .awaitKey ∧
      (m.perform (.step 10)).machine = ((m.perform (.step 1)).machine.perform (.step 9)).machine ∧
      m.untilBlocked = 2 := by
  intro m
  obtain ⟨⟨hmachine, -, -⟩, -, -, -, -, hdisplay⟩ := batches_compose m 1 9 1
  obtain ⟨-, ⟨hlength, -⟩, hwaits, -⟩ := batches_compose m 1 9 10
  have hfirst : (m.perform (.step 1)).reply = .ran .nothing := by decide +kernel
  have hexecuted : (m.batchEvents 10).length = 2 := by decide +kernel
  refine ⟨hfirst, hdisplay hfirst, hwaits.2 (by decide +kernel), hmachine, ?_⟩
  -- The bound of ten is not the smaller of the two.
  rw [hexecuted] at hlength
  rcases min_choice ((10 : Nat) : ℕ∞) m.untilBlocked with h | h
  · rw [h] at hlength
    exact absurd hlength (by decide)
  · rw [h] at hlength
    exact hlength.symm

end ChipEight
