import ChipEight.Proofs.Batches

/-!
# Suspension

A machine blocks on a key wait and stays as it is, but for its timers and the keys that go up, until
a key is pressed or it starts afresh (`performAll_idle`). Blocking changes nothing else, so a key
pressed then has the effect of one pressed just before the wait (`press_step_wait`): the wait is
executed once more, and gets the key (`blocked_inert_then_resumed`).
-/

set_option autoImplicit false

namespace ChipEight

/-! ## A blocked machine -/

namespace Command

/-- Commands that leave a blocked machine blocked. A load is one of them if it is refused. -/
def idle : Command → Bool
  | step _ | tick | release _ | press none => true
  | load program _ => Memory.maxProgram < program.length
  | _ => false

/-- What a blocked machine answers to an idle command. -/
def idleReply : Command → Reply
  | step _ => .ran .awaitKey
  | load program _ => .refused (.programTooLarge program.length)
  | _ => .done

end Command

namespace State

/-- A timer `n` ticks later; it stays at zero. -/
def countDownBy (n : Nat) (t : UInt8) : UInt8 := UInt8.ofNat (t.toNat - n)

/-- The state after some ticks and with other keys held. -/
def rested (s : State) (ticks : Nat) (keypad : Keypad) : State :=
  { s with
    delay := countDownBy ticks s.delay
    sound := countDownBy ticks s.sound
    keypad := keypad }

theorem toNat_countDownBy (n : Nat) (t : UInt8) : (countDownBy n t).toNat = t.toNat - n := by
  have := t.toNat_lt
  rw [countDownBy, UInt8.toNat_ofNat', Nat.mod_eq_of_lt (by omega)]

theorem countDownBy_zero (t : UInt8) : countDownBy 0 t = t := by
  apply UInt8.toNat_inj.1
  rw [toNat_countDownBy, Nat.sub_zero]

theorem countDownBy_one (t : UInt8) : countDownBy 1 t = countDown t := by
  apply UInt8.toNat_inj.1
  rw [toNat_countDownBy, toNat_countDown]

theorem countDownBy_add (a b : Nat) (t : UInt8) :
    countDownBy b (countDownBy a t) = countDownBy (a + b) t := by
  apply UInt8.toNat_inj.1
  simp only [toNat_countDownBy]
  omega

theorem rested_zero (s : State) (keypad : Keypad) : s.rested 0 keypad = { s with keypad } := by
  simp only [rested, countDownBy_zero]

theorem tick_eq_rested (s : State) : s.tick = s.rested 1 s.keypad := by
  simp only [rested, tick, countDownBy_one]

theorem rested_rested (s : State) (a b : Nat) (p q : Keypad) :
    (s.rested a p).rested b q = s.rested (a + b) q := by
  simp only [rested, countDownBy_add]

end State

namespace Machine

theorem withState_rested_zero (m : Machine) :
    m.withState (m.state.rested 0 m.state.keypad) = m := by
  rw [State.rested_zero]
  rfl

/-- One idle command. -/
theorem perform_idle {m : Machine} (h : m.state.blocked = true) {c : Command}
    (hc : c.idle = true) :
    (m.perform c).reply = c.idleReply ∧
      ∃ keypad : Keypad,
        (∀ k, keypad.isHeld k = (m.state.keypad.isHeld k && !decide (c = .release (some k)))) ∧
        (m.perform c).machine =
          m.withState (m.state.rested (if c = .tick then 1 else 0) keypad) := by
  cases c with
  | reset | compile w | setRegister x v | setIndex a | setDelay v | write a data => cases hc
  | load program entropy =>
    have hlong : Memory.maxProgram < program.length := by simpa [Command.idle] using hc
    rw [perform_load_of_lt hlong]
    exact ⟨rfl, m.state.keypad, by simp, m.withState_rested_zero.symm⟩
  | step n =>
    rw [perform, run_of_blocked h]
    refine ⟨?_, m.state.keypad, by simp, m.withState_rested_zero.symm⟩
    show Reply.ran (Batch.signal { state := m.state }) = .ran .awaitKey
    rw [Batch.signal_eq_awaitKey_iff.2 h]
  | tick =>
    refine ⟨rfl, m.state.keypad, by simp, ?_⟩
    rw [if_pos rfl, ← State.tick_eq_rested]
    rfl
  | press k =>
    cases k with
    | some k => cases hc
    | none => exact ⟨rfl, m.state.keypad, by simp, m.withState_rested_zero.symm⟩
  | release k =>
    cases k with
    | none => exact ⟨rfl, m.state.keypad, by simp, m.withState_rested_zero.symm⟩
    | some k =>
      refine ⟨rfl, m.state.keypad.release k, fun j => ?_, ?_⟩
      · rw [Keypad.isHeld_release]
        simp [eq_comm]
      · rw [if_neg (by simp), State.rested_zero]
        rfl

/-- Any number of idle commands. -/
theorem performAll_idle {m : Machine} (h : m.state.blocked = true) {cs : List Command}
    (hcs : ∀ c ∈ cs, c.idle = true) :
    (m.performAll cs).2.1 = cs.map Command.idleReply ∧
      ∃ keypad : Keypad,
        (∀ k, keypad.isHeld k = (m.state.keypad.isHeld k && !decide (.release (some k) ∈ cs))) ∧
        (m.performAll cs).1 = m.withState (m.state.rested (cs.count .tick) keypad) := by
  induction cs generalizing m with
  | nil => exact ⟨rfl, m.state.keypad, by simp, m.withState_rested_zero.symm⟩
  | cons c cs ih =>
    obtain ⟨hc, hrest⟩ := List.forall_mem_cons.1 hcs
    obtain ⟨hreply, p, hp, hmachine⟩ := perform_idle h hc
    have hblocked : (m.perform c).machine.state.blocked = true := by
      rw [hmachine]
      exact h
    obtain ⟨hreplies, q, hq, hend⟩ := ih hblocked hrest
    refine ⟨?_, q, fun k => ?_, ?_⟩
    · rw [List.map_cons, ← hreply, ← hreplies]
      rfl
    · have hheld : (m.perform c).machine.state.keypad = p := by
        rw [hmachine]
        rfl
      rw [hq, hheld, hp, Bool.and_assoc, ← Bool.not_or, ← Bool.decide_or]
      simp only [List.mem_cons, eq_comm]
    · have hticks : (c :: cs).count .tick = (if c = .tick then 1 else 0) + cs.count .tick := by
        rw [List.count_cons, Nat.add_comm]
        simp only [beq_iff_eq]
      rw [performAll_cons, hend, hmachine, hticks, ← State.rested_rested]
      rfl

/-! ## Waking up -/

/-- A batch that begins with a wait for a key that is not there does nothing but block. -/
theorem step_wait {m : Machine} (hrun : m.state.blocked = false)
    (hwait : m.instructionAt m.state.pc.toNat = .awaitKey) (hnone : m.state.pending = none)
    {count : Nat} (hcount : 1 ≤ count) :
    m.step count = m.withState { m.state with blocked := true } := by
  obtain ⟨n, rfl⟩ : ∃ n, count = n + 1 := ⟨count - 1, by omega⟩
  have hnext : (({ state := m.state } : Batch).next m.table).state =
      { m.state with blocked := true } := by
    have hi : m.table.get m.state.pc.toNat = .awaitKey := hwait
    show ((m.table.get m.state.pc.toNat).execute m.state).state = _
    rw [hi, Instruction.execute_awaitKey_of_none hnone]
  have hblocked : (({ state := m.state } : Batch).next m.table).state.blocked = true := by
    rw [hnext]
  rw [step, run, Batch.advance, if_neg (by simp [hrun]), Batch.advance_of_blocked _ _ hblocked,
    hnext]

/-- A key pressed when the machine waits for it, and one pressed before. -/
theorem press_step_wait {m : Machine} (hrun : m.state.blocked = false)
    (hwait : m.instructionAt m.state.pc.toNat = .awaitKey) (hnone : m.state.pending = none)
    {count : Nat} (hcount : 1 ≤ count) (k : Key) : (m.step count).press k = m.press k := by
  rw [step_wait hrun hwait hnone hcount]
  rfl

end Machine

/-- **A blocked machine is inert, and resumes where it waits.** Idle commands leave a blocked
machine as it is, but for its timers and the keys that go up, and batches report that it waits.
Where a machine is about to wait for a key that is not there, a batch before the key is pressed
makes no difference; the next batch then begins with the same wait, which stores the key. -/
theorem blocked_inert_then_resumed (m : Machine) :
    (m.state.blocked = true → ∀ cs : List Command, (∀ c ∈ cs, c.idle = true) →
      (m.performAll cs).2.1 = cs.map Command.idleReply ∧
        ∃ keypad : Keypad,
          (∀ k, keypad.isHeld k = (m.state.keypad.isHeld k && !decide (.release (some k) ∈ cs))) ∧
          (m.performAll cs).1 = m.withState
            { m.state with
              delay := UInt8.ofNat (m.state.delay.toNat - cs.count .tick)
              sound := UInt8.ofNat (m.state.sound.toNat - cs.count .tick)
              keypad := keypad }) ∧
      (m.state.blocked = false → m.instructionAt m.state.pc.toNat = .awaitKey →
        m.state.pending = none → ∀ (k : Key) (count n : Nat), 1 ≤ count →
          (m.performAll [.step count, .press (some k), .step n]).1 =
              (m.performAll [.press (some k), .step n]).1 ∧
            let woken := (m.performAll [.step count, .press (some k)]).1
            (1 ≤ n → (woken.batchEvents n).head? = some ⟨woken, .execute .awaitKey⟩) ∧
              woken.state.pc = m.state.pc ∧
              Event.after ⟨woken, .execute .awaitKey⟩ = woken.withState
                { woken.state.setReg (m.state.memory.x m.state.pc.toNat) k.toByte with
                  pending := none, blocked := false, pc := m.state.pc + 2 }) := by
  refine ⟨fun h cs hcs => Machine.performAll_idle h hcs, ?_⟩
  intro hrun hwait hnone k count n hcount
  have hwoken : (m.step count).press k = m.press k :=
    Machine.press_step_wait hrun hwait hnone hcount k
  refine ⟨?_, ?_⟩
  · show ((m.step count).press k).step n = (m.press k).step n
    rw [hwoken]
  · intro woken
    have hwoken : woken = m.press k := hwoken
    have hexecution : woken.execution = ⟨woken, .execute .awaitKey⟩ := by
      rw [Machine.execution, hwoken]
      exact congrArg (Event.mk (m.press k) ∘ Move.execute) hwait
    refine ⟨fun hn => ?_, ?_, ?_⟩
    · obtain ⟨n, rfl⟩ : ∃ n', n = n' + 1 := ⟨n - 1, by omega⟩
      have hrunning : ¬woken.state.blocked = true := by
        rw [hwoken]
        exact Bool.false_ne_true
      rw [Machine.batchEvents, if_neg hrunning, List.head?_cons, hexecution]
    · rw [hwoken]
      rfl
    · rw [hwoken]
      exact Event.after_of_completes (e := ⟨m.press k, .execute .awaitKey⟩) rfl rfl

/-- Wait for a key twice. -/
def waitTwice : List UInt8 := [0xF1, 0x0A, 0xF2, 0x0A]

/-- The second wait of a program blocks the machine while the key of the first is still held. The
key goes up and a load is refused; the first wait of the same program, before it blocks, is as good
as after. -/
theorem blocked_inert_then_resumed_waitTwice :
    let fresh := ((Machine.new (some 7) default).perform (.load waitTwice default)).machine
    let m := (fresh.performAll [.press (some ⟨3⟩), .step 2, .setDelay 1]).1
    let cs : List Command := [.step 5, .tick, .load (List.replicate 3585 0) default,
      .release (some ⟨3⟩), .press none, .tick, .step 1]
    (m.state.blocked = true ∧ m.state.keypad.isHeld ⟨3⟩ = true ∧ m.state.delay = 1) ∧
      (m.performAll cs).2.1 = [.ran .awaitKey, .done, .refused (.programTooLarge 3585), .done,
        .done, .done, .ran .awaitKey] ∧
      (m.performAll cs).1.state.keypad.isHeld ⟨3⟩ = false ∧
      (m.performAll cs).1.state.delay = 0 ∧
      (m.performAll cs).1.state.pc = m.state.pc ∧
      (fresh.performAll [.step 6, .press (some ⟨5⟩), .step 1]).1 =
        (fresh.performAll [.press (some ⟨5⟩), .step 1]).1 := by
  intro fresh m cs
  obtain ⟨hinert, -⟩ := blocked_inert_then_resumed m
  obtain ⟨-, hresumed⟩ := blocked_inert_then_resumed fresh
  have hblocked : m.state.blocked = true := by decide +kernel
  have hheld : m.state.keypad.isHeld ⟨3⟩ = true := by decide +kernel
  have hdelay : m.state.delay = 1 := by decide +kernel
  obtain ⟨hreplies, keypad, hkeypad, hend⟩ := hinert hblocked cs (by decide +kernel)
  obtain ⟨hsame, -⟩ := hresumed (by decide +kernel) (by decide +kernel) (by decide +kernel) ⟨5⟩ 6 1
    (by decide)
  clear_value m
  refine ⟨⟨hblocked, hheld, hdelay⟩, ?_, ?_, ?_, ?_, hsame⟩
  · have hlength : (List.replicate 3585 (0 : UInt8)).length = 3585 := List.length_replicate
    rw [hreplies, ← hlength]
    rfl
  · rw [hend]
    exact (hkeypad ⟨3⟩).trans (by rw [hheld]; decide +kernel)
  · rw [hend]
    show UInt8.ofNat (m.state.delay.toNat - cs.count .tick) = 0
    rw [hdelay]
    decide +kernel
  · rw [hend]
    rfl

end ChipEight
