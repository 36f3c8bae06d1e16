import ChipEight.Proofs.Playback
import ChipEight.Proofs.Suspension

/-!
# Values of the timers

A timer shows the value last written to it less the ticks since then, and zero once there were that
many (`Linked.timer_eq`). The program and the host write the delay timer, the program alone the
sound timer, and a restart writes zero to both. In a session each frame ticks once, before its
instructions, so a value written in one frame has lost one for every later frame, also for those in
which the machine is blocked (`Machine.timer_afterFrames`).
-/

set_option autoImplicit false

namespace ChipEight

inductive Timer
  | delay
  | sound
deriving DecidableEq

/-- The value of a timer. -/
def State.timer (s : State) : Timer → UInt8
  | .delay => s.delay
  | .sound => s.sound

/-- The instruction that writes a timer. -/
def Timer.setter : Timer → Instruction
  | delay => .setDelay
  | sound => .setSound

/-! ## Writes and ticks -/

namespace Event

/-- The value that an event writes to a timer. A restart writes zero. -/
def written? (e : Event) (w : Timer) : Option UInt8 :=
  match e.move with
  | .execute i =>
    if i = w.setter then
      some (e.machine.state.reg (e.machine.state.memory.x e.machine.state.pc.toNat))
    else none
  | .command (.setDelay v) => if w = .delay then some v else none
  | .command _ => if e.restarts then some 0 else none

def ticks (e : Event) : Bool := e.move = .command .tick

theorem timer_after {e : Event} (hv : e.Valid) (w : Timer) :
    e.after.state.timer w =
      match e.written? w with
      | some v => v
      | none =>
        if e.ticks then State.countDown (e.machine.state.timer w) else e.machine.state.timer w := by
  obtain ⟨m, move⟩ := e
  cases move with
  | execute i =>
    show (i.execute m.state).state.timer w = _
    cases w with
    | delay =>
      rw [State.timer, Instruction.delay_execute]
      by_cases hi : i = .setDelay <;> simp [written?, ticks, Timer.setter, State.timer, hi]
    | sound =>
      rw [State.timer, Instruction.sound_execute]
      by_cases hi : i = .setSound <;> simp [written?, ticks, Timer.setter, State.timer, hi]
  | command c =>
    cases c with
    | step n => exact absurd rfl (hv n)
    | load program entropy =>
      rcases m.perform_load program entropy with ⟨hdone, memory, hstate⟩ | ⟨hdone, hsame⟩
      · cases w <;> simp [after, written?, restarts, hdone, hstate, State.initial, State.timer]
      · simp [after, written?, ticks, restarts, hdone, hsame]
    | press k | release k => cases k <;> cases w <;> rfl
    | _ => cases w <;> rfl

end Event

/-- The value last written to a timer that showed `start` at first. -/
def lastWritten (start : UInt8) (past : List Event) (w : Timer) : UInt8 :=
  (past.filterMap fun e => e.written? w).getLast?.getD start

/-- The number of ticks since a timer was last written. -/
def ticksSince (past : List Event) (w : Timer) : Nat :=
  countSince (fun e => (e.written? w).isSome) Event.ticks past

theorem lastWritten_concat (start : UInt8) (past : List Event) (e : Event) (w : Timer) :
    lastWritten start (past ++ [e]) w = (e.written? w).getD (lastWritten start past w) := by
  cases h : e.written? w <;> simp [lastWritten, h]

theorem State.countDown_countDownBy (n : Nat) (t : UInt8) :
    countDown (countDownBy n t) = countDownBy (n + 1) t := by
  rw [← countDownBy_one, countDownBy_add]

/-- A timer shows the value last written less the ticks since then. -/
theorem Linked.timer_eq {m : Machine} {past : List Event} (h : Linked m past) (w : Timer) :
    (m.after past).state.timer w =
      State.countDownBy (ticksSince past w) (lastWritten (m.state.timer w) past w) := by
  refine h.induction
    (P := fun past m' => m'.state.timer w =
      State.countDownBy (ticksSince past w) (lastWritten (m.state.timer w) past w))
    ?_ [] (State.countDownBy_zero _).symm
  intro past e hv hvalue
  rw [Event.timer_after hv, lastWritten_concat, ticksSince, countSince_concat, ← ticksSince, hvalue]
  cases e.written? w with
  | some v => exact (State.countDownBy_zero v).symm
  | none =>
    cases e.ticks with
    | true => exact State.countDown_countDownBy _ _
    | false => rfl

theorem lastWritten_of_not_written {start : UInt8} {past : List Event} {w : Timer}
    (h : ∀ e ∈ past, e.written? w = none) : lastWritten start past w = start := by
  rw [lastWritten, List.filterMap_eq_nil_iff.2 h]
  rfl

theorem ticksSince_of_not_written {past : List Event} {w : Timer}
    (h : ∀ e ∈ past, e.written? w = none) : ticksSince past w = past.countP Event.ticks := by
  have hall : past.rtakeWhile (fun e => !(e.written? w).isSome) = past := by
    rw [List.rtakeWhile_eq_self_iff]
    intro e he
    rw [h e he]
    rfl
  rw [ticksSince, countSince, hall]

/-- While nothing writes a timer, it loses one for every tick. -/
theorem Linked.timer_of_not_written {m : Machine} {es : List Event} (h : Linked m es) {w : Timer}
    (hes : ∀ e ∈ es, e.written? w = none) :
    (m.after es).state.timer w =
      State.countDownBy (es.countP Event.ticks) (m.state.timer w) := by
  rw [h.timer_eq, lastWritten_of_not_written hes, ticksSince_of_not_written hes]

/-! ## Frames -/

/-- What a frame asks of the machine. -/
def Settings.frameCommands (s : Settings) (frame : Nat) : List Command :=
  (s.scriptAt frame).map ScriptedKey.command ++ [.tick] ++ [.step s.stepsPerFrame.toNat]

namespace Machine

/-- The machine after the first `n` frames of a session. -/
def afterFrames (m : Machine) (settings : Settings) (n : Nat) : Machine :=
  ((List.range n).foldl (fun s f => s.playFrame settings f) ({ machine := m } : Session)).machine

/-- The events of a frame. -/
def frameEvents (m : Machine) (settings : Settings) (frame : Nat) : List Event :=
  (m.afterFrames settings frame).events (settings.frameCommands frame)

theorem performAll_append (m : Machine) (cs ds : List Command) :
    (m.performAll (cs ++ ds)).1 = ((m.performAll cs).1.performAll ds).1 := by
  induction cs generalizing m with
  | nil => rfl
  | cons c cs ih => rw [List.cons_append, performAll_cons, ih, performAll_cons]

theorem events_append (m : Machine) (cs ds : List Command) :
    m.events (cs ++ ds) = m.events cs ++ (m.performAll cs).1.events ds := by
  induction cs generalizing m with
  | nil => rfl
  | cons c cs ih => rw [List.cons_append, events, ih, events, performAll_cons, List.append_assoc]

theorem countP_ticks_batchEvents (m : Machine) (n : Nat) :
    (m.batchEvents n).countP Event.ticks = 0 := by
  rw [List.countP_eq_zero]
  intro e he
  obtain ⟨i, hi⟩ := exists_execute_of_mem_batchEvents he
  simp [Event.ticks, hi]

/-- Every tick is an event, and no other event is one. -/
theorem countP_ticks_events (m : Machine) (cs : List Command) :
    (m.events cs).countP Event.ticks = cs.count .tick := by
  induction cs generalizing m with
  | nil => rfl
  | cons c cs ih =>
    rw [events, List.countP_append, ih, List.count_cons, Nat.add_comm]
    congr 1
    cases c with
    | step n => exact m.countP_ticks_batchEvents n
    | _ => rfl

end Machine

theorem Session.machine_playFrame (settings : Settings) (frame : Nat) (s : Session) :
    (s.playFrame settings frame).machine =
      (s.machine.performAll (settings.frameCommands frame)).1 := by
  have hkeys (es : List ScriptedKey) (s : Session) :
      (es.foldl (fun s e => s.apply frame e) s).machine =
        (s.machine.performAll (es.map ScriptedKey.command)).1 := by
    induction es generalizing s with
    | nil => rfl
    | cons e es ih => exact ih (s.apply frame e)
  rw [Settings.frameCommands, List.append_assoc, Machine.performAll_append, ← hkeys]
  rfl

/-- Commands that write no timer. -/
def Command.leavesTimers : Command → Bool
  | tick | press _ | release _ => true
  | _ => false

theorem Machine.written?_of_leavesTimers {m : Machine} {cs : List Command}
    (hcs : ∀ c ∈ cs, c.leavesTimers = true) {e : Event} (he : e ∈ m.events cs) (w : Timer) :
    e.written? w = none := by
  induction cs generalizing m with
  | nil => cases he
  | cons c cs ih =>
    obtain ⟨hc, hcs⟩ := List.forall_mem_cons.1 hcs
    rcases List.mem_append.1 he with he | he
    · cases c with
      | tick | press k | release k =>
        obtain rfl := List.mem_singleton.1 he
        rfl
      | _ => cases hc
    · exact ih hcs he

namespace Machine

variable {m : Machine} {settings : Settings} {frame : Nat}

theorem afterFrames_succ (m : Machine) (settings : Settings) (n : Nat) :
    m.afterFrames settings (n + 1) =
      (m.afterFrames settings n).after (m.frameEvents settings n) := by
  rw [frameEvents, after_events, afterFrames, afterFrames, List.range_succ, List.foldl_append,
    List.foldl_cons, List.foldl_nil, Session.machine_playFrame]

theorem countP_ticks_frameEvents (m : Machine) (settings : Settings) (frame : Nat) :
    (m.frameEvents settings frame).countP Event.ticks = 1 := by
  have hkeys : ((settings.scriptAt frame).map ScriptedKey.command).count .tick = 0 := by
    rw [List.count_eq_zero]
    intro htick
    obtain ⟨e, -, he⟩ := List.mem_map.1 htick
    rw [ScriptedKey.command] at he
    split at he <;> cases he
  rw [frameEvents, countP_ticks_events, Settings.frameCommands, List.count_append,
    List.count_append, hkeys]
  rfl

/-- The tick of a frame comes before whatever writes a timer. -/
theorem countP_ticks_of_written {past rest : List Event} {e : Event} {w : Timer}
    (hsplit : m.frameEvents settings frame = past ++ e :: rest)
    (hwritten : e.written? w ≠ none) : rest.countP Event.ticks = 0 := by
  let before := (settings.scriptAt frame).map ScriptedKey.command ++ [.tick]
  have hbefore : ∀ c ∈ before, c.leavesTimers = true := by
    intro c hc
    rcases List.mem_append.1 hc with hc | hc
    · obtain ⟨k, -, rfl⟩ := List.mem_map.1 hc
      rw [ScriptedKey.command]
      split <;> rfl
    · obtain rfl := List.mem_singleton.1 hc
      rfl
  rw [frameEvents, Settings.frameCommands, events_append] at hsplit
  -- So the event is part of the batch, and so is what follows it.
  rcases List.append_eq_append_iff.1 hsplit with ⟨mid, -, hbatch⟩ | ⟨mid, hmid, hbatch⟩
  · have hmem : rest.Sublist (mid ++ e :: rest) :=
      (List.sublist_cons_self e rest).trans (List.sublist_append_right mid _)
    rw [← hbatch] at hmem
    refine Nat.eq_zero_of_le_zero (hmem.countP_le.trans_eq ?_)
    rw [countP_ticks_events]
    rfl
  · cases mid with
    | nil =>
      rw [List.nil_append] at hbatch
      refine Nat.eq_zero_of_le_zero (((List.sublist_cons_self e rest).countP_le).trans_eq ?_)
      rw [hbatch, countP_ticks_events]
      rfl
    | cons f mid =>
      obtain ⟨rfl, -⟩ := List.cons.inj hbatch
      have he : e ∈ (m.afterFrames settings frame).events before := by
        rw [hmid]
        exact List.mem_append_right _ List.mem_cons_self
      exact absurd (written?_of_leavesTimers hbefore he w) hwritten

/-- A value written in frame `f` has lost one for each later frame. -/
theorem timer_afterFrames {w : Timer} {f g : Nat} {past rest : List Event} {e : Event} {v : UInt8}
    (hsplit : m.frameEvents settings f = past ++ e :: rest) (hv : e.written? w = some v)
    (hrest : ∀ e' ∈ rest, e'.written? w = none) (hfg : f ≤ g)
    (hlater : ∀ n, f < n → n ≤ g → ∀ e' ∈ m.frameEvents settings n, e'.written? w = none) :
    (m.afterFrames settings (g + 1)).state.timer w = State.countDownBy (g - f) v := by
  have hlinked (n : Nat) : Linked (m.afterFrames settings n) (m.frameEvents settings n) :=
    .events _ _
  induction g, hfg using Nat.le_induction with
  | base =>
    have hframe := hlinked f
    rw [hsplit] at hframe
    obtain ⟨-, hvalid, hend⟩ := hframe.drop.of_cons
    have hvalue : e.after.state.timer w = v := by rw [Event.timer_after hvalid, hv]
    have hnoTick : rest.countP Event.ticks = 0 :=
      countP_ticks_of_written hsplit (by rw [hv]; exact Option.some_ne_none v)
    rw [afterFrames_succ, hsplit, after_append]
    show (e.after.after rest).state.timer w = _
    rw [hend.timer_of_not_written hrest, hvalue, hnoTick, Nat.sub_self]
  | succ g hfg ih =>
    have hg := ih fun n hfn hng => hlater n hfn (by omega)
    rw [afterFrames_succ, (hlinked (g + 1)).timer_of_not_written (hlater (g + 1) (by omega) le_rfl),
      countP_ticks_frameEvents, hg, State.countDownBy_add, Nat.sub_add_comm hfg]

/-- What a blocked machine lets happen writes no timer. -/
theorem written?_of_idle {m : Machine} (h : m.state.blocked = true) {cs : List Command}
    (hcs : ∀ c ∈ cs, c.idle = true) {e : Event} (he : e ∈ m.events cs) (w : Timer) :
    e.written? w = none := by
  induction cs generalizing m with
  | nil => cases he
  | cons c cs ih =>
    obtain ⟨hc, hcs⟩ := List.forall_mem_cons.1 hcs
    rcases List.mem_append.1 he with he | he
    · cases c with
      | step n =>
        have hnone : m.batchEvents n = [] := by
          cases n with
          | zero => rfl
          | succ n => rw [batchEvents, if_pos h]
        rw [commandEvents, hnone] at he
        cases he
      | load program entropy =>
        obtain rfl := List.mem_singleton.1 he
        have hlong : Memory.maxProgram < program.length := by simpa [Command.idle] using hc
        simp [Event.written?, Event.restarts, perform_load_of_lt hlong]
      | tick | press k | release k =>
        obtain rfl := List.mem_singleton.1 he
        rfl
      | _ => cases hc
    · obtain ⟨-, keypad, -, hmachine⟩ := perform_idle h hc
      refine ih ?_ hcs he
      rw [hmachine]
      exact h

/-- A frame in which a blocked machine gets no key writes no timer. -/
theorem written?_of_blocked (hblocked : (m.afterFrames settings frame).state.blocked = true)
    (hkeys : ∀ k ∈ settings.scriptAt frame, k.pressed = false) {e : Event}
    (he : e ∈ m.frameEvents settings frame) (w : Timer) : e.written? w = none := by
  refine written?_of_idle hblocked ?_ he w
  intro c hc
  simp only [Settings.frameCommands, List.mem_append, List.mem_map, List.mem_singleton] at hc
  obtain (⟨k, hk, rfl⟩ | rfl) | rfl := hc
  · rw [ScriptedKey.command, hkeys k hk]
    rfl
  · rfl
  · rfl

/-- Playing the first frames leads to the machine after them, however long it pauses. -/
theorem playFrom_machine {μ : Type → Type} [Monad μ] [LawfulMonad μ] (settings : Settings)
    (pause : μ Unit) (m : Machine) (n : Nat) :
    (do let s ← Session.playFrom settings pause 0 n { machine := m }; pure s.machine) = (do
      (List.range n).forM fun _ => pause
      pure (m.afterFrames settings n)) := by
  rw [Session.playFrom_eq, ← List.range_eq_range', bind_assoc]
  simp only [pure_bind]
  rfl

end Machine

/-- **A timer shows the value last written to it less the ticks since then.** This holds at every
moment of every history of a fresh machine. An instruction that reads the delay timer loads just
this value, and the buzzer sounds while the sound timer has not run down. In a session from such a
moment, a value written in frame `f` and no more after that has lost `g - f` at the end of frame
`g`, and frames in which the machine stays blocked write nothing. -/
theorem timers_from_last_write {μ : Type → Type} [Monad μ] [LawfulMonad μ] (seed : Option UInt64)
    (entropy : Entropy) (cs : List Command) {past : List Event}
    (hpast : past <+: (Machine.new seed entropy).events cs) (settings : Settings)
    (pause : μ Unit) :
    let m := (Machine.new seed entropy).after past
    (∀ w, (m.state.timer w).toNat = (lastWritten 0 past w).toNat - ticksSince past w) ∧
      (∀ j e, past[j]? = some e → e.move = .execute .readDelay →
        let s := e.machine.state
        ∃ v : UInt8,
          v.toNat =
            (lastWritten 0 (past.take j) .delay).toNat - ticksSince (past.take j) .delay ∧
          e.after = e.machine.withState
            { s.setReg (s.memory.x s.pc.toNat) v with pc := s.pc + 2 }) ∧
      (m.buzzing = true ↔ ticksSince past .sound < (lastWritten 0 past .sound).toNat) ∧
      (∀ n, (do let s ← Session.playFrom settings pause 0 n { machine := m }; pure s.machine) = (do
          (List.range n).forM fun _ => pause
          pure (m.afterFrames settings n)) ∧
        m.afterFrames settings (n + 1) =
          (m.afterFrames settings n).after (m.frameEvents settings n)) ∧
      (∀ w f g before e rest v, m.frameEvents settings f = before ++ e :: rest →
        e.written? w = some v → (∀ e' ∈ rest, e'.written? w = none) → f ≤ g →
        (∀ n, f < n → n ≤ g → ∀ e' ∈ m.frameEvents settings n, e'.written? w = none) →
        ((m.afterFrames settings (g + 1)).state.timer w).toNat = v.toNat - (g - f)) ∧
      ∀ n, (m.afterFrames settings n).state.blocked = true →
        (∀ k ∈ settings.scriptAt n, k.pressed = false) →
        ∀ e ∈ m.frameEvents settings n, ∀ w, e.written? w = none := by
  intro m
  have h : Linked (Machine.new seed entropy) past := (Linked.events _ cs).take hpast
  have hvalue (w : Timer) :
      m.state.timer w = State.countDownBy (ticksSince past w) (lastWritten 0 past w) := by
    rw [h.timer_eq]
    cases w <;> rfl
  refine ⟨fun w => ?_, ?_, ?_, fun n => ⟨m.playFrom_machine settings pause n,
    m.afterFrames_succ settings n⟩, ?_, ?_⟩
  · rw [hvalue, State.toNat_countDownBy]
  · intro j e he hmove s
    have hmachine : (Machine.new seed entropy).after (past.take j) = e.machine := (h.getElem he).1
    have hdelay : s.delay =
        State.countDownBy (ticksSince (past.take j) .delay)
          (lastWritten 0 (past.take j) .delay) := by
      have := (h.take (List.take_prefix j past)).timer_eq .delay
      rwa [hmachine] at this
    refine ⟨s.delay, ?_, ?_⟩
    · rw [hdelay, State.toNat_countDownBy]
    · rw [Event.after, hmove]
      rfl
  · have hsound : m.state.sound.toNat =
        (lastWritten 0 past .sound).toNat - ticksSince past .sound := by
      rw [← State.toNat_countDownBy, ← hvalue]
      rfl
    have hzero : m.state.sound = 0 ↔ m.state.sound.toNat = 0 := by
      rw [← UInt8.toNat_inj]
      rfl
    rw [Machine.buzzing, bne_iff_ne, ne_eq, hzero, hsound]
    omega
  · intro w f g before e rest v hsplit hv hrest hfg hlater
    rw [Machine.timer_afterFrames hsplit hv hrest hfg hlater, State.toNat_countDownBy]
  · intro n hblocked hkeys e he w
    exact Machine.written?_of_blocked hblocked hkeys he w

/-- Both timers get 9. Then the program waits for a key and reads the delay timer. -/
def timedWait : List UInt8 :=
  [0x60, 0x09, 0xF0, 0x18, 0xF0, 0x15, 0xF1, 0x0A, 0xF2, 0x07]

/-- The host writes the delay timer while the program waits, so the program reads 199. Played in
frames without keys, the machine blocks in the first one, and the delay timer loses one in each of
the next two. -/
theorem timers_from_last_write_timedWait :
    let loaded := [.load timedWait default]
    let fresh := (Machine.new (some 7) default).after ((Machine.new (some 7) default).events loaded)
    let past := (Machine.new (some 7) default).events (loaded ++ [.step 3, .tick, .tick,
      .load (List.replicate 3585 0) default, .step 1, .tick, .setDelay 200, .tick,
      .press (some ⟨5⟩), .step 2])
    let m := (Machine.new (some 7) default).after past
    (m.state.timer .sound).toNat = 5 ∧ (m.state.timer .delay).toNat = 199 ∧
      m.buzzing = true ∧
      (∃ e, past[13]? = some e ∧ (e.after.state.reg 2).toNat = 199) ∧
      ((fresh.afterFrames {} 3).state.timer .delay).toNat = 9 - 2 := by
  intro loaded fresh past m
  obtain ⟨hvalues, hreads, hbuzzing, -, -, -⟩ := timers_from_last_write (some 7) default _
    (List.prefix_refl past) {} (pure () : Id Unit)
  obtain ⟨-, -, -, -, hframes, -⟩ := timers_from_last_write (some 7) default loaded
    (List.prefix_refl _) {} (pure () : Id Unit)
  have hread : past[13]?.any (fun e => decide (e.move = .execute .readDelay) &&
      e.machine.state.memory.x e.machine.state.pc.toNat == 2) = true := by decide +kernel
  obtain ⟨e, he, hmove⟩ := (Option.any_eq_true _ _).1 hread
  simp only [Bool.and_eq_true, beq_iff_eq, decide_eq_true_eq] at hmove
  obtain ⟨v, hv, hafter⟩ := hreads 13 e he hmove.1
  have hsound : (lastWritten 0 past .sound).toNat = 9 ∧ ticksSince past .sound = 4 := by
    decide +kernel
  have hdelay : (lastWritten 0 past .delay).toNat = 200 ∧ ticksSince past .delay = 1 := by
    decide +kernel
  have hbefore : (lastWritten 0 (past.take 13) .delay).toNat = 200 ∧
      ticksSince (past.take 13) .delay = 1 := by decide +kernel
  refine ⟨?_, ?_, ?_, ⟨e, he, ?_⟩, ?_⟩
  · rw [hvalues, hsound.1, hsound.2]
  · rw [hvalues, hdelay.1, hdelay.2]
  · rw [hbuzzing, hsound.1, hsound.2]
    decide
  · rw [hbefore.1, hbefore.2] at hv
    rw [hafter, hmove.2]
    exact (congrArg UInt8.toNat (State.reg_setReg _ 2 2 v)).trans hv
  · -- The first frame writes the timer by its fourth event.
    let frame := fresh.frameEvents {} 0
    have hwrite : frame[3]?.any (fun e => decide (e.written? .delay = some 9)) = true := by
      decide +kernel
    obtain ⟨e, he, hwritten⟩ := (Option.any_eq_true _ _).1 hwrite
    have hsplit : frame = frame.take 3 ++ e :: frame.drop 4 := by
      obtain ⟨hlt, rfl⟩ := List.getElem?_eq_some_iff.1 he
      rw [← List.drop_eq_getElem_cons hlt, List.take_append_drop]
    have hrest : ∀ e ∈ frame.drop 4, e.written? .delay = none := by decide +kernel
    have hlater : ∀ n < 3, 0 < n → ∀ e ∈ fresh.frameEvents {} n, e.written? .delay = none := by
      decide +kernel
    exact hframes .delay 0 2 _ e _ 9 hsplit (of_decide_eq_true hwritten) hrest (Nat.zero_le 2)
      fun n hn hn2 => hlater n (by omega) hn

end ChipEight
