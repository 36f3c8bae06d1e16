import ChipEight.Proofs.Batches
import ChipEight.Proofs.Playback
import Mathlib.Data.List.Infix

/-!
# Interference of the timers

The sound timer is written and never read: machines that differ in it only answer every history the
same (`Machine.SameBut.performAll`). The delay timer is read by one class of instruction. As long as
the table has none of that class, whatever the bytes in memory say, neither timer is read, and
commands about the timers can be put in or left out anywhere (`Machine.SameBut.performAll_retimed`).
A session without a script then leads where one long batch does (`timers_do_not_interfere`).
-/

set_option autoImplicit false

namespace ChipEight

/-- The timers in which two states may differ. -/
inductive Timers
  | sound
  | both
deriving DecidableEq

/-! ## States -/

/-- States that are the same but for some timers. -/
def State.SameBut : Timers → State → State → Prop
  | .sound, s, t => ∃ v, t = { s with sound := v }
  | .both, s, t => ∃ d v, t = { s with delay := d, sound := v }

/-- Effects that are the same but for some timers. -/
structure Effect.SameBut (w : Timers) (e f : Effect) : Prop where
  state : e.state.SameBut w f.state
  signal : e.signal = f.signal
  log : e.log = f.log

namespace State

variable {w : Timers} {s t u : State}

theorem sameBut_iff :
    s.SameBut w t ↔ ∃ d v, t = { s with delay := d, sound := v } ∧ (w = .sound → d = s.delay) := by
  cases w with
  | sound =>
    constructor
    · rintro ⟨v, rfl⟩
      exact ⟨s.delay, v, rfl, fun _ => rfl⟩
    · rintro ⟨d, v, rfl, hd⟩
      rw [hd rfl]
      exact ⟨v, rfl⟩
  | both =>
    constructor
    · rintro ⟨d, v, rfl⟩
      exact ⟨d, v, rfl, nofun⟩
    · rintro ⟨d, v, rfl, -⟩
      exact ⟨d, v, rfl⟩

namespace SameBut

theorem refl (w : Timers) (s : State) : s.SameBut w s :=
  sameBut_iff.2 ⟨s.delay, s.sound, rfl, fun _ => rfl⟩

theorem symm (h : s.SameBut w t) : t.SameBut w s := by
  obtain ⟨d, v, rfl, hd⟩ := sameBut_iff.1 h
  exact sameBut_iff.2 ⟨s.delay, s.sound, rfl, fun hw => (hd hw).symm⟩

theorem trans (h : s.SameBut w t) (h' : t.SameBut w u) : s.SameBut w u := by
  obtain ⟨d, v, rfl, hd⟩ := sameBut_iff.1 h
  obtain ⟨d', v', rfl, hd'⟩ := sameBut_iff.1 h'
  exact sameBut_iff.2 ⟨d', v', rfl, fun hw => (hd' hw).trans (hd hw)⟩

theorem pc (h : s.SameBut w t) : s.pc = t.pc := by
  obtain ⟨d, v, rfl, -⟩ := sameBut_iff.1 h
  rfl

theorem blocked (h : s.SameBut w t) : s.blocked = t.blocked := by
  obtain ⟨d, v, rfl, -⟩ := sameBut_iff.1 h
  rfl

theorem tick (h : s.SameBut w t) : s.tick.SameBut w t.tick := by
  obtain ⟨d, v, rfl, hd⟩ := sameBut_iff.1 h
  exact sameBut_iff.2 ⟨countDown d, countDown v, rfl, fun hw => by rw [hd hw]; rfl⟩

/-- Only a read of the delay timer tells states apart that differ in it, and nothing tells states
apart that differ in the sound timer. -/
theorem execute (h : s.SameBut w t) {i : Instruction} (hi : w = .both → i ≠ .readDelay) :
    (i.execute s).SameBut w (i.execute t) := by
  obtain ⟨d, v, rfl, hd⟩ := sameBut_iff.1 h
  cases i with
  | readDelay =>
    cases w with
    | sound =>
      -- The delay timers are equal, and the sound timer is not read.
      rw [hd rfl]
      exact ⟨⟨v, rfl⟩, rfl, rfl⟩
    | both => exact absurd rfl (hi rfl)
  | setDelay =>
    exact ⟨sameBut_iff.2 ⟨s.reg (s.memory.x s.pc.toNat), v, rfl, fun _ => rfl⟩, rfl, rfl⟩
  | setSound => exact ⟨sameBut_iff.2 ⟨d, s.reg (s.memory.x s.pc.toNat), rfl, hd⟩, rfl, rfl⟩
  | alu op => cases op <;> exact ⟨sameBut_iff.2 ⟨d, v, rfl, hd⟩, rfl, rfl⟩
  | awaitKey =>
    simp only [Instruction.execute, Instruction.executeAwaitKey]
    cases s.pending <;> exact ⟨sameBut_iff.2 ⟨d, v, rfl, hd⟩, rfl, rfl⟩
  | _ => exact ⟨sameBut_iff.2 ⟨d, v, rfl, hd⟩, rfl, rfl⟩

end SameBut

end State

/-! ## Machines -/

namespace Machine

/-- Machines that are the same but for some timers. -/
def SameBut (w : Timers) (m m' : Machine) : Prop :=
  ∃ t, m.state.SameBut w t ∧ m' = m.withState t

/-- No instruction in the table reads the delay timer. Memory may hold bytes of one that was not
compiled. -/
def NoDelayRead (m : Machine) : Prop := .readDelay ∉ m.table.toList

theorem NoDelayRead.get_ne {m : Machine} (h : m.NoDelayRead) (a : Nat) :
    m.table.get a ≠ .readDelay := by
  intro ha
  refine h (ha ▸ ?_)
  simp [Bank.get, Bank.toList]

namespace SameBut

variable {w : Timers} {m m' m'' : Machine}

theorem of_state {s t : State} (h : s.SameBut w t) : (m.withState s).SameBut w (m.withState t) :=
  ⟨t, h, rfl⟩

theorem refl (w : Timers) (m : Machine) : m.SameBut w m := ⟨m.state, .refl w _, rfl⟩

theorem symm (h : m.SameBut w m') : m'.SameBut w m := by
  obtain ⟨t, ht, rfl⟩ := h
  exact ⟨m.state, ht.symm, rfl⟩

theorem trans (h : m.SameBut w m') (h' : m'.SameBut w m'') : m.SameBut w m'' := by
  obtain ⟨t, ht, rfl⟩ := h
  obtain ⟨u, hu, rfl⟩ := h'
  exact ⟨u, ht.trans hu, rfl⟩

/-- Batches from states that are the same but for some timers. -/
theorem advance (hm : w = .both → m.NoDelayRead) {b c : Batch} (hs : b.state.SameBut w c.state)
    (hdrew : b.drew = c.drew) (hlog : b.log = c.log) (n : Nat) :
    (b.advance m.table n).state.SameBut w (c.advance m.table n).state ∧
      (b.advance m.table n).drew = (c.advance m.table n).drew ∧
      (b.advance m.table n).log = (c.advance m.table n).log := by
  induction n generalizing b c with
  | zero => exact ⟨hs, hdrew, hlog⟩
  | succ n ih =>
    rw [Batch.advance, Batch.advance, hs.blocked]
    split
    · exact ⟨hs, hdrew, hlog⟩
    · have he := hs.execute fun hw => (hm hw).get_ne c.state.pc.toNat
      refine ih ?_ ?_ ?_
      · rw [Batch.next, Batch.next, hs.pc]
        exact he.state
      · rw [Batch.next, Batch.next, hs.pc, hdrew, he.signal]
      · rw [Batch.next, Batch.next, hs.pc, hlog, he.log]

theorem run (h : m.SameBut w m') (hm : w = .both → m.NoDelayRead) (n : Nat) :
    (m.run n).state.SameBut w (m'.run n).state ∧ (m.run n).signal = (m'.run n).signal ∧
      (m.run n).log = (m'.run n).log := by
  obtain ⟨t, ht, rfl⟩ := h
  have hrun : (m.run n).state.SameBut w ((m.withState t).run n).state ∧
      (m.run n).drew = ((m.withState t).run n).drew ∧
      (m.run n).log = ((m.withState t).run n).log :=
    advance hm (b := { state := m.state }) (c := { state := t }) ht rfl rfl n
  obtain ⟨hs, hdrew, hlog⟩ := hrun
  refine ⟨hs, ?_, hlog⟩
  rw [Batch.signal, Batch.signal, hs.blocked, hdrew]

/-- Every command is answered the same, and machines stay the same but for some timers. -/
theorem perform (h : m.SameBut w m') (hm : w = .both → m.NoDelayRead) (c : Command) :
    (m.perform c).machine.SameBut w (m'.perform c).machine ∧
      (m.perform c).reply = (m'.perform c).reply ∧ (m.perform c).log = (m'.perform c).log := by
  have hrun := h.run hm
  obtain ⟨t, ht, rfl⟩ := h
  obtain ⟨d, v, rfl, hd⟩ := State.sameBut_iff.1 ht
  cases c with
  | step n =>
    obtain ⟨hs, hsignal, hlog⟩ := hrun n
    exact ⟨of_state hs, congrArg Reply.ran hsignal, hlog⟩
  | reset entropy => exact ⟨refl w (m.reset entropy), rfl, rfl⟩
  | load program entropy =>
    rcases Nat.lt_or_ge Memory.maxProgram program.length with hlong | hfit
    · rw [perform_load_of_lt hlong, perform_load_of_lt hlong]
      exact ⟨of_state ht, rfl, rfl⟩
    · rw [perform_load_of_le hfit, perform_load_of_le hfit]
      exact ⟨refl w _, rfl, rfl⟩
  | tick => exact ⟨of_state ht.tick, rfl, rfl⟩
  | setDelay x => exact ⟨of_state (State.sameBut_iff.2 ⟨x, v, rfl, fun _ => rfl⟩), rfl, rfl⟩
  | press k | release k =>
    cases k with
    | none => exact ⟨of_state ht, rfl, rfl⟩
    | some k => exact ⟨of_state (State.sameBut_iff.2 ⟨d, v, rfl, hd⟩), rfl, rfl⟩
  | compile w' => exact ⟨⟨_, State.sameBut_iff.2 ⟨d, v, rfl, hd⟩, rfl⟩, rfl, rfl⟩
  | setRegister x a => exact ⟨of_state (State.sameBut_iff.2 ⟨d, v, rfl, hd⟩), rfl, rfl⟩
  | setIndex a => exact ⟨of_state (State.sameBut_iff.2 ⟨d, v, rfl, hd⟩), rfl, rfl⟩
  | write a data => exact ⟨of_state (State.sameBut_iff.2 ⟨d, v, rfl, hd⟩), rfl, rfl⟩

/-! ## Histories -/

/-- Nothing a host can do tells machines apart that differ in the sound timer only. -/
theorem performAll (h : m.SameBut .sound m') (cs : List Command) :
    (m.performAll cs).1.SameBut .sound (m'.performAll cs).1 ∧
      (m.performAll cs).2 = (m'.performAll cs).2 := by
  induction cs generalizing m m' with
  | nil => exact ⟨h, rfl⟩
  | cons c cs ih =>
    obtain ⟨hmachine, hreply, hlog⟩ := h.perform nofun c
    obtain ⟨hend, hrest⟩ := ih hmachine
    obtain ⟨hreplies, hlogs⟩ := Prod.ext_iff.1 hrest
    exact ⟨hend, Prod.ext (congrArg₂ List.cons hreply hreplies) (congrArg₂ (· ++ ·) hlog hlogs)⟩

end SameBut

end Machine

/-- Commands about the timers and nothing else. -/
def Command.timing : Command → Bool
  | tick | setDelay _ => true
  | _ => false

/-- One history becomes the other by putting in and leaving out commands about the timers. -/
inductive Retimed : List Command → List Command → Prop
  | nil : Retimed [] []
  | same (c : Command) {cs cs' : List Command} : Retimed cs cs' → Retimed (c :: cs) (c :: cs')
  | leaveOut {c : Command} (hc : c.timing = true) {cs cs' : List Command} :
      Retimed cs cs' → Retimed (c :: cs) cs'
  | putIn {c : Command} (hc : c.timing = true) {cs cs' : List Command} :
      Retimed cs cs' → Retimed cs (c :: cs')

namespace Machine

/-- At no moment of a history does an instruction in the table read the delay timer. -/
def NeverReadsDelay (m : Machine) (cs : List Command) : Prop :=
  ∀ past ∈ cs.inits, (m.performAll past).1.NoDelayRead

/-- What is answered to the commands that are not about the timers. -/
def answers (m : Machine) (cs : List Command) : List (Command × Reply) :=
  (cs.zip (m.performAll cs).2.1).filter fun p => !p.1.timing

instance decidableNoDelayRead (m : Machine) : Decidable m.NoDelayRead :=
  inferInstanceAs (Decidable (.readDelay ∉ m.table.toList))

instance decidableNeverReadsDelay (m : Machine) (cs : List Command) :
    Decidable (m.NeverReadsDelay cs) :=
  inferInstanceAs (Decidable (∀ past ∈ cs.inits, (m.performAll past).1.NoDelayRead))

theorem answers_cons (m : Machine) (c : Command) (cs : List Command) :
    m.answers (c :: cs) =
      if c.timing then (m.perform c).machine.answers cs
      else (c, (m.perform c).reply) :: (m.perform c).machine.answers cs := by
  rw [answers, performAll]
  dsimp only
  rw [List.zip_cons_cons, List.filter_cons]
  cases c.timing <;> rfl

theorem NeverReadsDelay.head {m : Machine} {cs : List Command} (h : m.NeverReadsDelay cs) :
    m.NoDelayRead :=
  h [] ((List.mem_inits [] cs).2 List.nil_prefix)

theorem NeverReadsDelay.tail {m : Machine} {c : Command} {cs : List Command}
    (h : m.NeverReadsDelay (c :: cs)) : (m.perform c).machine.NeverReadsDelay cs := by
  intro past hpast
  have hprefix : past <+: cs := (List.mem_inits past cs).1 hpast
  exact h (c :: past) ((List.mem_inits _ _).2 (List.cons_prefix_cons.2 ⟨rfl, hprefix⟩))

theorem perform_timing {c : Command} (hc : c.timing = true) (m : Machine) :
    m.SameBut .both (m.perform c).machine ∧ (m.perform c).log = #[] := by
  cases c with
  | tick | setDelay x => exact ⟨⟨_, ⟨_, _, rfl⟩, rfl⟩, rfl⟩
  | _ => cases hc

/-- Where nothing reads the delay timer, commands about the timers come to the same wherever they
stand. -/
theorem SameBut.performAll_retimed {m m' : Machine} {cs cs' : List Command}
    (hcs : Retimed cs cs') (h : m.SameBut .both m') (hm : m.NeverReadsDelay cs) :
    (m.performAll cs).1.SameBut .both (m'.performAll cs').1 ∧ m.answers cs = m'.answers cs' ∧
      (m.performAll cs).2.2 = (m'.performAll cs').2.2 := by
  -- Equal tables go on being equal, so it is enough to know those of one of the histories.
  induction hcs generalizing m m' with
  | nil => exact ⟨h, rfl, rfl⟩
  | same c _ ih =>
    obtain ⟨hmachine, hreply, hlog⟩ := h.perform (fun _ => hm.head) c
    obtain ⟨hend, hanswers, hlogs⟩ := ih hmachine hm.tail
    refine ⟨hend, ?_, congrArg₂ (· ++ ·) hlog hlogs⟩
    rw [answers_cons, answers_cons, hanswers, hreply]
  | @leaveOut c hc cs cs' _ ih =>
    obtain ⟨hmachine, hlog⟩ := perform_timing hc m
    obtain ⟨hend, hanswers, hlogs⟩ := ih (hmachine.symm.trans h) hm.tail
    refine ⟨hend, ?_, ?_⟩
    · rw [answers_cons, if_pos hc, hanswers]
    · show (m.perform c).log ++ ((m.perform c).machine.performAll cs).2.2 = _
      rw [hlog, hlogs, Array.empty_append]
  | @putIn c hc cs cs' _ ih =>
    obtain ⟨hmachine, hlog⟩ := perform_timing hc m'
    obtain ⟨hend, hanswers, hlogs⟩ := ih (h.trans hmachine) hm
    refine ⟨hend, ?_, ?_⟩
    · rw [answers_cons, if_pos hc, hanswers]
    · show _ = (m'.perform c).log ++ ((m'.perform c).machine.performAll cs').2.2
      rw [hlog, hlogs, Array.empty_append]

end Machine

/-! ## Sessions without a script -/

namespace Session

variable {settings : Settings} {m : Machine} {s : Session}

/-- One frame is one batch. -/
theorem playFrame_sameBut (hkeys : settings.keys = []) (hm : m.NoDelayRead)
    (h : m.SameBut .both s.machine) (frame : Nat) :
    (m.step settings.stepsPerFrame.toNat).SameBut .both (s.playFrame settings frame).machine ∧
      (s.playFrame settings frame).log = s.log ++ (m.run settings.stepsPerFrame.toNat).log := by
  have hscript : settings.scriptAt frame = [] := by rw [Settings.scriptAt, hkeys, List.filter_nil]
  have hframe : s.playFrame settings frame =
      (s.perform .tick).perform (.step settings.stepsPerFrame.toNat) := by
    rw [playFrame, hscript, List.foldl_nil]
  obtain ⟨hticked, -⟩ := Machine.perform_timing (c := .tick) rfl s.machine
  obtain ⟨hmachine, -, hlog⟩ :=
    (h.trans hticked).perform (fun _ => hm) (.step settings.stepsPerFrame.toNat)
  rw [hframe]
  refine ⟨hmachine, ?_⟩
  show s.log ++ #[] ++ ((s.machine.perform .tick).machine.perform _).log = s.log ++ _
  rw [Array.append_empty, ← hlog]
  rfl

/-- All frames are one batch. -/
theorem foldl_playFrame_sameBut (hkeys : settings.keys = []) (hm : m.NoDelayRead)
    (h : m.SameBut .both s.machine) (frames : List Nat) :
    let played := frames.foldl (fun s frame => s.playFrame settings frame) s
    let count := frames.length * settings.stepsPerFrame.toNat
    (m.step count).SameBut .both played.machine ∧ played.log = s.log ++ (m.run count).log := by
  induction frames generalizing m s with
  | nil =>
    simp only [List.foldl_nil, List.length_nil, Nat.zero_mul]
    exact ⟨h, (Array.append_empty).symm⟩
  | cons frame frames ih =>
    obtain ⟨hfirst, hlog⟩ := playFrame_sameBut hkeys hm h frame
    have hrest := ih (m := m.step settings.stepsPerFrame.toNat) hm hfirst
    dsimp only at hrest ⊢
    obtain ⟨hend, hlogs⟩ := hrest
    rw [List.foldl_cons, List.length_cons, Nat.succ_mul, Nat.add_comm, Machine.step_add,
      Machine.run_add]
    refine ⟨hend, ?_⟩
    rw [hlogs, hlog, Array.append_assoc]
    rfl

end Session

/-- **Timers interfere with nothing they should not.** Machines that differ in the sound timer only
answer every history the same and go on to differ in nothing else. As long as no instruction in the
table reads the delay timer, the same goes for machines that differ in both timers, wherever
commands about the timers are put in or left out; and a session without a script leads where one
batch of as many instructions does, but for the timers. A history says which entropy is drawn, so
machines without a seed draw the same. -/
theorem timers_do_not_interfere (m m' : Machine) (cs : List Command) :
    (m.SameBut .sound m' →
        (m.performAll cs).2 = (m'.performAll cs).2 ∧
          (m.performAll cs).1.SameBut .sound (m'.performAll cs).1) ∧
      (m.SameBut .both m' → m.NeverReadsDelay cs → ∀ cs', Retimed cs cs' →
        m.answers cs = m'.answers cs' ∧ (m.performAll cs).2.2 = (m'.performAll cs').2.2 ∧
          (m.performAll cs).1.SameBut .both (m'.performAll cs').1) ∧
      (m.NoDelayRead → ∀ settings : Settings, settings.keys = [] →
        let whole := m.perform (.step (settings.frames.toNat * settings.stepsPerFrame.toNat))
        ∃ s : Session, whole.machine.SameBut .both s.machine ∧ s.log = whole.log ∧
          ∀ (μ : Type → Type) [Monad μ] [LawfulMonad μ] (pause : μ Unit),
            Session.run settings pause m = (do
              (List.range settings.frames.toNat).forM fun _ => pause
              pure (s, settings.frames))) := by
  refine ⟨fun h => ?_, fun h hm cs' hcs => ?_, fun hm settings hkeys => ?_⟩
  · obtain ⟨hend, hanswers⟩ := h.performAll cs
    exact ⟨hanswers, hend⟩
  · obtain ⟨hend, hanswers, hlog⟩ := h.performAll_retimed hcs hm
    exact ⟨hanswers, hlog, hend⟩
  · have hplayed := Session.foldl_playFrame_sameBut (s := { machine := m }) hkeys hm (.refl _ m)
      (List.range settings.frames.toNat)
    rw [List.length_range] at hplayed
    obtain ⟨hend, hlog⟩ := hplayed
    refine ⟨_, hend, hlog.trans Array.empty_append, fun μ _ _ pause => ?_⟩
    rw [Session.run, Session.play, Session.playFrom_eq, ← List.range_eq_range', bind_assoc]
    simp only [pure_bind]
    rfl

/-- `V0 := 3`, both timers to `V0`, then random bytes for ever. -/
def setTimers : List UInt8 := [0x60, 0x03, 0xF0, 0x15, 0xF0, 0x18, 0xC1, 0xFF, 0x12, 0x06]

/-- Bytes that would read the delay timer stand in memory, but are not compiled. Four frames of
three instructions end with another delay timer than twelve instructions, and with the same random
byte. There is no seed, and a second load draws its entropy in the middle of the histories. -/
theorem timers_do_not_interfere_setTimers :
    let m := ((Machine.new none default).perform (.load setTimers default)).machine
    let drawn : Entropy := #v[3, 1, 4, 1, 5, 9, 2, 6]
    let louder := m.withState { m.state with sound := 9 }
    let later := m.withState { m.state with delay := 4, sound := 9 }
    let cs : List Command := [.step 3, .write 0x206 [0xF1, 0x07], .tick, .load setTimers drawn,
      .step 5]
    let cs' : List Command := [.step 3, .write 0x206 [0xF1, 0x07], .setDelay 7,
      .load setTimers drawn, .step 5, .tick]
    let settings : Settings := { frames := 4, stepsPerFrame := 3 }
    (m.SameBut .sound louder ∧ (m.performAll cs).2 = (louder.performAll cs).2) ∧
      (m.SameBut .both later ∧ m.NeverReadsDelay cs ∧ Retimed cs cs' ∧
        m.answers cs = later.answers cs') ∧
      ∃ s : Session,
        Session.run settings (modify (· + 1) : StateM Nat Unit) m = (do
          (List.range 4).forM fun _ => modify (· + 1)
          pure (s, 4)) ∧
        s.machine.state.reg 1 = (m.step 12).state.reg 1 ∧
        s.machine.state.delay = 0 ∧ (m.step 12).state.delay = 3 := by
  intro m drawn louder later cs cs' settings
  have hlouder : m.SameBut .sound louder := ⟨_, ⟨9, rfl⟩, rfl⟩
  have hlater : m.SameBut .both later := ⟨_, ⟨4, 9, rfl⟩, rfl⟩
  have hnever : m.NeverReadsDelay cs := by decide +kernel
  have hcs : Retimed cs cs' :=
    .same _ (.same _ (.leaveOut rfl (.putIn rfl (.same _ (.same _ (.putIn rfl .nil))))))
  obtain ⟨hsound, -⟩ := timers_do_not_interfere m louder cs
  obtain ⟨-, hboth, hsession⟩ := timers_do_not_interfere m later cs
  obtain ⟨s, hend, -, hrun⟩ := hsession hnever.head settings rfl
  have hplayed := hrun (StateM Nat) (modify (· + 1))
  refine ⟨⟨hlouder, (hsound hlouder).1⟩, ⟨hlater, hnever, hcs, (hboth hlater hnever cs' hcs).1⟩, s,
    hplayed, ?_, ?_, by decide +kernel⟩
  · have hbatch : (m.step 12).SameBut .both s.machine := hend
    generalize m.step 12 = batch at hbatch ⊢
    obtain ⟨t, ⟨d, v, rfl⟩, hmachine⟩ := hbatch
    rw [hmachine]
    rfl
  · have hs : s = ((Session.run settings (modify (· + 1) : StateM Nat Unit) m).run 0).1.1 := by
      rw [hplayed]
      rfl
    rw [hs]
    decide +kernel

end ChipEight
