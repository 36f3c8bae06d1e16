import ChipEight.Proofs.Effects
import ChipEight.Proofs.History

/-!
# Key waits

A key wait takes the pending key, and blocks the machine if there is none. What is pending and
whether the machine is blocked can be read off the events so far: the key of the last press since
the mailbox was emptied (`lastPress`), and whether the last event that decides it is a wait that
found no key (`waiting`). So every key goes to one wait at most, and only the last of several
presses is delivered (`key_wait_delivery`).
-/

set_option autoImplicit false

namespace ChipEight

/-! ## Kinds of events -/

namespace Event

/-- The key that the event presses, if it is a press. -/
def pressed? (e : Event) : Option Key :=
  match e.move with
  | .command (.press k) => k
  | _ => none

/-- The execution of a key wait. -/
def isWait (e : Event) : Bool := e.move = .execute .awaitKey

/-- A key wait that finds a key. -/
def completes (e : Event) : Bool := e.isWait && e.machine.state.pending.isSome

/-- A key wait that finds no key. -/
def starves (e : Event) : Bool := e.isWait && e.machine.state.pending.isNone

/-- After these events no earlier press counts. -/
def clears (e : Event) : Bool := e.restarts || e.completes

/-- These events decide whether the machine is blocked. -/
def decides (e : Event) : Bool := e.starves || e.pressed?.isSome || e.restarts

end Event

/-- The key of the last press since the last event that clears. -/
def lastPress (past : List Event) : Option Key :=
  ((past.rtakeWhile fun e => !e.clears).filterMap Event.pressed?).getLast?

/-- Whether the last event that decides is a wait without a key. -/
def waiting (past : List Event) : Bool := (past.filter Event.decides).getLast?.any Event.starves

theorem lastPress_concat (past : List Event) (e : Event) :
    lastPress (past ++ [e]) = if e.clears then none else e.pressed?.or (lastPress past) :=
  latest_concat Event.clears Event.pressed? past e

theorem waiting_concat (past : List Event) (e : Event) :
    waiting (past ++ [e]) = if e.decides then e.starves else waiting past := by
  unfold waiting
  rw [List.filter_append]
  cases h : e.decides <;> simp [h]

/-! ## One event -/

namespace Event

theorem isWait_iff {e : Event} : e.isWait = true ↔ e.move = .execute .awaitKey := by
  simp [isWait]

/-- A wait that finds a key stores it and goes on. -/
theorem after_of_completes {e : Event} (h : e.isWait = true) {k : Key}
    (hk : e.machine.state.pending = some k) :
    e.after = e.machine.withState
      { e.machine.state.setReg (e.machine.state.memory.x e.machine.state.pc.toNat) k.toByte with
        pending := none, blocked := false, pc := e.machine.state.pc + 2 } := by
  rw [after, isWait_iff.1 h]
  show e.machine.withState _ = _
  rw [Instruction.execute_awaitKey_of_pending hk]

/-- A wait that finds no key blocks. -/
theorem after_of_starves {e : Event} (h : e.isWait = true)
    (hk : e.machine.state.pending = none) :
    e.after = e.machine.withState { e.machine.state with blocked := true } := by
  rw [after, isWait_iff.1 h]
  show e.machine.withState _ = _
  rw [Instruction.execute_awaitKey_of_none hk]

theorem pending_after {e : Event} (hv : e.Valid) :
    e.after.state.pending = if e.clears then none else e.pressed?.or e.machine.state.pending := by
  obtain ⟨m, move⟩ := e
  cases move with
  | execute i =>
    show (i.execute m.state).state.pending = _
    rw [Instruction.pending_execute]
    by_cases hi : i = .awaitKey
    · cases hp : m.state.pending <;> simp [clears, restarts, completes, isWait, pressed?, hi, hp]
    · simp [clears, restarts, completes, isWait, pressed?, hi]
  | command c =>
    cases c with
    | step n => exact absurd rfl (hv n)
    | load program entropy =>
      rcases m.perform_load program entropy with ⟨hdone, memory, hstate⟩ | ⟨hdone, hsame⟩
      · simp [after, clears, restarts, hdone, hstate, State.initial]
      · simp [after, clears, restarts, completes, isWait, pressed?, hdone, hsame]
    | press k => cases k <;> rfl
    | release k => cases k <;> rfl
    | _ => rfl

theorem blocked_after {e : Event} (hv : e.Valid) :
    e.after.state.blocked = if e.decides then e.starves else e.machine.state.blocked := by
  obtain ⟨m, move⟩ := e
  cases move with
  | execute i =>
    show (i.execute m.state).state.blocked = _
    have hrun : m.state.blocked = false := hv.1
    rw [Instruction.blocked_execute]
    by_cases hi : i = .awaitKey
    · cases hp : m.state.pending <;>
        simp [decides, starves, restarts, isWait, pressed?, hi, hp, hrun]
    · simp [decides, starves, restarts, isWait, pressed?, hi]
  | command c =>
    cases c with
    | step n => exact absurd rfl (hv n)
    | load program entropy =>
      rcases m.perform_load program entropy with ⟨hdone, memory, hstate⟩ | ⟨hdone, hsame⟩
      · simp [after, decides, starves, restarts, isWait, hdone, hstate, State.initial]
      · simp [after, decides, starves, restarts, isWait, pressed?, hdone, hsame]
    | press k => cases k <;> rfl
    | release k => cases k <;> rfl
    | _ => rfl

end Event

/-! ## Histories -/

/-- The pending key and whether the machine is blocked are what the history says. -/
theorem Linked.mailbox {seed : Option UInt64} {entropy : Entropy} {past : List Event}
    (h : Linked (Machine.new seed entropy) past) :
    ((Machine.new seed entropy).after past).state.pending = lastPress past ∧
      ((Machine.new seed entropy).after past).state.blocked = waiting past := by
  refine h.induction
    (P := fun past m => m.state.pending = lastPress past ∧ m.state.blocked = waiting past)
    ?_ [] ⟨rfl, rfl⟩
  rintro past e hv ⟨hpending, hblocked⟩
  constructor
  · rw [Event.pending_after hv, lastPress_concat, hpending]
  · rw [Event.blocked_after hv, waiting_concat, hblocked]

/-- Neither a press nor an event that clears: a release, a tick, a refused load, an instruction
other than a wait. -/
def Event.Quiet (e : Event) : Prop := e.pressed? = none ∧ e.clears = false

theorem getElem?_concat_eq_some_iff {past : List Event} {e e' : Event} {l : Nat} :
    (past ++ [e])[l]? = some e' ↔ past[l]? = some e' ∨ l = past.length ∧ e = e' := by
  grind

/-- Event `i` presses `k`, and all events after it are quiet. -/
structure Stands (past : List Event) (i : Nat) (k : Key) : Prop where
  press : ∃ e, past[i]? = some e ∧ e.pressed? = some k
  quiet : ∀ l e, i < l → past[l]? = some e → e.Quiet

theorem stands_concat {past : List Event} {e : Event} {i : Nat} {k : Key} :
    Stands (past ++ [e]) i k ↔
      (i = past.length ∧ e.pressed? = some k) ∨ (e.Quiet ∧ Stands past i k) := by
  constructor
  · rintro ⟨⟨e', he', hk⟩, hquiet⟩
    rcases getElem?_concat_eq_some_iff.1 he' with he' | ⟨rfl, rfl⟩
    · have hi : i < past.length := (List.getElem?_eq_some_iff.1 he').1
      refine .inr ⟨hquiet past.length e hi List.getElem?_concat_length, ⟨e', he', hk⟩, ?_⟩
      intro l f hl hf
      exact hquiet l f hl (getElem?_concat_eq_some_iff.2 (.inl hf))
    · exact .inl ⟨rfl, hk⟩
  · rintro (⟨rfl, hk⟩ | ⟨he, ⟨e', he', hk⟩, hquiet⟩)
    · refine ⟨⟨e, List.getElem?_concat_length, hk⟩, fun l f hl hf => ?_⟩
      have hlen := (List.getElem?_eq_some_iff.1 hf).1
      rw [List.length_append, List.length_singleton] at hlen
      omega
    · refine ⟨⟨e', getElem?_concat_eq_some_iff.2 (.inl he'), hk⟩, fun l f hl hf => ?_⟩
      rcases getElem?_concat_eq_some_iff.1 hf with hf | ⟨-, rfl⟩
      · exact hquiet l f hl hf
      · exact he

theorem Event.clears_of_pressed? {e : Event} {k : Key} (h : e.pressed? = some k) :
    e.clears = false := by
  obtain ⟨m, move⟩ := e
  cases move with
  | execute i => cases h
  | command c =>
    cases c with
    | press _ => rfl
    | _ => cases h

/-- The key of the last press that counts is the one that stands. -/
theorem lastPress_eq_some_iff {past : List Event} {k : Key} :
    lastPress past = some k ↔ ∃ i, Stands past i k := by
  induction past using List.reverseRecOn with
  | nil =>
    refine iff_of_false nofun ?_
    rintro ⟨i, ⟨e, he, -⟩, -⟩
    cases he
  | append_singleton past e ih =>
    simp only [lastPress_concat, stands_concat, Event.Quiet]
    cases hclears : e.clears with
    | true =>
      refine iff_of_false nofun ?_
      rintro ⟨i, ⟨-, hk⟩ | ⟨⟨-, hquiet⟩, -⟩⟩
      · rw [e.clears_of_pressed? hk] at hclears
        cases hclears
      · cases hquiet
    | false =>
      cases hpressed : e.pressed? with
      | none => simp [ih]
      | some k' => simp

/-- Event `j` is a wait, and when it comes the key `k` that event `i` presses is the last one. -/
structure Delivers (past : List Event) (i j : Nat) (k : Key) : Prop where
  lt : i < j
  press : ∃ e, past[i]? = some e ∧ e.pressed? = some k
  wait : ∃ e, past[j]? = some e ∧ e.isWait = true
  quiet : ∀ l e, i < l → l < j → past[l]? = some e → e.Quiet

theorem getElem?_take_eq_some_iff {past : List Event} {e : Event} {l j : Nat} :
    (past.take j)[l]? = some e ↔ l < j ∧ past[l]? = some e := by
  rw [List.getElem?_take]
  split <;> simp [*]

theorem delivers_iff {past : List Event} {i j : Nat} {k : Key} :
    Delivers past i j k ↔ Stands (past.take j) i k ∧ ∃ e, past[j]? = some e ∧ e.isWait = true := by
  constructor
  · intro h
    obtain ⟨e, he, hk⟩ := h.press
    refine ⟨⟨⟨e, getElem?_take_eq_some_iff.2 ⟨h.lt, he⟩, hk⟩, fun l f hl hf => ?_⟩, h.wait⟩
    obtain ⟨hlj, hf⟩ := getElem?_take_eq_some_iff.1 hf
    exact h.quiet l f hl hlj hf
  · rintro ⟨⟨⟨e, he, hk⟩, hquiet⟩, hwait⟩
    obtain ⟨hij, he⟩ := getElem?_take_eq_some_iff.1 he
    refine ⟨hij, ⟨e, he, hk⟩, hwait, fun l f hl hlj hf => ?_⟩
    exact hquiet l f hl (getElem?_take_eq_some_iff.2 ⟨hlj, hf⟩)

theorem Delivers.press_le {past : List Event} {i i' j : Nat} {k k' : Key}
    (hd : Delivers past i j k) (hd' : Delivers past i' j k') : i' ≤ i := by
  by_contra hlt
  obtain ⟨e, he, hk⟩ := hd'.press
  have hquiet := (hd.quiet i' e (by omega) hd'.lt he).1
  rw [hk] at hquiet
  cases hquiet

/-- Only the last of several presses is delivered. -/
theorem Delivers.press_unique {past : List Event} {i i' j : Nat} {k k' : Key}
    (hd : Delivers past i j k) (hd' : Delivers past i' j k') : i = i' :=
  Nat.le_antisymm (hd'.press_le hd) (hd.press_le hd')

section Fresh

variable {seed : Option UInt64} {entropy : Entropy} {past : List Event}
  (h : Linked (Machine.new seed entropy) past)
include h

/-- A wait finds a key exactly if a press is delivered to it. -/
theorem pending_eq_some_iff_delivers {j : Nat} {e : Event} (he : past[j]? = some e)
    (hwait : e.isWait = true) {k : Key} :
    e.machine.state.pending = some k ↔ ∃ i, Delivers past i j k := by
  have hmachine := (h.getElem he).1
  have htake : Linked (Machine.new seed entropy) (past.take j) := h.take (List.take_prefix j past)
  rw [← hmachine, htake.mailbox.1, lastPress_eq_some_iff]
  simp only [delivers_iff]
  constructor
  · rintro ⟨i, hi⟩
    exact ⟨i, hi, e, he, hwait⟩
  · rintro ⟨i, hi, -⟩
    exact ⟨i, hi⟩

/-- The wait that a press is delivered to empties the mailbox. -/
theorem Delivers.clears {i j : Nat} {k : Key} (hd : Delivers past i j k) {e : Event}
    (he : past[j]? = some e) : e.clears = true := by
  obtain ⟨e', he', hwait⟩ := hd.wait
  obtain rfl : e = e' := Option.some.inj (he.symm.trans he')
  have hpending := (pending_eq_some_iff_delivers h he hwait).2 ⟨i, hd⟩
  simp [Event.clears, Event.completes, hwait, hpending]

theorem Delivers.wait_le {i j j' : Nat} {k k' : Key} (hd : Delivers past i j k)
    (hd' : Delivers past i j' k') : j' ≤ j := by
  by_contra hlt
  obtain ⟨e, he, -⟩ := hd.wait
  have hquiet := (hd'.quiet j e hd.lt (by omega) he).2
  rw [hd.clears h he] at hquiet
  cases hquiet

/-- A press is delivered to one wait at most. -/
theorem Delivers.wait_unique {i j j' : Nat} {k k' : Key} (hd : Delivers past i j k)
    (hd' : Delivers past i j' k') : j = j' :=
  Nat.le_antisymm (hd'.wait_le h hd) (hd.wait_le h hd')

theorem pending_of_quiet {e : Event} (he : e ∈ past) (hq : e.Quiet) :
    e.after.state.pending = e.machine.state.pending := by
  obtain ⟨j, hj⟩ := List.mem_iff_getElem?.1 he
  obtain ⟨hpressed, hclears⟩ := hq
  rw [Event.pending_after (h.getElem hj).2, hpressed, hclears]
  rfl

end Fresh

/-- **Each wait gets the last key pressed, and no key goes to two waits.** At every moment of every
history of a fresh machine, the key of the last press since the last event that clears is pending,
and the machine is blocked exactly if the last event that decides it is a wait without a key. A wait
takes the pending key and goes on, or blocks. It finds the key of the press that is delivered to it,
which is the only one; and a press is delivered to one wait only. -/
theorem key_wait_delivery (seed : Option UInt64) (entropy : Entropy) (cs : List Command)
    {past : List Event} (hpast : past <+: (Machine.new seed entropy).events cs) :
    ((Machine.new seed entropy).after past).state.pending = lastPress past ∧
      ((Machine.new seed entropy).after past).state.blocked = waiting past ∧
      (∀ e ∈ past, e.Quiet → e.after.state.pending = e.machine.state.pending) ∧
      (∀ e : Event, e.isWait = true → ∀ k, e.machine.state.pending = some k →
        e.after = e.machine.withState
          { e.machine.state.setReg (e.machine.state.memory.x e.machine.state.pc.toNat) k.toByte with
            pending := none, blocked := false, pc := e.machine.state.pc + 2 }) ∧
      (∀ e : Event, e.isWait = true → e.machine.state.pending = none →
        e.after = e.machine.withState { e.machine.state with blocked := true }) ∧
      (∀ j e, past[j]? = some e → e.isWait = true → ∀ k,
        e.machine.state.pending = some k ↔ ∃ i, Delivers past i j k) ∧
      (∀ i j j' k k', Delivers past i j k → Delivers past i j' k' → j = j') ∧
      ∀ i i' j k k', Delivers past i j k → Delivers past i' j k' → i = i' := by
  have h : Linked (Machine.new seed entropy) past := (Linked.events _ cs).take hpast
  refine ⟨h.mailbox.1, h.mailbox.2, ?_, ?_, ?_, ?_, ?_, ?_⟩
  · intro e he hq
    exact pending_of_quiet h he hq
  · intro e hwait k hk
    exact Event.after_of_completes hwait hk
  · intro e hwait hnone
    exact Event.after_of_starves hwait hnone
  · intro j e he hwait k
    exact pending_eq_some_iff_delivers h he hwait
  · intro i j j' k k' hd hd'
    exact hd.wait_unique h hd'
  · intro i i' j k k' hd hd'
    exact hd.press_unique hd'

/-- Of two keys pressed before two waits, the first wait gets the second, though it was released,
and the second wait gets none. -/
theorem key_wait_delivery_released :
    let m := Machine.new (some 7) default
    let past := m.events [.load [0xF1, 0x0A, 0xF2, 0x0A] default, .press (some ⟨5⟩),
      .press (some ⟨6⟩), .release (some ⟨6⟩), .step 2]
    (∃ i, Delivers past i 4 ⟨6⟩) ∧ (m.after past).state.pending = none ∧
      (m.after past).state.blocked = true := by
  intro m past
  obtain ⟨hpending, hblocked, -, -, -, hgets, -⟩ :=
    key_wait_delivery (some 7) default _ (List.prefix_refl past)
  have hfourth :
      past[4]?.any (fun e => e.isWait && e.machine.state.pending == some ⟨6⟩) = true := by
    decide +kernel
  obtain ⟨e, he, hwait⟩ := (Option.any_eq_true _ _).1 hfourth
  rw [Bool.and_eq_true, beq_iff_eq] at hwait
  refine ⟨(hgets 4 e he hwait.1 _).1 hwait.2, ?_, ?_⟩
  · rw [hpending]
    decide +kernel
  · rw [hblocked]
    decide +kernel

end ChipEight
