import ChipEight.Machine.Listing
import ChipEight.Proofs.History
import Mathlib.Data.List.FinRange

/-!
# Held keys

A key is held if the last thing that happened to it since the last restart is that it went down
(`Linked.isHeld_eq`). Nothing else matters: what happens to other keys, what the program does with
the key, time, and loads that are refused. A skip on a key asks for just this, and so does the
printed list of keys, from which the keypad can be read back (`Keypad.ofText_text`).
-/

set_option autoImplicit false

namespace ChipEight

/-! ## What happened to a key -/

/-- Whether an event moves a key, and then whether the key goes down. -/
def Event.stroke? (e : Event) (k : Key) : Option Bool :=
  match e.move with
  | .command (.press j) => if j = some k then some true else none
  | .command (.release j) => if j = some k then some false else none
  | _ => none

/-- Whether the last thing that happened to a key since the last restart is that it went down. None
if nothing happened to it. -/
def lastStroke (past : List Event) (k : Key) : Option Bool :=
  latest Event.restarts (fun e => e.stroke? k) past

theorem Event.isHeld_after {e : Event} (hv : e.Valid) (k : Key) :
    e.after.state.keypad.isHeld k =
      if e.restarts then false else (e.stroke? k).getD (e.machine.state.keypad.isHeld k) := by
  obtain ⟨m, move⟩ := e
  cases move with
  | execute i =>
    show (i.execute m.state).state.keypad.isHeld k = _
    rw [Instruction.keypad_execute]
    rfl
  | command c =>
    cases c with
    | step n => exact absurd rfl (hv n)
    | load program entropy =>
      rcases m.perform_load program entropy with ⟨hdone, memory, hstate⟩ | ⟨hdone, hsame⟩
      · simp [after, restarts, hdone, hstate, State.initial]
      · simp [after, restarts, stroke?, hdone, hsame]
    | reset entropy => exact Keypad.isHeld_empty k
    | press j =>
      cases j with
      | none => rfl
      | some j =>
        show (m.state.keypad.press j).isHeld k = _
        rw [Keypad.isHeld_press]
        by_cases hj : j = k
        · simp [restarts, stroke?, hj]
        · simp [restarts, stroke?, hj, Ne.symm hj]
    | release j =>
      cases j with
      | none => rfl
      | some j =>
        show (m.state.keypad.release j).isHeld k = _
        rw [Keypad.isHeld_release]
        by_cases hj : j = k
        · simp [restarts, stroke?, hj]
        · simp [restarts, stroke?, hj, Ne.symm hj]
    | _ => rfl

/-- The held keys are those that the history says. -/
theorem Linked.isHeld_eq {seed : Option UInt64} {entropy : Entropy} {past : List Event}
    (h : Linked (.new seed entropy) past) (k : Key) :
    ((Machine.new seed entropy).after past).state.keypad.isHeld k =
      (lastStroke past k).getD false := by
  refine h.induction (P := fun past m => m.state.keypad.isHeld k = (lastStroke past k).getD false)
    ?_ [] (Keypad.isHeld_empty k)
  intro past e hv hheld
  rw [Event.isHeld_after hv, lastStroke, latest_concat, hheld]
  cases e.restarts with
  | true => rfl
  | false => cases e.stroke? k <;> rfl

theorem Linked.isHeld_iff {seed : Option UInt64} {entropy : Entropy} {past : List Event}
    (h : Linked (.new seed entropy) past) (k : Key) :
    ((Machine.new seed entropy).after past).state.keypad.isHeld k = true ↔
      lastStroke past k = some true := by
  rw [h.isHeld_eq]
  cases lastStroke past k <;> simp

/-! ## The printed list -/

namespace Keypad

/-- The key that a digit names. -/
def keyOfDigit? (c : Char) : Option Key := Key.all.find? fun k => Nat.digitChar k.code == c

/-- The keys that are named one after the other, each by a letter and a digit. -/
def keysNamed : List Char → List Key
  | _ :: c :: rest => (keyOfDigit? c).toList ++ keysNamed rest
  | _ => []

/-- The keypad with the keys held that a text names behind its heading. -/
def ofText (text : String) : Keypad :=
  (keysNamed (text.toList.drop "keys: ".length)).foldl press empty

theorem keyOfDigit?_digitChar (k : Key) : keyOfDigit? (Nat.digitChar k.code) = some k := by
  have hall : ∀ k ∈ Key.all, keyOfDigit? (Nat.digitChar k.code) = some k := by decide
  exact hall k k.mem_all

theorem keysNamed_flatMap (keys : List Key) :
    keysNamed (keys.flatMap fun k => ['k', Nat.digitChar k.code]) = keys := by
  induction keys with
  | nil => rfl
  | cons k keys ih =>
    rw [List.flatMap_cons, List.cons_append, List.cons_append, List.nil_append, keysNamed,
      keyOfDigit?_digitChar, ih]
    rfl

theorem isHeld_foldl_press (keys : List Key) (p : Keypad) (k : Key) :
    (keys.foldl press p).isHeld k = (p.isHeld k || decide (k ∈ keys)) := by
  induction keys generalizing p with
  | nil => simp
  | cons j keys ih =>
    rw [List.foldl_cons, ih, isHeld_press, Bool.or_assoc, ← Bool.decide_or]
    simp only [List.mem_cons]

theorem toList_eq_nil_iff (p : Keypad) : p.toList = [] ↔ ∀ k, p.isHeld k = false := by
  rw [List.eq_nil_iff_forall_not_mem]
  simp only [mem_toList, Bool.not_eq_true]

theorem pairwise_toList (p : Keypad) : p.toList.Pairwise fun j k => j.code < k.code := by
  have hall : Key.all.Pairwise fun j k => j.code < k.code := by decide
  exact hall.filter _

theorem chars_text {p : Keypad} (h : p.toList ≠ []) :
    p.text.toList = "keys: ".toList ++ p.toList.flatMap fun k => ['k', Nat.digitChar k.code] := by
  have hfold (keys : List Key) (text : String) :
      (keys.foldl (fun text k => text ++ k.name) text).toList =
        text.toList ++ keys.flatMap fun k => ['k', Nat.digitChar k.code] := by
    induction keys generalizing text with
    | nil => simp
    | cons k keys ih =>
      rw [List.foldl_cons, ih, List.flatMap_cons, ← List.append_assoc]
      simp [Key.name]
  rw [text]
  split
  · next hnil => exact absurd hnil h
  · exact hfold _ _

theorem text_eq_empty_iff (p : Keypad) : p.text = "" ↔ p.toList = [] := by
  constructor
  · intro htext
    by_contra hne
    have hchars := chars_text hne
    rw [htext] at hchars
    cases hchars
  · intro hnil
    rw [text, hnil]

/-- The printed list determines the keypad. -/
theorem ofText_text (p : Keypad) : ofText p.text = p := by
  have hkeys : keysNamed (p.text.toList.drop "keys: ".length) = p.toList := by
    by_cases h : p.toList = []
    · rw [(text_eq_empty_iff p).2 h, h]
      rfl
    · rw [chars_text h]
      exact keysNamed_flatMap p.toList
  refine ext_isHeld fun k => ?_
  rw [ofText, hkeys, isHeld_foldl_press, isHeld_empty, Bool.false_or]
  simp only [mem_toList, Bool.decide_eq_true]

end Keypad

/-! ## Skips -/

/-- A skip changes the program counter and nothing else. -/
theorem Event.after_of_skip {e : Event} {c : Condition} (h : e.move = .execute (.skip c)) :
    e.after = e.machine.withState
      { e.machine.state with
        pc := e.machine.state.pc + if c.holds e.machine.state then 4 else 2 } := by
  rw [after, h]
  rfl

/-- The key that a register names was last moved down. -/
def NamesHeld (past : List Event) (v : UInt8) : Prop :=
  ∃ k : Key, v.toNat = k.code ∧ lastStroke past k = some true

theorem Linked.holds_iff {seed : Option UInt64} {entropy : Entropy} {past : List Event}
    (h : Linked (.new seed entropy) past) {j : Nat} {e : Event} (he : past[j]? = some e) :
    let s := e.machine.state
    let held := NamesHeld (past.take j) (s.reg (s.memory.x s.pc.toNat))
    (Condition.keyDown.holds s = true ↔ held) ∧ (Condition.keyUp.holds s = true ↔ ¬held) := by
  intro s held
  have hheld : s.keypad.isHeldByte (s.reg (s.memory.x s.pc.toNat)) = true ↔ held := by
    have hmachine : (Machine.new seed entropy).after (past.take j) = e.machine := (h.getElem he).1
    simp only [s, held, Keypad.isHeldByte_iff, NamesHeld, ← hmachine,
      (h.take (List.take_prefix j past)).isHeld_iff]
  refine ⟨hheld, ?_⟩
  rw [← hheld]
  simp [Condition.holds]

/-- **A key is held if it was last moved down.** At every moment of every history of a fresh
machine, a key is held exactly if something happened to it since the last restart and the last thing
is that it went down; an event that neither restarts nor moves the key leaves it as it is. The two
skips on a key ask whether `Vx` names a key and that key is held. The printed list is empty if no
key is held, names the held keys in order otherwise, and determines them. -/
theorem held_keys_by_strokes (seed : Option UInt64) (entropy : Entropy) (cs : List Command)
    {past : List Event} (hpast : past <+: (Machine.new seed entropy).events cs) :
    let p := ((Machine.new seed entropy).after past).state.keypad
    (∀ k, p.isHeld k = true ↔ lastStroke past k = some true) ∧
      (∀ e ∈ past, ∀ k, e.restarts = false → e.stroke? k = none →
        e.after.state.keypad.isHeld k = e.machine.state.keypad.isHeld k) ∧
      (∀ j e, past[j]? = some e →
        let s := e.machine.state
        let held := NamesHeld (past.take j) (s.reg (s.memory.x s.pc.toNat))
        let goOn (n : UInt16) := e.machine.withState { s with pc := s.pc + n }
        (e.move = .execute (.skip .keyDown) →
            (held → e.after = goOn 4) ∧ (¬held → e.after = goOn 2)) ∧
          (e.move = .execute (.skip .keyUp) →
            (held → e.after = goOn 2) ∧ (¬held → e.after = goOn 4))) ∧
      (p.text = "" ↔ ∀ k, p.isHeld k = false) ∧
      (p.text ≠ "" → p.text.toList =
        "keys: ".toList ++ p.toList.flatMap fun k => ['k', Nat.digitChar k.code]) ∧
      (∀ k, k ∈ p.toList ↔ p.isHeld k = true) ∧
      p.toList.Pairwise (fun j k => j.code < k.code) ∧
      Keypad.ofText p.text = p := by
  intro p
  have h : Linked (Machine.new seed entropy) past := (Linked.events _ cs).take hpast
  refine ⟨h.isHeld_iff, ?_, ?_, ?_, ?_, p.mem_toList, p.pairwise_toList, p.ofText_text⟩
  · intro e he k hrestarts hstroke
    obtain ⟨j, hj⟩ := List.mem_iff_getElem?.1 he
    rw [Event.isHeld_after (h.getElem hj).2, hrestarts, hstroke]
    rfl
  · intro j e he s held goOn
    obtain ⟨hdown, hup⟩ := h.holds_iff he
    refine ⟨fun hmove => ?_, fun hmove => ?_⟩
    · have hafter : e.after = goOn (if Condition.keyDown.holds s then 4 else 2) :=
        Event.after_of_skip hmove
      exact ⟨fun hk => by rw [hafter, if_pos (hdown.2 hk)],
        fun hk => by rw [hafter, if_neg (mt hdown.1 hk)]⟩
    · have hafter : e.after = goOn (if Condition.keyUp.holds s then 4 else 2) :=
        Event.after_of_skip hmove
      exact ⟨fun hk => by rw [hafter, if_neg fun hn => hup.1 hn hk],
        fun hk => by rw [hafter, if_pos (hup.2 hk)]⟩
  · rw [p.text_eq_empty_iff, p.toList_eq_nil_iff]
  · intro hne
    exact p.chars_text (mt p.text_eq_empty_iff.2 hne)

/-- Wait for a key and skip if it is down; then skip if the key in `V2` is up. -/
def waitThenSkip : List UInt8 := [0xF1, 0x0A, 0xE1, 0x9E, 0x00, 0xE0, 0xE2, 0xA1]

/-- Of two keys pressed one goes up again, and the other is taken by a wait and still held. The
byte 28 names no key, though it ends in the same digit. -/
theorem held_keys_by_strokes_delivered :
    let m := Machine.new (some 7) default
    let past := m.events [.load waitThenSkip default, .press (some ⟨5⟩), .press (some ⟨12⟩),
      .release (some ⟨5⟩), .release none, .load (List.replicate 3585 0) default, .tick, .step 2,
      .setRegister 2 28, .step 1]
    let p := (m.after past).state.keypad
    p.isHeld ⟨12⟩ = true ∧ p.isHeld ⟨5⟩ = false ∧
      (∃ e, past[8]? = some e ∧ e.machine.state.reg 1 = 12 ∧ e.after.state.pc = 0x206) ∧
      (∃ e, past[10]? = some e ∧ e.machine.state.reg 2 = 28 ∧ e.after.state.pc = 0x20A) ∧
      p.text = "keys: kc" ∧ Keypad.ofText "keys: kc" = p := by
  intro m past p
  obtain ⟨hheld, -, hskips, -, -, -, -, hback⟩ :=
    held_keys_by_strokes (some 7) default _ (List.prefix_refl past)
  have heighth : past[8]?.any (fun e => decide (e.move = .execute (.skip .keyDown)) &&
      (e.machine.state.memory.x e.machine.state.pc.toNat == 1 && e.machine.state.reg 1 == 12 &&
        e.machine.state.pc == 0x202)) = true := by decide +kernel
  have htenth : past[10]?.any (fun e => decide (e.move = .execute (.skip .keyUp)) &&
      (e.machine.state.memory.x e.machine.state.pc.toNat == 2 && e.machine.state.reg 2 == 28 &&
        e.machine.state.pc == 0x206)) = true := by decide +kernel
  obtain ⟨e, he, hdown⟩ := (Option.any_eq_true _ _).1 heighth
  obtain ⟨f, hf, hup⟩ := (Option.any_eq_true _ _).1 htenth
  simp only [Bool.and_eq_true, beq_iff_eq, decide_eq_true_eq] at hdown hup
  obtain ⟨hmove, ⟨hx, hreg⟩, hpc⟩ := hdown
  obtain ⟨hmove', ⟨hx', hreg'⟩, hpc'⟩ := hup
  have htext : p.text = "keys: kc" := by decide +kernel
  have hlast : lastStroke past ⟨12⟩ = some true := by decide +kernel
  have hlast' : lastStroke past ⟨5⟩ ≠ some true := by decide +kernel
  have hbefore : lastStroke (past.take 8) ⟨12⟩ = some true := by decide +kernel
  have hnokey : ¬NamesHeld (past.take 10) 28 := by
    rintro ⟨k, hk, -⟩
    have hlt := k.code.isLt
    have h28 : (28 : UInt8).toNat = 28 := rfl
    omega
  refine ⟨?_, ?_, ⟨e, he, hreg, ?_⟩, ⟨f, hf, hreg', ?_⟩, htext, ?_⟩
  · rw [hheld]
    exact hlast
  · rw [← Bool.not_eq_true, hheld]
    exact hlast'
  · have hafter := ((hskips 8 e he).1 hmove).1
    rw [hx, hreg] at hafter
    rw [hafter ⟨⟨12⟩, rfl, hbefore⟩]
    show e.machine.state.pc + 4 = 0x206
    rw [hpc]
    rfl
  · have hafter := ((hskips 10 f hf).2 hmove').2
    rw [hx', hreg'] at hafter
    rw [hafter hnokey]
    show f.machine.state.pc + 4 = 0x20A
    rw [hpc']
    rfl
  · rw [← htext, hback]

end ChipEight
