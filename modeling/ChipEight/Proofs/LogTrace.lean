import ChipEight.Proofs.Compilation
import ChipEight.Proofs.KeyWait

/-!
# The log as a trace

The records of a history are those of its events, one after the other
(`Machine.log_performAll`). Whether a machine is blocked and which key is pending can be followed in
the log alone (`WaitState.hear`): every record is one that the records before it let happen
(`WaitState.Traces`), and at each moment they say what is the case (`Linked.traces`). So the order
of records in a log is the order in which key waits can go (`log_faithful`).
-/

set_option autoImplicit false

namespace ChipEight

namespace Record

/-- A report that the machine stopped to wait for a key. -/
def isBlocked : Record → Bool
  | blocked _ => true
  | _ => false

/-- A report after which the machine runs. -/
def Resumes (r : Record) : Prop := r = .reset ∨ ∃ k, r = .pressed k

/-- A report after which the pending key is what it was. -/
def KeepsKey (r : Record) : Prop := r ≠ .reset ∧ ∀ k, r ≠ .pressed k ∧ r ≠ .satisfied k

end Record

/-! ## Following a log -/

/-- Whether a machine is blocked and which key is pending. -/
structure WaitState where
  blocked : Bool
  pending : Option Key
deriving DecidableEq

def Machine.waitState (m : Machine) : WaitState := ⟨m.state.blocked, m.state.pending⟩

namespace WaitState

/-- What is the case after a record. -/
def hear (w : WaitState) : Record → WaitState
  | .reset => ⟨false, none⟩
  | .pressed k => ⟨false, some k⟩
  | .satisfied _ => { w with pending := none }
  | .blocked _ => { w with blocked := true }
  | _ => w

/-- A machine blocks if it runs, and a wait is satisfied by the pending key. -/
def Expects (w : WaitState) : Record → Prop
  | .blocked _ => w.blocked = false
  | .satisfied k => w.pending = some k
  | _ => True

/-- Every record is expected after those before it. -/
def Traces (w : WaitState) : List Record → Prop
  | [] => True
  | r :: rs => w.Expects r ∧ (w.hear r).Traces rs

variable {w : WaitState}

theorem traces_append {rs rs' : List Record} :
    w.Traces (rs ++ rs') ↔ w.Traces rs ∧ (rs.foldl hear w).Traces rs' := by
  induction rs generalizing w with
  | nil => exact ⟨fun h => ⟨trivial, h⟩, And.right⟩
  | cons r rs ih => rw [List.cons_append, Traces, Traces, List.foldl_cons, ih, and_assoc]

/-- The record at any place of a log is expected there. -/
theorem Traces.expects {before after : List Record} {r : Record}
    (h : w.Traces (before ++ r :: after)) : (before.foldl hear w).Expects r :=
  (traces_append.1 h).2.1

/-- A machine that runs again has been pressed a key or reset. -/
theorem exists_of_blocked_eq_false {rs : List Record} (hw : w.blocked = true)
    (h : (rs.foldl hear w).blocked = false) : ∃ r ∈ rs, r.Resumes := by
  induction rs generalizing w with
  | nil => exact absurd (hw.symm.trans h) nofun
  | cons r rs ih =>
    have later (hr : (w.hear r).blocked = true) : ∃ r' ∈ r :: rs, r'.Resumes := by
      obtain ⟨r', hmem, hr'⟩ := ih hr h
      exact ⟨r', List.mem_cons_of_mem r hmem, hr'⟩
    cases r with
    | reset => exact ⟨_, List.mem_cons_self, .inl rfl⟩
    | pressed k => exact ⟨_, List.mem_cons_self, .inr ⟨k, rfl⟩⟩
    | blocked pc => exact later rfl
    | _ => exact later hw

/-- A key that has become pending was pressed, and nothing that touches it has happened since. -/
theorem exists_of_pending_eq_some {rs : List Record} {k : Key} (hw : w.pending = none)
    (h : (rs.foldl hear w).pending = some k) :
    ∃ earlier between, rs = earlier ++ .pressed k :: between ∧ ∀ r ∈ between, r.KeepsKey := by
  -- From the end of the log, since the last record that touches the key decides.
  induction rs using List.reverseRecOn with
  | nil => exact absurd (hw.symm.trans h) nofun
  | append_singleton rs r ih =>
    rw [List.foldl_append] at h
    have before (hr : r.KeepsKey) (hpending : (rs.foldl hear w).pending = some k) :
        ∃ earlier between, rs ++ [r] = earlier ++ .pressed k :: between ∧
          ∀ r ∈ between, r.KeepsKey := by
      obtain ⟨earlier, between, rfl, hbetween⟩ := ih hpending
      refine ⟨earlier, between ++ [r], by simp, fun r' hr' => ?_⟩
      rcases List.mem_append.1 hr' with hr' | hr'
      · exact hbetween r' hr'
      · rw [List.mem_singleton.1 hr']
        exact hr
    cases r with
    | reset => cases h
    | pressed k' =>
      obtain rfl : k' = k := Option.some.inj h
      exact ⟨rs, [], rfl, nofun⟩
    | satisfied k' => cases h
    | _ => exact before ⟨nofun, fun _ => ⟨nofun, nofun⟩⟩ h

/-- A record that says nothing about waits. -/
def Silent (r : Record) : Prop := ∀ w : WaitState, w.hear r = w ∧ w.Expects r

theorem traces_of_silent {rs : List Record} (h : ∀ r ∈ rs, Silent r) :
    w.Traces rs ∧ rs.foldl hear w = w := by
  induction rs with
  | nil => exact ⟨trivial, rfl⟩
  | cons r rs ih =>
    obtain ⟨hr, hrs⟩ := List.forall_mem_cons.1 h
    obtain ⟨htraces, hend⟩ := ih hrs
    rw [Traces, List.foldl_cons, (hr w).1]
    exact ⟨⟨(hr w).2, htraces⟩, hend⟩

theorem Silent.isBlocked {r : Record} (h : Silent r) : r.isBlocked = false := by
  cases r with
  | blocked pc => exact absurd (h ⟨false, none⟩).1 nofun
  | _ => rfl

end WaitState

/-! ## Records of loads -/

namespace Machine

/-- The reports of words that are no instructions, with the addresses they are compiled at. -/
theorem illegalRecords_eq (a n : Nat) (ws : List UInt16) :
    illegalRecords ((a + 2 * n) % Memory.size) ws =
      ((ws.zipIdx n).filter fun p => Instruction.ofWord p.1 = .illegal).map fun p =>
        .illegal ((a + 2 * p.2) % Memory.size) p.1 := by
  induction ws generalizing n with
  | nil => rfl
  | cons w ws ih =>
    have hnext : ((a + 2 * n) % Memory.size + 2) % Memory.size =
        (a + 2 * (n + 1)) % Memory.size := by
      rw [Nat.mod_add_mod, Nat.mul_succ, Nat.add_assoc]
    rw [illegalRecords, hnext, ih (n + 1), List.zipIdx_cons, List.filter_cons]
    by_cases hw : Instruction.ofWord w = .illegal <;> simp [hw]

/-- The reports of a load. The words of a program that fits do not go around the end of memory. -/
theorem loadRecords_eq {program : List UInt8} (h : program.length ≤ Memory.maxProgram) :
    loadRecords program =
      .reset :: (((words program).zipIdx.filter fun p => Instruction.ofWord p.1 = .illegal).map
        fun p => .illegal (Memory.start + 2 * p.2) p.1) ++
        [.loaded program.length (program.length / 2)] := by
  have hlength := length_words program
  have hstart : Memory.start = (Memory.start + 2 * 0) % Memory.size := rfl
  rw [loadRecords]
  congr 2
  nth_rewrite 1 [hstart]
  rw [illegalRecords_eq]
  refine List.map_congr_left fun p hp => ?_
  obtain ⟨-, hlt, -⟩ := List.mem_zipIdx (List.mem_filter.1 hp).1
  congr 1
  refine Nat.mod_eq_of_lt ?_
  simp only [Memory.maxProgram, Memory.size, Memory.start] at h ⊢
  omega

theorem silent_of_mem_illegalRecords {a : Nat} {ws : List UInt16} {r : Record}
    (h : r ∈ illegalRecords a ws) : WaitState.Silent r := by
  induction ws generalizing a with
  | nil => cases h
  | cons w ws ih =>
    rw [illegalRecords] at h
    split at h
    · rcases List.mem_cons.1 h with rfl | h
      · exact fun w => ⟨rfl, trivial⟩
      · exact ih h
    · exact ih h

/-- Behind the reset, a load reports nothing about waits. -/
theorem silent_of_mem_loadRecords_tail {program : List UInt8} {r : Record}
    (h : r ∈ (loadRecords program).tail) : WaitState.Silent r := by
  rcases List.mem_append.1 h with h | h
  · exact silent_of_mem_illegalRecords h
  · rw [List.mem_singleton.1 h]
    exact fun w => ⟨rfl, trivial⟩

theorem traces_loadRecords (w : WaitState) (program : List UInt8) :
    w.Traces (loadRecords program) ∧ (loadRecords program).foldl .hear w = ⟨false, none⟩ := by
  have hsilent : ∀ r ∈ (loadRecords program).tail, WaitState.Silent r := fun r hr =>
    silent_of_mem_loadRecords_tail hr
  obtain ⟨htraces, hend⟩ := WaitState.traces_of_silent (w := ⟨false, none⟩) hsilent
  exact ⟨⟨trivial, htraces⟩, hend⟩

end Machine

/-! ## Records of events -/

namespace Event

/-- What an event adds to the log. -/
def records (e : Event) : List Record :=
  match e.move with
  | .execute i => (i.execute e.machine.state).log.toList
  | .command c => (e.machine.perform c).log.toList

/-- The records of an event are expected, and tell the machine after it. -/
theorem traces_records {e : Event} (hv : e.Valid) :
    e.machine.waitState.Traces e.records ∧
      e.records.foldl .hear e.machine.waitState = e.after.waitState := by
  obtain ⟨m, move⟩ := e
  cases move with
  | execute i =>
    have hrun : m.state.blocked = false := hv.1
    have hafter : (after ⟨m, .execute i⟩).waitState =
        ⟨(i.execute m.state).state.blocked, (i.execute m.state).state.pending⟩ := rfl
    rw [hafter, Instruction.blocked_execute, Instruction.pending_execute]
    unfold records
    simp only [Instruction.log_execute]
    cases i with
    | awaitKey =>
      cases hpending : m.state.pending with
      | some k =>
        refine ⟨⟨hpending, trivial⟩, ?_⟩
        show WaitState.mk m.state.blocked none = ⟨false, none⟩
        rw [hrun]
      | none =>
        rw [hrun]
        refine ⟨⟨hrun, trivial⟩, ?_⟩
        show WaitState.mk true m.state.pending = ⟨true, none⟩
        rw [hpending]
    | _ => exact ⟨trivial, rfl⟩
  | command c =>
    unfold records after
    cases c with
    | step n => exact absurd rfl (hv n)
    | reset => exact ⟨⟨trivial, trivial⟩, rfl⟩
    | load program entropy =>
      rcases Nat.lt_or_ge Memory.maxProgram program.length with hlong | hfit
      · simp only [Machine.perform_load_of_lt hlong]
        exact ⟨trivial, rfl⟩
      · simp only [Machine.perform_load_of_le hfit]
        obtain ⟨memory, hstate⟩ :=
          Machine.state_compileAll (Machine.words program) (m.reset entropy)
        have hend :
            ((Machine.words program).foldl Machine.compile (m.reset entropy)).waitState =
              ⟨false, none⟩ := by
          rw [Machine.waitState, hstate]
          rfl
        rw [hend]
        exact Machine.traces_loadRecords m.waitState program
    | compile w =>
      exact WaitState.traces_of_silent fun r hr => Machine.silent_of_mem_illegalRecords hr
    | press k | release k =>
      cases k with
      | none => exact ⟨trivial, rfl⟩
      | some k => exact ⟨⟨trivial, trivial⟩, rfl⟩
    | _ => exact ⟨trivial, rfl⟩

/-- Commands do not report blocking. -/
theorem not_isBlocked_of_mem_log {m : Machine} {c : Command} (hc : ∀ n, c ≠ .step n) {r : Record}
    (h : r ∈ (m.perform c).log.toList) : r.isBlocked = false := by
  cases c with
  | step n => exact absurd rfl (hc n)
  | reset =>
    rw [List.mem_singleton.1 h]
    rfl
  | load program entropy =>
    rcases Nat.lt_or_ge Memory.maxProgram program.length with hlong | hfit
    · rw [Machine.perform_load_of_lt hlong] at h
      cases h
    · rw [Machine.perform_load_of_le hfit] at h
      rcases List.mem_cons.1 h with rfl | h
      · rfl
      · exact (Machine.silent_of_mem_loadRecords_tail h).isBlocked
  | compile w => exact (Machine.silent_of_mem_illegalRecords h).isBlocked
  | press k | release k =>
    cases k with
    | none => cases h
    | some k =>
      rw [List.mem_singleton.1 h]
      rfl
  | _ => cases h

/-- An event reports blocking if and only if it stops a running machine. -/
theorem filter_isBlocked_records {e : Event} (hv : e.Valid) :
    e.records.filter Record.isBlocked =
      if e.machine.state.blocked = false ∧ e.after.state.blocked = true then
        [.blocked e.machine.state.pc]
      else [] := by
  rw [blocked_after hv]
  obtain ⟨m, move⟩ := e
  cases move with
  | execute i =>
    have hrun : m.state.blocked = false := hv.1
    unfold records
    simp only [Instruction.log_execute]
    by_cases hi : i = .awaitKey
    · cases hpending : m.state.pending <;>
        simp [decides, starves, restarts, isWait, pressed?, hi, hpending, hrun, Record.isBlocked]
    · simp [decides, starves, restarts, isWait, pressed?, hi, hrun]
  | command c =>
    have hstarves : (⟨m, .command c⟩ : Event).starves = false := rfl
    rw [hstarves, if_neg, List.filter_eq_nil_iff]
    · intro r hr
      rw [not_isBlocked_of_mem_log hv hr]
      exact Bool.false_ne_true
    · rintro ⟨hrun, hstopped⟩
      split at hstopped
      · cases hstopped
      · exact absurd (hrun.symm.trans hstopped) Bool.false_ne_true

end Event

/-! ## Whole logs -/

/-- The records of linked events are expected one after the other, and at each moment they tell the
machine. -/
theorem Linked.traces {m : Machine} {es : List Event} (h : Linked m es) :
    m.waitState.Traces (es.flatMap Event.records) ∧
      (es.flatMap Event.records).foldl .hear m.waitState = (m.after es).waitState := by
  induction h with
  | nil m => exact ⟨trivial, rfl⟩
  | @cons e es hv _ ih =>
    obtain ⟨hfirst, hnext⟩ := Event.traces_records hv
    rw [List.flatMap_cons, WaitState.traces_append, List.foldl_append, hnext]
    exact ⟨⟨hfirst, ih.1⟩, ih.2⟩

namespace Machine

theorem log_advance (m : Machine) (n : Nat) (b : Batch) :
    (b.advance m.table n).log.toList =
      b.log.toList ++ ((m.withState b.state).batchEvents n).flatMap Event.records := by
  induction n generalizing b with
  | zero => exact (List.append_nil _).symm
  | succ n ih =>
    by_cases hb : b.state.blocked = true
    · have hs : (m.withState b.state).state.blocked = true := hb
      rw [Batch.advance_of_blocked _ _ hb, batchEvents, if_pos hs]
      exact (List.append_nil _).symm
    · have hs : ¬(m.withState b.state).state.blocked = true := hb
      have hrecords : (m.withState b.state).execution.records =
          ((m.table.get b.state.pc.toNat).execute b.state).log.toList := rfl
      have hlog : (b.next m.table).log.toList =
          b.log.toList ++ ((m.table.get b.state.pc.toNat).execute b.state).log.toList :=
        Array.toList_append
      rw [Batch.advance, if_neg hb, batchEvents, if_neg hs, ih, after_execution, List.flatMap_cons,
        hrecords, hlog, List.append_assoc]

theorem log_perform (m : Machine) (c : Command) :
    (m.perform c).log.toList = (m.commandEvents c).flatMap Event.records := by
  cases c with
  | step n => exact m.log_advance n { state := m.state }
  | _ => exact (List.flatMap_singleton _ _).symm

/-- The log of a history is that of its events. -/
theorem log_performAll (m : Machine) (cs : List Command) :
    (m.performAll cs).2.2.toList = (m.events cs).flatMap Event.records := by
  induction cs generalizing m with
  | nil => rfl
  | cons c cs ih =>
    rw [events, List.flatMap_append, ← log_perform, ← ih]
    exact Array.toList_append

end Machine

/-- **The log tells how a machine waits and what it loads.** The log of a history is that of its
events. An event reports that the machine blocks if and only if the machine ran before it and is
blocked after it, once and with the program counter; so between two such reports there is a press or
a reset. When a wait is satisfied by a key, that key was pressed before, and since then no key was
pressed, no wait satisfied and nothing reset. A load that succeeds reports a reset, then each word
of the program that is no instruction, in order and with its address, and at last how much was
loaded; one that is refused reports nothing. -/
theorem log_faithful (seed : Option UInt64) (made : Entropy) (cs : List Command) :
    let m := Machine.new seed made
    let log := (m.performAll cs).2.2.toList
    log = (m.events cs).flatMap Event.records ∧
    (∀ e ∈ m.events cs, e.records.filter Record.isBlocked =
      if e.machine.state.blocked = false ∧ e.after.state.blocked = true then
        [.blocked e.machine.state.pc]
      else []) ∧
    (∀ past between rest p q, log = past ++ .blocked p :: (between ++ .blocked q :: rest) →
      ∃ r ∈ between, r.Resumes) ∧
    (∀ past rest k, log = past ++ .satisfied k :: rest →
      ∃ earlier between, past = earlier ++ .pressed k :: between ∧ ∀ r ∈ between, r.KeepsKey) ∧
    ∀ e ∈ m.events cs, ∀ program entropy, e.move = .command (.load program entropy) →
      let unknown := (Machine.words program).zipIdx.filter fun p =>
        Instruction.ofWord p.1 = .illegal
      ((e.machine.perform (.load program entropy)).reply = .done →
        e.records = .reset :: (unknown.map fun p => .illegal (Memory.start + 2 * p.2) p.1) ++
          [.loaded program.length (program.length / 2)] ∧
        e.records.map Record.text =
          "reset" :: (unknown.map fun p =>
            Hex.text 4 (Memory.start + 2 * p.2) ++ ": " ++ Hex.text 4 p.1.toNat ++
              " is not a known instruction") ++
          ["loaded " ++ toString program.length ++ " bytes, compiled " ++
            toString (program.length / 2) ++ " opcodes"]) ∧
      ((e.machine.perform (.load program entropy)).reply ≠ .done → e.records = []) := by
  intro m log
  have hlog : log = (m.events cs).flatMap Event.records := m.log_performAll cs
  have hlinked : Linked m (m.events cs) := Linked.events m cs
  have htraces : m.waitState.Traces log := by
    rw [hlog]
    exact hlinked.traces.1
  refine ⟨hlog, ?_, ?_, ?_, ?_⟩
  · intro e he
    exact Event.filter_isBlocked_records (hlinked.valid_of_mem he)
  · intro past between rest p q hsplit
    rw [hsplit, WaitState.traces_append] at htraces
    obtain ⟨-, -, hrest⟩ := htraces
    exact WaitState.exists_of_blocked_eq_false rfl hrest.expects
  · intro past rest k hsplit
    rw [hsplit] at htraces
    exact WaitState.exists_of_pending_eq_some rfl htraces.expects
  · intro e _ program entropy hmove unknown
    have hrecords : e.records = (e.machine.perform (.load program entropy)).log.toList := by
      rw [Event.records, hmove]
    rw [hrecords]
    rcases Nat.lt_or_ge Memory.maxProgram program.length with hlong | hfit
    · rw [Machine.perform_load_of_lt hlong]
      exact ⟨nofun, fun _ => rfl⟩
    · rw [Machine.perform_load_of_le hfit]
      refine ⟨fun _ => ?_, fun hrefused => absurd rfl hrefused⟩
      have hreport := Machine.loadRecords_eq hfit
      refine ⟨hreport, ?_⟩
      rw [hreport, List.map_append, List.map_cons, List.map_map]
      rfl

/-- Two waits follow each other, and the second of two presses is delivered. A load that is refused
in between is not seen in the log. -/
theorem log_faithful_twoWaits :
    let m := Machine.new (some 7) default
    let program : List UInt8 := [0xF0, 0x0A, 0xF1, 0x0A, 0xFF, 0xFF, 0x00]
    let cs : List Command := [.load program default, .step 9, .press (some ⟨5⟩), .press (some ⟨7⟩),
      .load (List.replicate 3585 0) default, .step 9]
    let past : List Record := [.reset, .illegal 0x204 0xFFFF, .loaded 7 3]
    let presses : List Record := [.pressed ⟨5⟩, .pressed ⟨7⟩]
    (m.performAll cs).2.2.toList =
      past ++ .blocked 0x200 :: (presses ++ [.satisfied ⟨7⟩] ++ [.blocked 0x202]) ∧
    (∃ r ∈ presses ++ [.satisfied ⟨7⟩], r.Resumes) ∧
    (∃ earlier between, past ++ .blocked 0x200 :: presses = earlier ++ .pressed ⟨7⟩ :: between ∧
      ∀ r ∈ between, r.KeepsKey) ∧
    (Event.records ⟨m, .command (.load program default)⟩).map Record.text =
      ["reset", "0204: FFFF is not a known instruction", "loaded 7 bytes, compiled 3 opcodes"] := by
  intro m program cs past presses
  have hlog : (m.performAll cs).2.2.toList =
      past ++ .blocked 0x200 :: (presses ++ [.satisfied ⟨7⟩] ++ [.blocked 0x202]) := by
    decide +kernel
  obtain ⟨-, -, hblocked, hsatisfied, hload⟩ := log_faithful (some 7) default cs
  have hpress := hblocked past (presses ++ [.satisfied ⟨7⟩]) [] 0x200 0x202 hlog
  have hdelivered := hsatisfied (past ++ .blocked 0x200 :: presses) [.blocked 0x202] ⟨7⟩ hlog
  have hfirst : (⟨m, .command (.load program default)⟩ : Event) ∈ m.events cs := List.mem_cons_self
  have htexts := ((hload _ hfirst program default rfl).1 rfl).2
  refine ⟨hlog, hpress, hdelivered, htexts.trans ?_⟩
  decide +kernel

end ChipEight
