import ChipEight.Proofs.Checked.Access
import ChipEight.Proofs.History
import Mathlib.Algebra.Ring.Int.Defs
import Mathlib.Data.List.Induction

/-!
# Calls and returns

Events that call raise the level of nesting by one and events that return lower it. The call stack
has sixteen slots, so a call at a level of 15 modulo 16 above some other call overwrites the slot of
that one, and no other call does (`wrappingCalls`). The return that comes back to the level of a
call therefore goes behind it if the nesting stays below sixteen, and behind the last call that took
its slot if not (`return_matches_call`).
-/

set_option autoImplicit false

namespace ChipEight

/-! ## Levels -/

namespace Event

/-- The execution of a call. -/
def calls (e : Event) : Bool := e.move = .execute .call

/-- The execution of a return. -/
def returns (e : Event) : Bool := e.move = .execute .ret

/-- By how much the event changes the level of nesting. -/
def rise (e : Event) : Int := if e.calls then 1 else if e.returns then -1 else 0

theorem calls_of_rise {e : Event} (h : e.rise = 1) : e.calls = true := by
  rw [rise] at h
  split at h
  · assumption
  · split at h <;> cases h

theorem returns_of_rise {e : Event} (h : e.rise = -1) : e.returns = true := by
  rw [rise] at h
  split at h
  · cases h
  · split at h
    · assumption
    · cases h

/-- The address behind the instruction at the program counter. -/
def behind (e : Event) : UInt16 := e.machine.state.pc + 2

theorem calls_iff {e : Event} : e.calls = true ↔ e.move = .execute .call := by simp [calls]

theorem returns_iff {e : Event} : e.returns = true ↔ e.move = .execute .ret := by simp [returns]

/-- Only calls and returns and restarts change the call stack. -/
theorem stack_after {e : Event} (hv : e.Valid) (hkeep : e.restarts = false) :
    e.after.state.stack =
      if e.calls then e.machine.state.stack.push e.behind
      else if e.returns then e.machine.state.stack.pop
      else e.machine.state.stack := by
  obtain ⟨m, move⟩ := e
  cases move with
  | execute i =>
    show (i.execute m.state).state.stack = _
    rw [Instruction.stack_execute]
    cases i <;> rfl
  | command c =>
    cases c with
    | step n => exact absurd rfl (hv n)
    | reset entropy => cases hkeep
    | load program entropy =>
      rcases m.perform_load program entropy with ⟨hdone, -⟩ | ⟨-, hsame⟩
      · simp [restarts, hdone] at hkeep
      · show (m.perform (.load program entropy)).machine.state.stack = _
        rw [hsame]
        rfl
    | press k | release k => cases k <;> rfl
    | _ => rfl

theorem after_of_returns {e : Event} (h : e.returns = true) :
    e.after.state.pc = e.machine.state.stack.top := by
  rw [after, returns_iff.1 h]
  rfl

end Event

/-- The number of calls less the number of returns. -/
def level (es : List Event) : Int := (es.map Event.rise).sum

/-- The calls at a level of 15 modulo 16, where `d` is the level before the events. -/
def wrappingCalls (d : Int) : List Event → List Event
  | [] => []
  | e :: es =>
    if e.calls ∧ d % 16 = 15 then e :: wrappingCalls (d + e.rise) es
    else wrappingCalls (d + e.rise) es

@[simp] theorem level_nil : level [] = 0 := rfl

@[simp] theorem level_cons (e : Event) (es : List Event) : level (e :: es) = e.rise + level es := by
  rw [level, List.map_cons, List.sum_cons, level]

theorem level_append (past es : List Event) : level (past ++ es) = level past + level es := by
  rw [level, List.map_append, List.sum_append, level, level]

theorem level_concat (past : List Event) (e : Event) :
    level (past ++ [e]) = level past + e.rise := by
  rw [level_append, level_cons, level_nil, Int.add_zero]

/-- The levels reached are the partial sums of the rises. -/
theorem level_of_prefix {past es : List Event} (h : past <+: es) :
    ∃ k ≤ es.length, level past = ((es.map Event.rise).take k).sum := by
  obtain ⟨rest, rfl⟩ := h
  refine ⟨past.length, by simp, ?_⟩
  rw [← List.map_take, List.take_left, level]

theorem wrappingCalls_append (d : Int) (past es : List Event) :
    wrappingCalls d (past ++ es) = wrappingCalls d past ++ wrappingCalls (d + level past) es := by
  induction past generalizing d with
  | nil => rw [level_nil, Int.add_zero]; rfl
  | cons e past ih =>
    rw [List.cons_append, wrappingCalls, wrappingCalls, ih, level_cons, Int.add_assoc]
    split <;> rfl

theorem wrappingCalls_concat (past : List Event) (e : Event) :
    wrappingCalls 0 (past ++ [e]) =
      if e.calls ∧ level past % 16 = 15 then wrappingCalls 0 past ++ [e]
      else wrappingCalls 0 past := by
  rw [wrappingCalls_append, Int.zero_add, wrappingCalls, wrappingCalls]
  split
  · rfl
  · exact List.append_nil _

/-- A call wraps if and only if it is made at a level of 15 modulo 16. -/
theorem mem_wrappingCalls_iff {es : List Event} {e : Event} :
    e ∈ wrappingCalls 0 es ↔
      ∃ past rest, es = past ++ e :: rest ∧ e.calls = true ∧ level past % 16 = 15 := by
  constructor
  · intro h
    induction es using List.reverseRecOn with
    | nil => cases h
    | append_singleton es f ih =>
      rw [wrappingCalls_concat] at h
      have hbefore : e ∈ wrappingCalls 0 es →
          ∃ past rest, es ++ [f] = past ++ e :: rest ∧ e.calls = true ∧ level past % 16 = 15 := by
        intro he
        obtain ⟨past, rest, rfl, hcall, hlevel⟩ := ih he
        exact ⟨past, rest ++ [f], by simp, hcall, hlevel⟩
      split at h
      · next hwraps =>
        rcases List.mem_append.1 h with h | h
        · exact hbefore h
        · obtain rfl := List.mem_singleton.1 h
          exact ⟨es, [], rfl, hwraps⟩
      · exact hbefore h
  · rintro ⟨past, rest, rfl, hwraps⟩
    rw [wrappingCalls_append, Int.zero_add, wrappingCalls, if_pos hwraps]
    exact List.mem_append_right _ List.mem_cons_self

/-- While the level stays between 0 and 15, no call wraps. -/
theorem wrappingCalls_eq_nil {es : List Event}
    (h : ∀ past, past <+: es → 0 ≤ level past ∧ level past ≤ 15) : wrappingCalls 0 es = [] := by
  refine List.eq_nil_iff_forall_not_mem.2 fun e he => ?_
  obtain ⟨past, rest, rfl, hcall, hlevel⟩ := mem_wrappingCalls_iff.1 he
  have hpast := h past (List.prefix_append _ _)
  have hnext := h (past ++ [e]) ⟨rest, by simp⟩
  rw [level_concat, Event.rise, if_pos hcall] at hnext
  omega

/-- To get above level 15, a call wraps. -/
theorem exists_wrappingCall {es : List Event} (h : 15 < level es) :
    ∃ e, e ∈ wrappingCalls 0 es := by
  induction es using List.reverseRecOn with
  | nil => cases h
  | append_singleton es f ih =>
    rw [wrappingCalls_concat]
    by_cases hwraps : f.calls ∧ level es % 16 = 15
    · rw [if_pos hwraps]
      exact ⟨f, by simp⟩
    · rw [if_neg hwraps]
      refine ih ?_
      rw [level_concat, Event.rise] at h
      split at h
      · next hcall =>
        have : level es % 16 ≠ 15 := fun hlevel => hwraps ⟨hcall, hlevel⟩
        omega
      · split at h <;> omega

/-! ## The slot of a call -/

/-- Above a call at stack pointer `s`, the level gives the stack pointer, and the slot `s` belongs
to the last call that wrapped or to the call itself. -/
structure Above (call : Event) (past : List Event) (m : Machine) : Prop where
  sp : (m.state.stack.sp : Int) = (call.machine.state.stack.sp + 1 + level past) % 16
  slot : m.state.stack.slots.get call.machine.state.stack.sp =
    ((wrappingCalls 0 past).getLast?.getD call).behind

theorem above_call {call : Event} (hcall : call.calls = true) (hv : call.Valid)
    (hkeep : call.restarts = false) : Above call [] call.after := by
  have hstack := Event.stack_after hv hkeep
  rw [if_pos hcall] at hstack
  constructor
  · rw [hstack, level_nil]
    simp only [CallStack.push]
    omega
  · rw [hstack]
    exact Bank.get_set_self _ _ _

theorem Above.after {call : Event} {past : List Event} {e : Event} (h : Above call past e.machine)
    (hv : e.Valid) (hkeep : e.restarts = false) : Above call (past ++ [e]) e.after := by
  have hstack := Event.stack_after hv hkeep
  have hsp := h.sp
  have hslot := h.slot
  by_cases hcall : e.calls = true
  · rw [if_pos hcall] at hstack
    constructor
    · rw [hstack, level_concat, Event.rise, if_pos hcall]
      simp only [CallStack.push]
      omega
    · rw [hstack, wrappingCalls_concat]
      simp only [CallStack.push, hcall, true_and]
      by_cases hlevel : level past % 16 = 15
      · -- Sixteen slots above the call is the slot of the call again.
        have hsame : e.machine.state.stack.sp % 16 = call.machine.state.stack.sp % 16 := by omega
        rw [Bank.get_set, if_pos hsame, if_pos hlevel, List.getLast?_concat]
        rfl
      · have hother : e.machine.state.stack.sp % 16 ≠ call.machine.state.stack.sp % 16 := by omega
        rw [Bank.get_set_of_ne _ _ hother, if_neg hlevel, hslot]
  · rw [if_neg hcall] at hstack
    have hslots : e.after.state.stack.slots = e.machine.state.stack.slots := by
      rw [hstack]
      split <;> rfl
    constructor
    · rw [hstack, level_concat, Event.rise, if_neg hcall]
      split
      · simp only [CallStack.pop]
        omega
      · rw [hsp, Int.add_zero]
    · rw [hslots, hslot, wrappingCalls_concat, if_neg fun h => hcall h.1]

theorem Linked.above {call : Event} (hcall : call.calls = true) (hv : call.Valid)
    (hkeep : call.restarts = false) {es : List Event} (h : Linked call.after es)
    (hes : ∀ e ∈ es, e.restarts = false) : Above call es (call.after.after es) := by
  refine h.induction (P := fun past m => (∀ e ∈ past, e.restarts = false) → Above call past m)
    ?_ [] (fun _ => above_call hcall hv hkeep) hes
  intro past e hv ih hpast
  rw [List.forall_mem_append, List.forall_mem_singleton] at hpast
  exact (ih hpast.1).after hv hpast.2

theorem Event.restarts_of_rise {e : Event} (h : e.rise ≠ 0) : e.restarts = false := by
  obtain ⟨m, move⟩ := e
  cases move with
  | execute i => rfl
  | command c => exact absurd rfl h

theorem Event.restarts_of_execute {e : Event} {i : Instruction} (h : e.move = .execute i) :
    e.restarts = false := by
  rw [restarts, h]

/-- At level zero the stack pointer is one above that of the call, so a return pops the slot of the
call. -/
theorem Above.returns {call ret : Event} {past : List Event} (h : Above call past ret.machine)
    (hret : ret.returns = true) (hv : ret.Valid) (hcall : call.machine.state.stack.sp < 16)
    (hback : level past = 0) :
    ret.after.state.stack.sp = call.machine.state.stack.sp ∧
      ret.after.state.pc = ((wrappingCalls 0 past).getLast?.getD call).behind := by
  have hmove := Event.returns_iff.1 hret
  have hstack := Event.stack_after hv (Event.restarts_of_execute hmove)
  rw [if_neg (by simp [Event.calls, hmove]), if_pos hret] at hstack
  have hsp := h.sp
  constructor
  · rw [hstack]
    simp only [CallStack.pop]
    omega
  · have hslot : (ret.machine.state.stack.sp + 15) % 16 = call.machine.state.stack.sp % 16 := by
      omega
    rw [Event.after_of_returns hret, ← h.slot]
    exact Bank.get_congr _ hslot

/-- **Returns match calls up to sixteen levels.** In every history of a fresh machine, take a call
and a later return with no reset or load between them, such that the level above the call never
falls below zero and is zero at the return. The return restores the stack pointer of the call. If
the level stays below sixteen, it goes behind the call; otherwise it goes behind the last call made
at a level of 15 modulo 16. With nothing pushed the stack pointer wraps to the last slot. -/
theorem return_matches_call {seed : Option UInt64} {entropy : Entropy} {cs : List Command}
    {before inside after : List Event} {call ret : Event}
    (hrun : (Machine.new seed entropy).events cs = before ++ call :: (inside ++ ret :: after))
    (hcall : call.calls = true) (hret : ret.returns = true)
    (hkeep : ∀ e ∈ inside, e.restarts = false)
    (hlevel : ∀ past, past <+: inside → 0 ≤ level past) (hback : level inside = 0) :
    ret.after.state.stack.sp = call.machine.state.stack.sp ∧
      ((∀ past, past <+: inside → level past ≤ 15) →
        ret.after.state.pc = call.machine.state.pc + 2) ∧
      ((∃ past, past <+: inside ∧ 15 < level past) →
        ∃ last, (wrappingCalls 0 inside).getLast? = some last ∧
          ret.after.state.pc = last.machine.state.pc + 2) ∧
      ∀ s : State, s.stack.sp = 0 →
        s.stack.pop? = .ok (s.stack.slots.get 15, ⟨s.stack.slots, 15⟩) ∧
        (Instruction.ret.execute s).state =
          { s with pc := s.stack.slots.get 15, stack := ⟨s.stack.slots, 15⟩ } := by
  have hlinked :
      Linked (Machine.new seed entropy) (before ++ call :: (inside ++ ret :: after)) := by
    rw [← hrun]
    exact .events _ cs
  have hfrom := hlinked.drop
  obtain ⟨hmachine, hvalid⟩ := hfrom.getElem (j := 0) rfl
  have hrange : call.machine.InRange := by
    have := (hlinked.take (List.prefix_append _ _)).inRange (Machine.inRange_initial _ _)
    rwa [← hmachine]
  have hcons : Linked _ ([call] ++ (inside ++ ret :: after)) := hfrom
  have habove_run : Linked call.after (inside ++ ret :: after) := hcons.drop
  have habove := (habove_run.take (List.prefix_append _ _)).above hcall hvalid
    (Event.restarts_of_execute (Event.calls_iff.1 hcall)) hkeep
  obtain ⟨hret_machine, hret_valid⟩ := habove_run.drop.getElem (j := 0) rfl
  have habove : Above call inside ret.machine := hret_machine ▸ habove
  obtain ⟨hsp, hpc⟩ := habove.returns hret hret_valid hrange.sp hback
  refine ⟨hsp, fun hlow => ?_, fun ⟨past, hpast, hhigh⟩ => ?_, fun s hs => ?_⟩
  · rw [hpc, wrappingCalls_eq_nil fun past hpast => ⟨hlevel past hpast, hlow past hpast⟩]
    rfl
  · obtain ⟨rest, rfl⟩ := hpast
    obtain ⟨e, he⟩ := exists_wrappingCall hhigh
    have hmem : e ∈ wrappingCalls 0 (past ++ rest) := by
      rw [wrappingCalls_append]
      exact List.mem_append_left _ he
    obtain ⟨last, hlast⟩ : ∃ last, (wrappingCalls 0 (past ++ rest)).getLast? = some last :=
      ⟨_, List.getLast?_eq_some_getLast (List.ne_nil_of_mem hmem)⟩
    refine ⟨last, hlast, ?_⟩
    rw [hpc, hlast]
    rfl
  · constructor
    · rw [CallStack.pop?_eq, CallStack.top, CallStack.pop, hs]
      rfl
    · show { s with pc := s.stack.top, stack := s.stack.pop } = _
      rw [CallStack.top, CallStack.pop, hs]

/-- As many calls as returns behind them, where each return is from the last call. -/
theorem level_of_rises {es : List Event} {n : Nat}
    (h : es.map Event.rise = List.replicate n 1 ++ List.replicate n (-1)) :
    (∀ e ∈ es, e.restarts = false) ∧ (∀ past, past <+: es → 0 ≤ level past ∧ level past ≤ n) ∧
      level es = 0 := by
  refine ⟨fun e he => Event.restarts_of_rise ?_, fun past hpast => ?_, ?_⟩
  · have hrise : e.rise ∈ es.map Event.rise := List.mem_map_of_mem he
    rw [h, List.mem_append, List.mem_replicate, List.mem_replicate] at hrise
    omega
  · obtain ⟨k, -, hk⟩ := level_of_prefix hpast
    rw [hk, h, List.take_append, List.sum_append_int, List.take_replicate, List.take_replicate,
      List.sum_replicate_int, List.sum_replicate_int, List.length_replicate]
    omega
  · rw [level, h, List.sum_append_int, List.sum_replicate_int, List.sum_replicate_int]
    omega

/-- Splits events at two of them. -/
theorem split_at_two {es : List Event} {i n : Nat} {e f : Event} (he : es[i]? = some e)
    (hf : es[i + 1 + n]? = some f) :
    es = es.take i ++ e :: ((es.drop (i + 1)).take n ++ f :: es.drop (i + 1 + n + 1)) := by
  obtain ⟨hi, rfl⟩ := List.getElem?_eq_some_iff.1 he
  obtain ⟨hn, rfl⟩ := List.getElem?_eq_some_iff.1 hf
  rw [← List.drop_eq_getElem_cons hn, ← List.drop_drop (i := n), List.take_append_drop,
    ← List.drop_eq_getElem_cons hi, List.take_append_drop]

/-- Seventeen calls, each to the next, four bytes further on, and each followed by a return; the
last one calls another return. -/
def seventeenCalls : List UInt8 :=
  ((List.range 17).flatMap fun k => [0x22, UInt8.ofNat (4 * k + 4), 0x00, 0xEE]) ++ [0x00, 0xEE]

/-- The sixteenth return goes behind the second call, with fifteen calls between them. The
seventeenth, with sixteen calls between it and the first one, goes behind the last of those. -/
theorem return_matches_call_seventeenCalls :
    let es := (Machine.new (some 7) default).events [.load seventeenCalls default, .step 34]
    ∃ first second ret ret', es[1]? = some first ∧ es[2]? = some second ∧
      es[33]? = some ret ∧ es[34]? = some ret' ∧
      ret.after.state.pc = second.machine.state.pc + 2 ∧
      ret.after.state.stack.sp = second.machine.state.stack.sp ∧
      ret'.after.state.stack.sp = first.machine.state.stack.sp ∧
      ∃ last, (wrappingCalls 0 ((es.drop 2).take 32)).getLast? = some last ∧
        ret'.after.state.pc = last.machine.state.pc + 2 := by
  intro es
  have hrises : es.map Event.rise = 0 :: (List.replicate 17 1 ++ List.replicate 17 (-1)) := by
    decide +kernel
  have hat : ∀ i : Nat, es[i]?.map Event.rise =
      (0 :: (List.replicate 17 1 ++ List.replicate 17 (-1)))[i]? := fun i => by
    rw [← hrises, List.getElem?_map]
  obtain ⟨first, hfirst, hfirst_rise⟩ := Option.map_eq_some_iff.1 (hat 1)
  obtain ⟨second, hsecond, hsecond_rise⟩ := Option.map_eq_some_iff.1 (hat 2)
  obtain ⟨ret, hret, hret_rise⟩ := Option.map_eq_some_iff.1 (hat 33)
  obtain ⟨ret', hret', hret_rise'⟩ := Option.map_eq_some_iff.1 (hat 34)
  have houter : ((es.drop 2).take 32).map Event.rise =
      List.replicate 16 1 ++ List.replicate 16 (-1) := by
    rw [List.map_take, List.map_drop, hrises]
    rfl
  have hinner : ((es.drop 3).take 30).map Event.rise =
      List.replicate 15 1 ++ List.replicate 15 (-1) := by
    rw [List.map_take, List.map_drop, hrises]
    rfl
  obtain ⟨hkeep, hlevels, hback⟩ := level_of_rises hinner
  obtain ⟨hsp, hpc, -⟩ := return_matches_call (split_at_two hsecond (n := 30) hret)
    (Event.calls_of_rise hsecond_rise) (Event.returns_of_rise hret_rise) hkeep
    (fun past hpast => (hlevels past hpast).1) hback
  obtain ⟨hkeep', hlevels', hback'⟩ := level_of_rises houter
  obtain ⟨hsp', -, hlast, -⟩ := return_matches_call (split_at_two hfirst (n := 32) hret')
    (Event.calls_of_rise hfirst_rise) (Event.returns_of_rise hret_rise') hkeep'
    (fun past hpast => (hlevels' past hpast).1) hback'
  refine ⟨first, second, ret, ret', hfirst, hsecond, hret, hret',
    hpc fun past hpast => (hlevels past hpast).2, hsp, hsp', hlast ⟨(es.drop 2).take 16, ?_, ?_⟩⟩
  · exact List.take_prefix_take_left (by decide)
  · rw [level, List.map_take, List.map_drop, hrises]
    decide

end ChipEight
