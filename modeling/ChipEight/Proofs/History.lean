import ChipEight.Proofs.Effects
import Mathlib.Data.List.DropRight

/-!
# Histories, one event at a time

A batch of instructions is one command, but it happens to a machine instruction by instruction.
`Machine.events` unfolds commands into events: every instruction executed and every command that is
not a batch, each with the machine it happens to. `after_events` says that nothing is lost, and
`Linked.induction` is how a property of all moments of a history is proved: it holds at the start
and every valid event keeps it. What a history says about the present is often decided by its end:
by the last event of a kind (`latest`) or by how many there were since another (`countSince`).
-/

set_option autoImplicit false

namespace ChipEight

/-- What happens at one moment. -/
inductive Move
  /-- An instruction of a batch is executed. -/
  | execute (i : Instruction)
  /-- A command other than a batch is performed. -/
  | command (c : Command)
deriving DecidableEq

/-- A move and the machine it happens to. -/
structure Event where
  machine : Machine
  move : Move
deriving DecidableEq

namespace Event

/-- The machine after the event. -/
def after (e : Event) : Machine :=
  match e.move with
  | .execute i => e.machine.withState (i.execute e.machine.state).state
  | .command c => (e.machine.perform c).machine

/-- What can happen to a machine: if it runs, the instruction that its table holds at the program
counter; and any command that is not a batch. -/
def Valid (e : Event) : Prop :=
  match e.move with
  | .execute i =>
    e.machine.state.blocked = false ∧ i = e.machine.instructionAt e.machine.state.pc.toNat
  | .command c => ∀ n, c ≠ .step n

end Event

namespace Machine

/-- The execution of the instruction at the program counter. -/
def execution (m : Machine) : Event := ⟨m, .execute (m.instructionAt m.state.pc.toNat)⟩

/-- The executions in a batch of up to `n` instructions. -/
def batchEvents (m : Machine) : Nat → List Event
  | 0 => []
  | n + 1 => if m.state.blocked then [] else m.execution :: m.execution.after.batchEvents n

/-- The events of one command. -/
def commandEvents (m : Machine) : Command → List Event
  | .step n => m.batchEvents n
  | c => [⟨m, .command c⟩]

/-- The events of a list of commands. -/
def events (m : Machine) : List Command → List Event
  | [] => []
  | c :: cs => m.commandEvents c ++ (m.perform c).machine.events cs

/-- The machine after a list of events. -/
def after (m : Machine) : List Event → Machine
  | [] => m
  | e :: es => e.after.after es

theorem exists_execute_of_mem_batchEvents {m : Machine} {n : Nat} {e : Event}
    (h : e ∈ m.batchEvents n) : ∃ i, e.move = .execute i := by
  induction n generalizing m with
  | zero => cases h
  | succ n ih =>
    rw [batchEvents] at h
    split at h
    · cases h
    · rcases List.mem_cons.1 h with rfl | h
      · exact ⟨_, rfl⟩
      · exact ih h

theorem after_append (m : Machine) (es fs : List Event) :
    m.after (es ++ fs) = (m.after es).after fs := by
  induction es generalizing m with
  | nil => rfl
  | cons e es ih => exact ih e.after

/-! ## Events and commands -/

theorem after_execution (m : Machine) (b : Batch) :
    (m.withState b.state).execution.after = m.withState (b.next m.table).state := rfl

theorem after_batchEvents_withState (m : Machine) (n : Nat) (b : Batch) :
    (m.withState b.state).after ((m.withState b.state).batchEvents n) =
      m.withState (b.advance m.table n).state := by
  induction n generalizing b with
  | zero => rfl
  | succ n ih =>
    by_cases hb : b.state.blocked = true
    · rw [Batch.advance_of_blocked _ _ hb]
      simp [batchEvents, withState, hb, after]
    · have hs : (m.withState b.state).state.blocked = false := by simpa [withState] using hb
      rw [batchEvents, if_neg (by simp [hs]), Batch.advance, if_neg hb, after, after_execution]
      exact ih (b.next m.table)

theorem after_batchEvents (m : Machine) (n : Nat) : m.after (m.batchEvents n) = m.step n :=
  after_batchEvents_withState m n { state := m.state }

/-- A running machine executes one instruction in a batch of one. -/
theorem perform_step_one {m : Machine} {i : Instruction} (h : m.state.blocked = false)
    (hi : m.instructionAt m.state.pc.toNat = i) :
    (m.perform (.step 1)).machine = m.withState (i.execute m.state).state := by
  show m.step 1 = _
  rw [← after_batchEvents, batchEvents, if_neg (by simp [h]), ← hi]
  rfl

theorem after_commandEvents (m : Machine) (c : Command) :
    m.after (m.commandEvents c) = (m.perform c).machine := by
  cases c with
  | step n => exact m.after_batchEvents n
  | _ => rfl

theorem performAll_cons (m : Machine) (c : Command) (cs : List Command) :
    (m.performAll (c :: cs)).1 = ((m.perform c).machine.performAll cs).1 := rfl

/-- The events of a history lead to where its commands lead. -/
theorem after_events (m : Machine) (cs : List Command) :
    m.after (m.events cs) = (m.performAll cs).1 := by
  induction cs generalizing m with
  | nil => rfl
  | cons c cs ih => rw [events, after_append, after_commandEvents, ih, performAll_cons]

end Machine

/-! ## Linked events -/

/-- Valid events, the first of which happens to `m` and each later one to the machine after the
one before it. -/
inductive Linked : Machine → List Event → Prop
  | nil (m : Machine) : Linked m []
  | cons {e : Event} {es : List Event} : e.Valid → Linked e.after es → Linked e.machine (e :: es)

namespace Linked

theorem of_cons {m : Machine} {e : Event} {es : List Event} (h : Linked m (e :: es)) :
    m = e.machine ∧ e.Valid ∧ Linked e.after es := by
  cases h with
  | cons hv h => exact ⟨rfl, hv, h⟩

theorem append {m : Machine} {es fs : List Event} (h : Linked m es) (h' : Linked (m.after es) fs) :
    Linked m (es ++ fs) := by
  induction h with
  | nil m => exact h'
  | cons hv _ ih => exact .cons hv (ih h')

theorem batchEvents (m : Machine) (n : Nat) : Linked m (m.batchEvents n) := by
  induction n generalizing m with
  | zero => exact .nil m
  | succ n ih =>
    rw [Machine.batchEvents]
    split
    · exact .nil m
    · next hb =>
      have hrun : m.state.blocked = false := by simpa using hb
      exact .cons (e := m.execution) ⟨hrun, rfl⟩ (ih _)

theorem commandEvents (m : Machine) (c : Command) : Linked m (m.commandEvents c) := by
  cases c with
  | step n => exact batchEvents m n
  | _ => exact .cons (e := ⟨m, .command _⟩) (fun n h => by cases h) (.nil _)

theorem events (m : Machine) (cs : List Command) : Linked m (m.events cs) := by
  induction cs generalizing m with
  | nil => exact .nil m
  | cons c cs ih =>
    refine (commandEvents m c).append ?_
    rw [m.after_commandEvents]
    exact ih _

theorem take {m : Machine} {past es : List Event} (h : Linked m es) (hp : past <+: es) :
    Linked m past := by
  induction h generalizing past with
  | nil m =>
    obtain rfl := List.prefix_nil.1 hp
    exact .nil m
  | @cons e es hv _ ih =>
    cases past with
    | nil => exact .nil _
    | cons e' past =>
      obtain ⟨rfl, htail⟩ := List.cons_prefix_cons.1 hp
      exact .cons hv (ih htail)

theorem drop {m : Machine} {past es : List Event} (h : Linked m (past ++ es)) :
    Linked (m.after past) es := by
  induction past generalizing m with
  | nil => exact h
  | cons e past ih => exact ih h.of_cons.2.2

/-- Each event is valid and happens to the machine that the events before it lead to. -/
theorem getElem {m : Machine} {es : List Event} (h : Linked m es) {j : Nat} {e : Event}
    (he : es[j]? = some e) : m.after (es.take j) = e.machine ∧ e.Valid := by
  induction h generalizing j with
  | nil m => cases he
  | @cons e' es hv _ ih =>
    cases j with
    | zero =>
      obtain rfl : e' = e := by simpa using he
      exact ⟨rfl, hv⟩
    | succ j => exact ih (by simpa using he)

theorem valid_of_mem {m : Machine} {es : List Event} (h : Linked m es) {e : Event} (he : e ∈ es) :
    e.Valid := by
  obtain ⟨j, hj⟩ := List.mem_iff_getElem?.1 he
  exact (h.getElem hj).2

/-- A property of moments that every valid event keeps holds at the end of linked events. -/
theorem induction {P : List Event → Machine → Prop}
    (keeps : ∀ past e, e.Valid → P past e.machine → P (past ++ [e]) e.after)
    {m : Machine} {es : List Event} (h : Linked m es) (past : List Event) (start : P past m) :
    P (past ++ es) (m.after es) := by
  induction h generalizing past with
  | nil m =>
    rw [List.append_nil]
    exact start
  | @cons e es hv _ ih =>
    have := ih (past ++ [e]) (keeps past e hv start)
    rwa [List.append_assoc] at this

end Linked

/-! ## The end of a history -/

/-- The last value that `read` finds since the last event that `stops`. -/
def latest {α : Type} (stops : Event → Bool) (read : Event → Option α) (past : List Event) :
    Option α :=
  ((past.rtakeWhile fun e => !stops e).filterMap read).getLast?

/-- The number of events that `counts` since the last one that `stops`. -/
def countSince (stops counts : Event → Bool) (past : List Event) : Nat :=
  (past.rtakeWhile fun e => !stops e).countP counts

theorem latest_concat {α : Type} (stops : Event → Bool) (read : Event → Option α)
    (past : List Event) (e : Event) :
    latest stops read (past ++ [e]) =
      if stops e then none else (read e).or (latest stops read past) := by
  unfold latest
  rw [List.rtakeWhile_concat]
  cases stops e with
  | true => rfl
  | false => cases h : read e <;> simp [h]

theorem countSince_concat (stops counts : Event → Bool) (past : List Event) (e : Event) :
    countSince stops counts (past ++ [e]) =
      if stops e then 0
      else if counts e then countSince stops counts past + 1
      else countSince stops counts past := by
  unfold countSince
  rw [List.rtakeWhile_concat]
  cases stops e with
  | true => rfl
  | false => cases h : counts e <;> simp [h]

/-! ## Restarts -/

namespace Event

/-- A reset or a successful load. -/
def restarts (e : Event) : Bool :=
  match e.move with
  | .command (.reset _) => true
  | .command (.load program entropy) => (e.machine.perform (.load program entropy)).reply = .done
  | _ => false

theorem seed_after (e : Event) : e.after.seed = e.machine.seed := by
  obtain ⟨m, move⟩ := e
  cases move with
  | execute i => rfl
  | command c => exact m.seed_perform c

end Event

theorem Linked.seed_after {m : Machine} {es : List Event} (h : Linked m es) :
    (m.after es).seed = m.seed :=
  h.induction (P := fun _ m' => m'.seed = m.seed)
    (fun _ e _ hseed => e.seed_after.trans hseed) [] rfl

namespace Machine

/-- Machines that commands lead to from a fresh one. -/
def Reachable (m : Machine) : Prop :=
  ∃ seed entropy cs, m = ((new seed entropy).performAll cs).1

/-- What holds of fresh machines and is kept by every valid event holds of reachable machines. -/
theorem Reachable.induction {P : Machine → Prop} {m : Machine} (h : m.Reachable)
    (fresh : ∀ seed entropy, P (new seed entropy))
    (keeps : ∀ e : Event, e.Valid → P e.machine → P e.after) : P m := by
  obtain ⟨seed, entropy, cs, rfl⟩ := h
  rw [← after_events]
  exact (Linked.events (new seed entropy) cs).induction (P := fun _ m => P m)
    (fun _ e hv hp => keeps e hv hp) [] (fresh seed entropy)

end Machine

end ChipEight
