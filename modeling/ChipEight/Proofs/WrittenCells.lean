import ChipEight.Proofs.Compilation
import ChipEight.Proofs.ReadFootprint

/-!
# Written cells

Which cells of memory an event writes: a restart all of them, an instruction those from the index
register on, a compilation the two at the cursor, and a write of the host the ones it names
(`Event.WritesCell`). Every other cell keeps its byte and its entry in the table, in one event
(`Event.get_memory_after`, `Event.instructionAt_after_of_not_writesCell`) and in a run
(`Linked.keeps_cell`).
-/

set_option autoImplicit false

namespace ChipEight

namespace Event

/-- The bytes that an event writes to memory, behind the address of the first. -/
def patch (e : Event) : Nat × List UInt8 :=
  let s := e.machine.state
  match e.move with
  | .execute i => (s.index.toNat, i.written s)
  | .command (.compile w) => (e.machine.cursor, Machine.bytes w)
  | .command (.write a data) => (a, data)
  | _ => (0, [])

/-- Whether an event writes the cell at an address. A restart writes all of memory. -/
def WritesCell (e : Event) (a : Nat) : Prop :=
  e.restarts = true ∨ Memory.Covers e.patch.1 e.patch.2.length a

instance (e : Event) (a : Nat) : Decidable (e.WritesCell a) :=
  inferInstanceAs (Decidable (_ ∨ _))

theorem memory_after {e : Event} (hv : e.Valid) (hr : e.restarts = false) :
    e.after.state.memory = e.machine.state.memory.write e.patch.1 e.patch.2 := by
  obtain ⟨m, move⟩ := e
  cases move with
  | execute i => exact i.memory_execute_eq_write m.state
  | command c =>
    cases c with
    | step n => exact absurd rfl (hv n)
    | reset entropy => cases hr
    | load program entropy =>
      rcases m.perform_load program entropy with ⟨hdone, -⟩ | ⟨-, hsame⟩
      · simp [restarts, hdone] at hr
      · simp [after, patch, hsame]
    | press k | release k => cases k <;> rfl
    | _ => rfl

section

variable {e : Event} {a : Nat} (hv : e.Valid) (h : ¬e.WritesCell a)
include hv h

theorem get_memory_after : e.after.state.memory.get a = e.machine.state.memory.get a := by
  obtain ⟨hr, hcover⟩ := not_or.1 h
  rw [memory_after hv (by simpa using hr)]
  exact Memory.get_write_of_not_covers _ hcover

/-- The table changes only where memory is written. -/
theorem instructionAt_after_of_not_writesCell :
    e.after.instructionAt a = e.machine.instructionAt a := by
  obtain ⟨hr, hcover⟩ := not_or.1 h
  obtain ⟨m, move⟩ := e
  cases move with
  | execute i => rfl
  | command c =>
    cases c with
    | step n => exact absurd rfl (hv n)
    | reset entropy => exact absurd rfl hr
    | load program entropy =>
      rcases m.perform_load program entropy with ⟨hdone, -⟩ | ⟨-, hsame⟩
      · simp [restarts, hdone] at hr
      · simp [after, hsame]
    | compile w =>
      have hcursor : m.cursor % 4096 ≠ a % 4096 := fun heq => hcover ⟨0, Nat.two_pos, heq⟩
      show (m.compile w).instructionAt a = m.instructionAt a
      rw [Machine.instructionAt_compile, if_neg hcursor]
    | press k | release k => cases k <;> rfl
    | _ => rfl

end

end Event

/-- Events leave alone what none of them writes. -/
theorem Linked.keeps_cell {m : Machine} {es : List Event} (h : Linked m es) {a : Nat}
    (hes : ∀ e ∈ es, ¬e.WritesCell a) :
    (m.after es).state.memory.get a = m.state.memory.get a ∧
      (m.after es).instructionAt a = m.instructionAt a := by
  induction h with
  | nil m => exact ⟨rfl, rfl⟩
  | @cons e es hv _ ih =>
    obtain ⟨he, hes⟩ := List.forall_mem_cons.1 hes
    obtain ⟨hmemory, htable⟩ := ih hes
    exact ⟨hmemory.trans (Event.get_memory_after hv he),
      htable.trans (Event.instructionAt_after_of_not_writesCell hv he)⟩

end ChipEight
