import ChipEight.Proofs.Alignment
import ChipEight.Proofs.Checked.Access
import ChipEight.Proofs.Compilation
import Mathlib.Data.List.Induction

/-!
# Compiling around the end of memory

Words compiled one after the other go to memory and to the table in step, two bytes at a time, and
start over at the bottom of memory. At an even address the last word that came there counts
(`Machine.cell_compileAll`); as the cursor of a reachable machine is even, no word straddles two
earlier ones or the end of memory, and nothing else changes (`compile_circular`). So compiling goes
on where a load has stopped (`Machine.load_append`).
-/

set_option autoImplicit false

namespace ChipEight

/-- Word `i` is the last of `n` words compiled from cursor `c` on that goes to address `a`. -/
structure LastAt (c n a i : Nat) : Prop where
  lt : i < n
  here : (c + 2 * i) % Memory.size = a
  last : ∀ j, i < j → j < n → (c + 2 * j) % Memory.size ≠ a

theorem LastAt.concat {c n a i : Nat} (h : LastAt c n a i) (hne : (c + 2 * n) % Memory.size ≠ a) :
    LastAt c (n + 1) a i where
  lt := Nat.lt_succ_of_lt h.lt
  here := h.here
  last j hij hj := by
    rcases Nat.lt_succ_iff_lt_or_eq.1 hj with hj | rfl
    · exact h.last j hij hj
    · exact hne

namespace Machine

/-- Memory holds a word at an address and the table has its class. -/
structure Holds (m : Machine) (a : Nat) (w : UInt16) : Prop where
  high : m.state.memory.get a = (w >>> 8).toUInt8
  low : m.state.memory.get (a + 1) = w.toUInt8
  instruction : m.instructionAt a = .ofWord w

/-- Two machines have the same bytes and the same instruction at an address. -/
structure SameAt (m m' : Machine) (a : Nat) : Prop where
  high : m.state.memory.get a = m'.state.memory.get a
  low : m.state.memory.get (a + 1) = m'.state.memory.get (a + 1)
  instruction : m.instructionAt a = m'.instructionAt a

theorem holds_compile (m : Machine) (w : UInt16) {a : Nat} (h : m.cursor % 4096 = a % 4096) :
    (m.compile w).Holds a w where
  high := by
    show ((m.state.memory.set m.cursor _).set (m.cursor + 1) _).get a = _
    rw [Bank.get_set_of_ne _ _ (by omega), Bank.get_set, if_pos h]
  low := by
    show ((m.state.memory.set m.cursor _).set (m.cursor + 1) _).get (a + 1) = _
    rw [Bank.get_set, if_pos (by omega)]
  instruction := by rw [instructionAt_compile, if_pos h]

/-- A word compiled elsewhere at an address of the same parity does not overlap. -/
theorem sameAt_compile (m : Machine) (w : UInt16) {a : Nat} (hp : m.cursor % 2 = a % 2)
    (h : m.cursor % 4096 ≠ a % 4096) : (m.compile w).SameAt m a where
  high := by
    show ((m.state.memory.set m.cursor _).set (m.cursor + 1) _).get a = _
    rw [Bank.get_set_of_ne _ _ (by omega), Bank.get_set_of_ne _ _ h]
  low := by
    show ((m.state.memory.set m.cursor _).set (m.cursor + 1) _).get (a + 1) = _
    rw [Bank.get_set_of_ne _ _ (by omega), Bank.get_set_of_ne _ _ (by omega)]
  instruction := by rw [instructionAt_compile, if_neg h]

theorem SameAt.refl (m : Machine) (a : Nat) : m.SameAt m a := ⟨rfl, rfl, rfl⟩

theorem SameAt.trans {m m' m'' : Machine} {a : Nat} (h : m.SameAt m' a) (h' : m'.SameAt m'' a) :
    m.SameAt m'' a :=
  ⟨h.high.trans h'.high, h.low.trans h'.low, h.instruction.trans h'.instruction⟩

theorem SameAt.holds {m m' : Machine} {a : Nat} {w : UInt16} (h : m.SameAt m' a)
    (h' : m'.Holds a w) : m.Holds a w :=
  ⟨h.high.trans h'.high, h.low.trans h'.low, h.instruction.trans h'.instruction⟩

/-- The last word that came to an address is there, and if none came it is unchanged. -/
theorem cell_compileAll {m : Machine} (hm : m.InRange) (ws : List UInt16) {a : Nat}
    (ha : a < Memory.size) (hp : m.cursor % 2 = a % 2) :
    (∀ i < ws.length, (m.cursor + 2 * i) % Memory.size ≠ a) ∧ (ws.foldl compile m).SameAt m a ∨
      ∃ i w, LastAt m.cursor ws.length a i ∧ ws[i]? = some w ∧ (ws.foldl compile m).Holds a w := by
  have hamod : a % Memory.size = a := Nat.mod_eq_of_lt ha
  -- From the end of the list, since the last word decides.
  induction ws using List.reverseRecOn with
  | nil => exact .inl ⟨fun i hi => absurd hi (Nat.not_lt_zero i), .refl m a⟩
  | append_singleton ws w ih =>
    have hcursor := cursor_compileAll ws hm.cursor
    rw [List.foldl_append, List.foldl_cons, List.foldl_nil, List.length_append,
      List.length_singleton]
    generalize ws.foldl compile m = m' at ih hcursor ⊢
    by_cases hhere : (m.cursor + 2 * ws.length) % Memory.size = a
    · refine .inr ⟨ws.length, w, ⟨Nat.lt_succ_self _, hhere, fun j hlt hle => ?_⟩,
        List.getElem?_concat_length, m'.holds_compile w ?_⟩
      · omega
      · rw [hcursor, hhere]
    · have hsame : (m'.compile w).SameAt m' a := by
        simp only [Memory.size] at hcursor hhere ha
        refine m'.sameAt_compile w ?_ ?_ <;> omega
      rcases ih with ⟨hnone, hold⟩ | ⟨i, v, hlast, hv, hholds⟩
      · refine .inl ⟨fun i hi => ?_, hsame.trans hold⟩
        rcases Nat.lt_succ_iff_lt_or_eq.1 hi with hi | rfl
        · exact hnone i hi
        · exact hhere
      · refine .inr ⟨i, v, hlast.concat hhere, ?_, hsame.holds hholds⟩
        rw [List.getElem?_append_left hlast.lt, hv]

theorem performAll_compile (ws : List UInt16) (m : Machine) :
    (m.performAll (ws.map .compile)).1 = ws.foldl compile m := by
  induction ws generalizing m with
  | nil => rfl
  | cons w ws ih => exact ih (m.compile w)

/-- Compiling goes on where a load has stopped. -/
theorem load_append {program : List UInt8} (heven : program.length % 2 = 0) {m : Machine}
    {ws : List UInt16} (hfit : program.length + 2 * ws.length ≤ Memory.maxProgram)
    {entropy entropy' : Entropy} (hshared : m.seed = none → entropy = entropy') :
    ∃ loaded, m.load program entropy = .ok loaded ∧
      m.load (program ++ ws.flatMap bytes) entropy' = .ok (ws.foldl compile loaded) := by
  have hlen : (program ++ ws.flatMap bytes).length = program.length + 2 * ws.length := by
    rw [List.length_append, length_flatMap_bytes]
  refine ⟨(words program).foldl compile (m.reset entropy), if_pos (by omega), ?_⟩
  have hreset : m.reset entropy' = m.reset entropy := by
    rw [reset, reset, Generator.start_congr hshared]
  rw [load, if_pos (hlen ▸ hfit), words_append heven, List.foldl_append, hreset]

end Machine

/-- **Compiling goes around memory word by word.** After a reachable machine compiled words, every
even address to which some word went holds the last of them, in memory and in the table, and the
other even addresses are unchanged; the table never changes at odd ones. The cursor has moved on by
two for each word, around the end of memory, and the rest of the machine is unchanged. So compiling
words onto a loaded program is loading the program with the bytes of the words behind it, if a
machine without a seed is given the same entropy at both loads. -/
theorem compile_circular {m : Machine} (h : m.Reachable) (ws : List UInt16) :
    let m' := (m.performAll (ws.map .compile)).1
    (∀ a < Memory.size, a % 2 = 0 →
      ((∃ i < ws.length, (m.cursor + 2 * i) % Memory.size = a) →
        ∃ i w, LastAt m.cursor ws.length a i ∧ ws[i]? = some w ∧ m'.Holds a w) ∧
      ((∀ i < ws.length, (m.cursor + 2 * i) % Memory.size ≠ a) → m'.SameAt m a) ∧
      m'.instructionAt (a + 1) = m.instructionAt (a + 1)) ∧
    (∃ memory table, m' =
      { m with
        state := { m.state with memory }
        table
        cursor := (m.cursor + 2 * ws.length) % Memory.size }) ∧
    ∀ program : List UInt8, program.length % 2 = 0 →
      program.length + 2 * ws.length ≤ Memory.maxProgram →
      ∀ entropy entropy', (m.seed = none → entropy = entropy') →
      ∃ loaded, m.load program entropy = .ok loaded ∧
        m.load (program ++ ws.flatMap Machine.bytes) entropy' =
          .ok (loaded.performAll (ws.map .compile)).1 := by
  intro m'
  have hm' : m' = ws.foldl Machine.compile m := Machine.performAll_compile ws m
  have heven := h.aligned.cursor
  rw [hm']
  refine ⟨fun a ha hp => ⟨?_, ?_, ?_⟩, ?_,
    fun program hprogram hfit entropy entropy' hshared => ?_⟩
  · rintro ⟨i, hi, hhere⟩
    rcases Machine.cell_compileAll h.inRange ws ha (by omega) with ⟨hnone, -⟩ | hsome
    · exact absurd hhere (hnone i hi)
    · exact hsome
  · intro hnone
    rcases Machine.cell_compileAll h.inRange ws ha (by omega) with
      ⟨-, hsame⟩ | ⟨i, w, hlast, -, -⟩
    · exact hsame
    · exact absurd hlast.here (hnone i hlast.lt)
  · refine Machine.instructionAt_compileAll_of_ne ws fun k _ => ?_
    omega
  · obtain ⟨memory, hstate⟩ := Machine.state_compileAll ws m
    refine ⟨memory, (ws.foldl Machine.compile m).table, ?_⟩
    rw [← hstate, ← Machine.cursor_compileAll ws h.inRange.cursor, ← Machine.seed_compileAll ws m]
  · obtain ⟨loaded, hload, happend⟩ := Machine.load_append hprogram hfit hshared
    exact ⟨loaded, hload, by rw [happend, Machine.performAll_compile]⟩

/-- After 2049 words the last one has replaced the first, and the cursor has come around once. A
jump compiled onto a loaded word is loaded with it, also without a seed if both loads are given the
same entropy. -/
theorem compile_circular_onceAround :
    let m := Machine.new none default
    let drawn : Entropy := #v[3, 1, 4, 1, 5, 9, 2, 6]
    let ws := List.replicate 2048 (0x6001 : UInt16) ++ [0x1234]
    let m' := (m.performAll (ws.map .compile)).1
    m'.Holds 0x200 0x1234 ∧ m'.cursor = 0x202 ∧ m'.state.pc = 0x200 ∧
      ∃ loaded, m.load [0x60, 0x01] drawn = .ok loaded ∧
        m.load [0x60, 0x01, 0x12, 0x34] drawn = .ok (loaded.performAll [.compile 0x1234]).1 := by
  intro m drawn ws m'
  have hm : m.Reachable := ⟨none, default, [], rfl⟩
  have hcursor : m.cursor = 0x200 := rfl
  have hlen : ws.length = 2049 := by
    rw [List.length_append, List.length_replicate, List.length_singleton]
  obtain ⟨hcells, ⟨memory, table, hrest⟩, -⟩ := compile_circular hm ws
  obtain ⟨-, -, hload⟩ := compile_circular hm [0x1234]
  obtain ⟨hsome, -, -⟩ := hcells 0x200 (by decide) rfl
  obtain ⟨i, w, hlast, hw, hholds⟩ := hsome ⟨0, by omega, rfl⟩
  obtain rfl : i = 2048 := by
    have hlt := hlast.lt
    refine Classical.byContradiction fun hne => hlast.last 2048 (by omega) (by omega) ?_
    rw [hcursor]
    rfl
  obtain rfl : w = 0x1234 := by
    have hend : ws[(List.replicate 2048 (0x6001 : UInt16)).length]? = some 0x1234 :=
      List.getElem?_concat_length
    rw [List.length_replicate, hw] at hend
    exact Option.some.inj hend
  refine ⟨hholds, ?_, ?_, hload [0x60, 0x01] rfl (by decide) drawn drawn fun _ => rfl⟩
  all_goals rw [show m' = _ from hrest]
  · show (m.cursor + 2 * ws.length) % Memory.size = 0x202
    rw [hlen, hcursor]
    rfl
  · rfl

end ChipEight
