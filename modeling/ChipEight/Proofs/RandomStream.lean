import ChipEight.Proofs.History
import Mathlib.Algebra.Group.Nat.Defs

/-!
# The random stream

The generator of a machine with a seed is at a place in the key stream of that seed: the number of
random instructions executed since the last reset or successful load (`wordsTaken`). Nothing else
moves it, so the random instruction that finds `k` words taken masks the low byte of word `k`
(`random_by_count`). A generator that computes its stream a block at a time gives the same words
(`BlockGenerator.word_skip`), over the ends of blocks and the carry of the block counter.
-/

set_option autoImplicit false

namespace ChipEight

/-! ## A block at a time -/

namespace ChaCha

/-- The words of a block. -/
def block (key : Key) (counter : UInt64) : Block :=
  let start := initialBlock key counter.toNat
  ⟨Vector.zipWith (· + ·) (rounds 6 start).cells start.cells⟩

/-- The block counter has 64 bits. -/
theorem initialBlock_mod (key : Key) (n : Nat) :
    initialBlock key (n % 2 ^ 64) = initialBlock key n := by
  have hlow : UInt32.ofNat (n % 2 ^ 64) = UInt32.ofNat n := by
    apply UInt32.toNat_inj.1
    rw [UInt32.toNat_ofNat', UInt32.toNat_ofNat']
    omega
  have hhigh : UInt32.ofNat ((n % 2 ^ 64) >>> 32) = UInt32.ofNat (n >>> 32) := by
    apply UInt32.toNat_inj.1
    rw [UInt32.toNat_ofNat', UInt32.toNat_ofNat', Nat.shiftRight_eq_div_pow,
      Nat.shiftRight_eq_div_pow]
    omega
  simp only [initialBlock, hlow, hhigh]

theorem get_block (key : Key) (n : Nat) {i : Nat} (hi : i < 16) :
    (block key (UInt64.ofNat n)).get i = word key (16 * n + i) := by
  have hcounter : (UInt64.ofNat n).toNat = n % 2 ^ 64 := UInt64.toNat_ofNat' ..
  have hblock : (16 * n + i) / 16 = n := by omega
  have hplace : (16 * n + i) % 16 = i % 16 := by omega
  rw [word, hblock, Bank.get_congr _ hplace, Bank.get_congr _ hplace, block, hcounter,
    initialBlock_mod, Bank.get_eq_getElem _ hi, Bank.get_eq_getElem _ hi, Bank.get_eq_getElem _ hi]
  exact Vector.getElem_zipWith hi

end ChaCha

/-- A generator that computes a block when it has used up the last one: the number of the next
block, the words of the current one and how many of them are used. -/
structure BlockGenerator where
  key : ChaCha.Key
  counter : UInt64
  block : ChaCha.Block
  used : Nat

namespace BlockGenerator

/-- At the beginning of a stream no block is computed. -/
def ofKey (key : ChaCha.Key) : BlockGenerator := ⟨key, 0, Bank.fill 16 0, 16⟩

/-- The generator with a fresh block if it needs one. -/
def refill (g : BlockGenerator) : BlockGenerator :=
  if g.used = 16 then
    { g with counter := g.counter + 1, block := ChaCha.block g.key g.counter, used := 0 }
  else g

/-- The next word of the stream. -/
def word (g : BlockGenerator) : UInt32 := g.refill.block.get g.refill.used

/-- The generator after one draw. -/
def next (g : BlockGenerator) : BlockGenerator := { g.refill with used := g.refill.used + 1 }

/-- The generator after `k` draws. -/
def skip (g : BlockGenerator) : Nat → BlockGenerator
  | 0 => g
  | k + 1 => (g.skip k).next

/-- `k` words of the stream of `key` are used, and `n` blocks computed. -/
structure At (g : BlockGenerator) (key : ChaCha.Key) (k n : Nat) : Prop where
  key_eq : g.key = key
  counter_eq : g.counter = UInt64.ofNat n
  used_le : g.used ≤ 16
  place : k + 16 = 16 * n + g.used
  words : ∀ i, g.used + i < 16 → g.block.get (g.used + i) = ChaCha.word key (k + i)

theorem at_ofKey (key : ChaCha.Key) : (ofKey key).At key 0 0 where
  key_eq := rfl
  counter_eq := rfl
  used_le := Nat.le_refl 16
  place := rfl
  words i hi := by
    simp only [ofKey] at hi
    omega

/-- A refill leaves a word to use. -/
theorem At.refill {g : BlockGenerator} {key : ChaCha.Key} {k n : Nat} (h : g.At key k n) :
    ∃ n, g.refill.At key k n ∧ g.refill.used < 16 := by
  unfold BlockGenerator.refill
  split
  · next hused =>
    have hplace := h.place
    have hk : k = 16 * n := by omega
    refine ⟨n + 1, ⟨h.key_eq, ?_, Nat.zero_le 16, ?_, fun i hi => ?_⟩, Nat.succ_pos 15⟩
    · show g.counter + 1 = _
      rw [h.counter_eq, UInt64.ofNat_add]
      rfl
    · show k + 16 = 16 * (n + 1) + 0
      omega
    · have hi' : i < 16 := by simpa using hi
      show (ChaCha.block g.key g.counter).get (0 + i) = _
      rw [Nat.zero_add, h.key_eq, h.counter_eq, ChaCha.get_block _ _ hi', hk]
  · next hused =>
    have := h.used_le
    exact ⟨n, h, by omega⟩

theorem At.word_eq {g : BlockGenerator} {key : ChaCha.Key} {k n : Nat} (h : g.At key k n) :
    g.word = ChaCha.word key k := by
  obtain ⟨n', h', hused⟩ := h.refill
  have hword := h'.words 0 hused
  rwa [Nat.add_zero, Nat.add_zero] at hword

theorem At.next {g : BlockGenerator} {key : ChaCha.Key} {k n : Nat} (h : g.At key k n) :
    ∃ n, g.next.At key (k + 1) n := by
  obtain ⟨n', h', hused⟩ := h.refill
  have hplace := h'.place
  refine ⟨n', h'.key_eq, h'.counter_eq, hused, ?_, fun i hi => ?_⟩
  · show k + 1 + 16 = 16 * n' + (g.refill.used + 1)
    omega
  · have hi' : g.refill.used + (i + 1) < 16 := by
      simp only [BlockGenerator.next] at hi
      omega
    have hword := h'.words (i + 1) hi'
    show g.refill.block.get (g.refill.used + 1 + i) = _
    rw [show g.refill.used + 1 + i = g.refill.used + (i + 1) by omega, hword,
      show k + 1 + i = k + (i + 1) by omega]

theorem at_skip (key : ChaCha.Key) (k : Nat) : ∃ n, ((ofKey key).skip k).At key k n := by
  induction k with
  | zero => exact ⟨0, at_ofKey key⟩
  | succ k ih =>
    obtain ⟨n, h⟩ := ih
    exact h.next

/-- Draw number `k` gives word `k` of the stream. -/
theorem word_skip (key : ChaCha.Key) (k : Nat) : ((ofKey key).skip k).word = ChaCha.word key k := by
  obtain ⟨n, h⟩ := at_skip key k
  exact h.word_eq

end BlockGenerator

/-! ## Words taken -/

namespace Event

/-- The execution of a random instruction. -/
def takesWord (e : Event) : Bool := e.move = .execute .random

theorem takesWord_iff {e : Event} : e.takesWord = true ↔ e.move = .execute .random := by
  simp [takesWord]

end Event

/-- The number of random instructions since the last reset or successful load. -/
def wordsTaken (past : List Event) : Nat :=
  (past.rtakeWhile fun e => !e.restarts).countP Event.takesWord

theorem wordsTaken_concat (past : List Event) (e : Event) :
    wordsTaken (past ++ [e]) =
      if e.restarts then 0 else if e.takesWord then wordsTaken past + 1 else wordsTaken past :=
  countSince_concat Event.restarts Event.takesWord past e

namespace Event

/-- A restart begins the stream of the seed again, a random instruction takes a word of it, and
nothing else touches the generator. -/
theorem random_after {e : Event} (hv : e.Valid) {seed : UInt64}
    (hseed : e.machine.seed = some seed) :
    e.after.state.random =
      if e.restarts then .ofSeed seed
      else if e.takesWord then e.machine.state.random.next
      else e.machine.state.random := by
  obtain ⟨m, move⟩ := e
  have hrestart (entropy : Entropy) : Generator.start m.seed entropy = .ofSeed seed := by
    rw [hseed, Generator.start_some]
  cases move with
  | execute i =>
    show (i.execute m.state).state.random = _
    rw [Instruction.random_execute]
    simp [restarts, takesWord]
  | command c =>
    cases c with
    | step n => exact absurd rfl (hv n)
    | reset entropy => exact hrestart entropy
    | load program entropy =>
      rcases m.perform_load program entropy with ⟨hdone, memory, hstate⟩ | ⟨hdone, hsame⟩
      · simp [after, restarts, hdone, hstate, State.initial, hrestart]
      · simp [after, restarts, takesWord, hdone, hsame]
    | press k | release k => cases k <;> rfl
    | _ => rfl

/-- A random instruction stores a masked byte and takes a word. -/
theorem after_of_takesWord {e : Event} (h : e.takesWord = true) :
    e.after = e.machine.withState
      { e.machine.state.setReg (e.machine.state.memory.x e.machine.state.pc.toNat)
          (e.machine.state.memory.kk e.machine.state.pc.toNat &&& e.machine.state.random.byte) with
        random := e.machine.state.random.next, pc := e.machine.state.pc + 2 } := by
  rw [after, takesWord_iff.1 h]
  rfl

end Event

/-! ## Histories -/

/-- The generator is where the history says. -/
theorem Linked.random_eq {seed : UInt64} {entropy : Entropy} {past : List Event}
    (h : Linked (Machine.new (some seed) entropy) past) :
    ((Machine.new (some seed) entropy).after past).state.random =
      (Generator.ofSeed seed).skip (wordsTaken past) := by
  refine (h.induction
    (P := fun past m => m.seed = some seed ∧
      m.state.random = (Generator.ofSeed seed).skip (wordsTaken past)) ?_ [] ⟨rfl, rfl⟩).2
  rintro past e hv ⟨hseed, hrandom⟩
  refine ⟨e.seed_after.trans hseed, ?_⟩
  rw [Event.random_after hv hseed, wordsTaken_concat, hrandom]
  cases e.restarts <;> cases e.takesWord <;> rfl

/-- A blocked machine executes nothing. -/
theorem Machine.perform_step_of_blocked {m : Machine} (h : m.state.blocked = true) (n : Nat) :
    (m.perform (.step n)).machine = m := by
  show m.withState (m.run n).state = m
  rw [run_of_blocked h]
  rfl

/-- **Each random instruction takes the next word of the seed's stream.** At every moment of every
history of a machine with a seed, the generator is as many words into the stream as random
instructions were executed since the last restart. The one that finds `k` words taken stores the low
byte of word `k` under its mask; a restart begins the stream again, and no other event, nor a batch
of a blocked machine, moves the generator. The words are those of a generator that computes the
stream a block at a time. -/
theorem random_by_count (seed : UInt64) (entropy : Entropy) (cs : List Command) {past : List Event}
    (hpast : past <+: (Machine.new (some seed) entropy).events cs) :
    ((Machine.new (some seed) entropy).after past).state.random =
        (Generator.ofSeed seed).skip (wordsTaken past) ∧
      (∀ j e, past[j]? = some e → e.takesWord = true → ∀ k, wordsTaken (past.take j) = k →
        e.after = e.machine.withState
          { e.machine.state.setReg (e.machine.state.memory.x e.machine.state.pc.toNat)
              (e.machine.state.memory.kk e.machine.state.pc.toNat &&&
                (ChaCha.word (Generator.ofSeed seed).key k).toUInt8) with
            random := (Generator.ofSeed seed).skip (k + 1)
            pc := e.machine.state.pc + 2 }) ∧
      (∀ e ∈ past, e.restarts = true → e.after.state.random = .ofSeed seed) ∧
      (∀ e ∈ past, e.restarts = false → e.takesWord = false →
        e.after.state.random = e.machine.state.random) ∧
      (∀ m : Machine, m.state.blocked = true → ∀ n, (m.perform (.step n)).machine = m) ∧
      ∀ k, ((BlockGenerator.ofKey (Generator.ofSeed seed).key).skip k).word =
        ChaCha.word (Generator.ofSeed seed).key k := by
  have h : Linked (Machine.new (some seed) entropy) past := (Linked.events _ cs).take hpast
  have hafter : ∀ (j : Nat) (e : Event), past[j]? = some e → e.after.state.random =
      if e.restarts then .ofSeed seed
      else if e.takesWord then e.machine.state.random.next
      else e.machine.state.random := by
    intro j e he
    obtain ⟨hmachine, hv⟩ := h.getElem he
    refine Event.random_after hv ?_
    rw [← hmachine]
    exact (h.take (List.take_prefix j past)).seed_after
  refine ⟨h.random_eq, ?_, ?_, ?_, fun m hm n => m.perform_step_of_blocked hm n,
    BlockGenerator.word_skip _⟩
  · rintro j e he htakes k rfl
    have hrandom := (h.take (List.take_prefix j past)).random_eq
    rw [(h.getElem he).1] at hrandom
    rw [Event.after_of_takesWord htakes, hrandom, Generator.byte_skip_ofSeed, Generator.next_skip]
  · intro e he hrestarts
    obtain ⟨j, hj⟩ := List.mem_iff_getElem?.1 he
    rw [hafter j e hj, hrestarts]
    rfl
  · intro e he hrestarts htakes
    obtain ⟨j, hj⟩ := List.mem_iff_getElem?.1 he
    rw [hafter j e hj, hrestarts, htakes]
    rfl

/-- A random instruction with an empty mask takes word 0 all the same, and a refused load does not
begin the stream again. -/
theorem random_by_count_emptyMask :
    let m := Machine.new (some 7) default
    let past := m.events [.load [0xC0, 0x00, 0xC1, 0xFF] default, .step 1,
      .load (List.replicate 3585 0) default, .tick, .step 1]
    (m.after past).state.random = (Generator.ofSeed 7).skip 2 ∧
      ∃ e, past[4]? = some e ∧
        e.after.state.reg 1 = 0xFF &&& (ChaCha.word (Generator.ofSeed 7).key 1).toUInt8 := by
  intro m past
  obtain ⟨hend, htakes, -⟩ := random_by_count 7 default _ (List.prefix_refl past)
  have htaken : wordsTaken past = 2 := by decide +kernel
  have hone : wordsTaken (past.take 4) = 1 := by decide +kernel
  have hfourth : past[4]?.any (fun e => e.takesWord &&
      (e.machine.state.memory.x e.machine.state.pc.toNat == 1 &&
        e.machine.state.memory.kk e.machine.state.pc.toNat == 0xFF)) = true := by decide +kernel
  obtain ⟨e, he, hinstruction⟩ := (Option.any_eq_true _ _).1 hfourth
  simp only [Bool.and_eq_true, beq_iff_eq] at hinstruction
  obtain ⟨htake, hx, hkk⟩ := hinstruction
  refine ⟨by rw [hend, htaken], e, he, ?_⟩
  rw [htakes 4 e he htake 1 hone, hx, hkk]
  exact Bank.get_set_self _ _ _

end ChipEight
