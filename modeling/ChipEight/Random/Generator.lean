import ChipEight.Random.ChaCha

/-!
# Random bytes

A generator is a key and a place in its key stream. Each draw takes one whole word and returns its
low byte; `next_skip` says that draw number `k` after a start is word `k` of the stream. A generator
starts with the key that a seed is spread to, or, where no seed is fixed, with any key that it is
given from outside (`Entropy`).
-/

set_option autoImplicit false

namespace ChipEight

/-- A key stream and how many of its words have been used. -/
structure Generator where
  key : ChaCha.Key
  used : Nat
deriving DecidableEq

/-- What a generator without a seed starts with: a key from outside. -/
abbrev Entropy := ChaCha.Key

namespace Generator

/-- One step of the linear congruence that spreads a seed over the key. -/
def spread (s : UInt64) : UInt64 := s * 6364136223846793005 + 11634580027462260723

/-- A key word from a spread seed: the high bits folded down, turned right by the top five bits. -/
def mix (s : UInt64) : UInt32 :=
  let w := (((s >>> 18) ^^^ s) >>> 27).toUInt32
  let turn := (s >>> 59).toUInt32
  (w >>> turn) ||| (w <<< (32 - turn))

/-- The spread seeds after `s`, one for each of `n` key words. -/
def seeds : Nat → UInt64 → List UInt64
  | 0, _ => []
  | n + 1, s => spread s :: seeds n (spread s)

theorem length_seeds (n : Nat) (s : UInt64) : (seeds n s).length = n := by
  induction n generalizing s with
  | zero => rfl
  | succ n ih => simp [seeds, ih]

/-- The generator of a seed, at the beginning of its stream. -/
def ofSeed (seed : UInt64) : Generator :=
  ⟨⟨((seeds 8 seed).map mix).toArray, by simp [length_seeds]⟩, 0⟩

/-- The generator of a seed if there is one, and that of the entropy otherwise, at the beginning of
its stream. -/
def start (seed : Option UInt64) (entropy : Entropy) : Generator :=
  match seed with
  | some s => ofSeed s
  | none => ⟨entropy, 0⟩

@[simp] theorem start_some (s : UInt64) (entropy : Entropy) : start (some s) entropy = ofSeed s :=
  rfl

/-- The entropy makes a difference only where there is no seed. -/
theorem start_congr {seed : Option UInt64} {entropy entropy' : Entropy}
    (hshared : seed = none → entropy = entropy') : start seed entropy = start seed entropy' := by
  cases seed with
  | none => rw [hshared rfl]
  | some s => rw [start_some, start_some]

/-- The next random byte. -/
def byte (g : Generator) : UInt8 := (ChaCha.word g.key g.used).toUInt8

/-- The generator after one draw. -/
def next (g : Generator) : Generator := { g with used := g.used + 1 }

/-- The generator after `k` draws. -/
def skip (g : Generator) (k : Nat) : Generator := { g with used := g.used + k }

theorem next_skip (g : Generator) (k : Nat) : (g.skip k).next = g.skip (k + 1) := rfl

theorem byte_skip_ofSeed (seed : UInt64) (k : Nat) :
    ((ofSeed seed).skip k).byte = (ChaCha.word (ofSeed seed).key k).toUInt8 := by
  simp [byte, skip, ofSeed]

end Generator

end ChipEight
