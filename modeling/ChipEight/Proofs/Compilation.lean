import ChipEight.Proofs.Cells
import ChipEight.Proofs.Effects

/-!
# Compiling words

What a machine holds after words were compiled one after the other. The bytes of the words stand in
memory from the cursor on (`memory_compileAll`), and the table has the class of each word at the
address of its high byte (`instructionAt_compileAll`) and is unchanged elsewhere
(`instructionAt_compileAll_of_ne`). Addresses wrap around, so of several words compiled at one
address the last counts.
-/

set_option autoImplicit false

namespace ChipEight

/-! ## Words and bytes -/

theorem ofNat_bytes (w : UInt16) :
    UInt16.ofNat ((w >>> 8).toUInt8.toNat * 256 + w.toUInt8.toNat) = w := by
  apply UInt16.toNat_inj.1
  have hw := w.toNat_lt
  simp [UInt16.toNat_shiftRight, Nat.shiftRight_eq_div_pow]
  omega

/-- The bytes of a word are the ones it was made of. -/
theorem bytes_ofNat (hi lo : UInt8) :
    Machine.bytes (UInt16.ofNat (hi.toNat * 256 + lo.toNat)) = [hi, lo] := by
  have hhi := hi.toNat_lt
  have hlo := lo.toNat_lt
  have hhigh : (UInt16.ofNat (hi.toNat * 256 + lo.toNat) >>> 8).toUInt8 = hi := by
    apply UInt8.toNat_inj.1
    simp [UInt16.toNat_shiftRight, Nat.shiftRight_eq_div_pow]
    omega
  have hlow : (UInt16.ofNat (hi.toNat * 256 + lo.toNat)).toUInt8 = lo := by
    apply UInt8.toNat_inj.1
    simp
  rw [Machine.bytes, hhigh, hlow]

namespace Memory

theorem toNat_word (m : Memory) (a : Nat) :
    (m.word a).toNat = (m.get a).toNat * 0x100 + (m.get (a + 1)).toNat := by
  have hhi := (m.get a).toNat_lt
  have hlo := (m.get (a + 1)).toNat_lt
  rw [word, UInt16.toNat_ofNat']
  omega

theorem toNat_nnn (m : Memory) (a : Nat) :
    (m.nnn a).toNat = (m.get a).toNat % 0x10 * 0x100 + (m.get (a + 1)).toNat := by
  have hlo := (m.get (a + 1)).toNat_lt
  rw [nnn, UInt16.toNat_ofNat']
  omega

theorem word_eq_of_get {m l : Memory} {a : Nat} (hi : m.get a = l.get a)
    (lo : m.get (a + 1) = l.get (a + 1)) : m.word a = l.word a := by
  rw [word, word, hi, lo]

/-- A word reads back as it was written. -/
theorem word_write_bytes (m : Memory) (c : Nat) (w : UInt16) :
    word (m.write c (Machine.bytes w)) c = w := by
  have hlo : (c + 1) % 4096 ≠ c % 4096 := by omega
  rw [word, Machine.bytes, Bank.write_cons, Bank.write_cons, Bank.write_nil, Bank.get_set_self,
    Bank.get_set_of_ne _ _ hlo, Bank.get_set_self, ofNat_bytes]

/-- Writing a word leaves the other words at addresses of the same parity alone. -/
theorem word_write_bytes_of_ne (m : Memory) {a c : Nat} (w : UInt16) (hp : a % 2 = c % 2)
    (hne : c % 4096 ≠ a % 4096) : word (m.write c (Machine.bytes w)) a = m.word a := by
  apply word_eq_of_get <;> refine Bank.get_write_of_ne _ _ _ fun k hk => ?_
  all_goals
    have : k < 2 := hk
    omega

end Memory

/-! ## Programs as words -/

namespace Machine

theorem length_words : ∀ program : List UInt8, (words program).length = program.length / 2
  | [] => rfl
  | [_] => by simp [words]
  | hi :: lo :: rest => by
    rw [words, List.length_cons, length_words rest, List.length_cons, List.length_cons]
    omega

/-- Word `k` of a program is made of its bytes `2 * k` and `2 * k + 1`. -/
theorem getElem?_words : ∀ (program : List UInt8) {k : Nat} {hi lo : UInt8},
    program[2 * k]? = some hi → program[2 * k + 1]? = some lo →
      (words program)[k]? = some (UInt16.ofNat (hi.toNat * 256 + lo.toNat))
  | [], _, _, _, hhi, _ => by cases hhi
  | [_], _, _, _, _, hlo => by cases hlo
  | _ :: _ :: _, 0, _, _, rfl, rfl => rfl
  | _ :: _ :: rest, _ + 1, _, _, hhi, hlo => getElem?_words rest hhi hlo

/-- The bytes of a program's words are the program, but for an odd byte at its end. -/
theorem flatMap_bytes_words : ∀ program : List UInt8,
    (words program).flatMap bytes = program.take (2 * (program.length / 2))
  | [] => rfl
  | [_] => by simp [words]
  | hi :: lo :: rest => by
    have hlen : 2 * ((hi :: lo :: rest).length / 2) = 2 * (rest.length / 2) + 2 := by
      rw [List.length_cons, List.length_cons]
      omega
    rw [words, List.flatMap_cons, flatMap_bytes_words rest, bytes_ofNat, hlen]
    rfl

theorem words_flatMap_bytes (ws : List UInt16) : words (ws.flatMap bytes) = ws := by
  induction ws with
  | nil => rfl
  | cons w ws ih =>
    show UInt16.ofNat _ :: words (ws.flatMap bytes) = w :: ws
    rw [ofNat_bytes, ih]

/-- Words behind a program of an even length are read one by one. -/
theorem words_append : ∀ {program : List UInt8}, program.length % 2 = 0 → ∀ ws : List UInt16,
    words (program ++ ws.flatMap bytes) = words program ++ ws
  | [], _, ws => words_flatMap_bytes ws
  | hi :: lo :: rest, h, ws => by
    have hrest : rest.length % 2 = 0 := by
      rw [List.length_cons, List.length_cons] at h
      omega
    show UInt16.ofNat _ :: words (rest ++ ws.flatMap bytes) = _
    rw [words_append hrest, words, List.cons_append]

theorem length_flatMap_bytes (ws : List UInt16) : (ws.flatMap bytes).length = 2 * ws.length := by
  induction ws with
  | nil => rfl
  | cons w ws ih =>
    rw [List.flatMap_cons, List.length_append, ih, List.length_cons, bytes]
    simp only [List.length_cons, List.length_nil]
    omega

/-! ## One word after the other -/

theorem cursor_compile (m : Machine) (w : UInt16) : (m.compile w).cursor % 2 = m.cursor % 2 := by
  show (m.cursor + 2) % Memory.size % 2 = _
  simp only [Memory.size]
  omega

theorem cursor_compileAll (ws : List UInt16) {m : Machine} (hc : m.cursor < Memory.size) :
    (ws.foldl compile m).cursor = (m.cursor + 2 * ws.length) % Memory.size := by
  induction ws generalizing m with
  | nil => exact (Nat.mod_eq_of_lt hc).symm
  | cons w ws ih =>
    have hcursor : (m.compile w).cursor = (m.cursor + 2) % Memory.size := rfl
    have hlt : (m.compile w).cursor < Memory.size := Nat.mod_lt _ (by decide)
    rw [List.foldl_cons, ih hlt, hcursor, List.length_cons, Nat.mod_add_mod]
    congr 1
    omega

theorem memory_compileAll (ws : List UInt16) (m : Machine) :
    (ws.foldl compile m).state.memory = m.state.memory.write m.cursor (ws.flatMap bytes) := by
  induction ws generalizing m with
  | nil => rfl
  | cons w ws ih =>
    have hmemory : (m.compile w).state.memory = m.state.memory.write m.cursor (bytes w) := rfl
    have hcursor : (m.compile w).cursor % 4096 = (m.cursor + (bytes w).length) % 4096 := by
      show (m.cursor + 2) % 4096 % 4096 = (m.cursor + 2) % 4096
      omega
    rw [List.foldl_cons, ih, List.flatMap_cons, Bank.write_append, hmemory,
      Bank.write_congr _ _ hcursor]

theorem instructionAt_compile (m : Machine) (w : UInt16) (a : Nat) :
    (m.compile w).instructionAt a =
      if m.cursor % 4096 = a % 4096 then .ofWord w else m.instructionAt a :=
  Bank.get_set _ _ _ _

theorem instructionAt_compileAll_of_ne (ws : List UInt16) {m : Machine} {a : Nat}
    (h : ∀ k < ws.length, (m.cursor + 2 * k) % 4096 ≠ a % 4096) :
    (ws.foldl compile m).instructionAt a = m.instructionAt a := by
  induction ws generalizing m with
  | nil => rfl
  | cons w ws ih =>
    have hhead : m.cursor % 4096 ≠ a % 4096 := h 0 (by simp)
    have htail : ∀ k < ws.length, ((m.compile w).cursor + 2 * k) % 4096 ≠ a % 4096 := by
      intro k hk
      have := h (k + 1) (by simpa using hk)
      show ((m.cursor + 2) % 4096 + 2 * k) % 4096 ≠ a % 4096
      omega
    rw [List.foldl_cons, ih htail, instructionAt_compile, if_neg hhead]

/-- The table has the class of word `k` where that word was compiled, if no later one was compiled
there. -/
theorem instructionAt_compileAll (ws : List UInt16) {m : Machine} {k : Nat} (hk : k < ws.length)
    (hlast : ∀ j, k < j → j < ws.length →
      (m.cursor + 2 * j) % 4096 ≠ (m.cursor + 2 * k) % 4096) :
    (ws.foldl compile m).instructionAt (m.cursor + 2 * k) = .ofWord ws[k] := by
  induction ws generalizing m k with
  | nil => cases hk
  | cons w ws ih =>
    have hcursor : (m.compile w).cursor = (m.cursor + 2) % 4096 := rfl
    cases k with
    | zero =>
      have hrest : ∀ j < ws.length, ((m.compile w).cursor + 2 * j) % 4096 ≠ m.cursor % 4096 := by
        intro j hj
        have := hlast (j + 1) (by omega) (by simpa using hj)
        omega
      rw [List.foldl_cons, Nat.mul_zero, Nat.add_zero, instructionAt_compileAll_of_ne _ hrest,
        instructionAt_compile, if_pos rfl]
      rfl
    | succ k =>
      have haddress : ((m.compile w).cursor + 2 * k) % 4096 = (m.cursor + 2 * (k + 1)) % 4096 := by
        omega
      have hlater : ∀ j, k < j → j < ws.length →
          ((m.compile w).cursor + 2 * j) % 4096 ≠ ((m.compile w).cursor + 2 * k) % 4096 := by
        intro j hkj hj
        have := hlast (j + 1) (by omega) (by simpa using hj)
        omega
      have hrest := ih (m := m.compile w) (by simpa using hk) hlater
      rw [instructionAt, Bank.get_congr _ haddress] at hrest
      exact hrest

end Machine

end ChipEight
