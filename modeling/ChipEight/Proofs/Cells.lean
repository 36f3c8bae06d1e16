import ChipEight.Memory

/-!
# Reading and writing runs of cells

What a write of several cells does to a read of one of them (`get_write`) and to a read elsewhere
(`get_write_of_ne`), and that reads and writes of several cells depend on the address only modulo
the size of the bank (`write_congr`, `window_congr`). The memory of a fresh machine is zero above
the font (`get_initial`).
-/

set_option autoImplicit false

namespace ChipEight

namespace Bank

variable {α : Type} {n : Nat} [Sized n]

/-- A write leaves the cells alone that it does not name. -/
theorem get_write_of_ne (b : Bank α n) (i : Nat) (as : List α) {j : Nat}
    (h : ∀ k < as.length, (i + k) % n ≠ j % n) : (b.write i as).get j = b.get j := by
  induction as generalizing b i with
  | nil => rfl
  | cons a as ih =>
    have hhead : i % n ≠ j % n := by simpa using h 0 (by simp)
    have htail : ∀ k < as.length, (i + 1 + k) % n ≠ j % n := by
      intro k hk
      have := h (k + 1) (by simpa using hk)
      rwa [show i + 1 + k = i + (k + 1) by omega]
    rw [write_cons, ih _ _ htail, get_set_of_ne _ _ hhead]

/-- After a write the cell for element `k` holds it, if no later element went to that cell. -/
theorem get_write (b : Bank α n) (i : Nat) (as : List α) {k : Nat} (hk : k < as.length)
    (hlast : ∀ j, k < j → j < as.length → (i + j) % n ≠ (i + k) % n) :
    (b.write i as).get (i + k) = as[k] := by
  induction as generalizing b i k with
  | nil => cases hk
  | cons a as ih =>
    cases k with
    | zero =>
      have hrest : ∀ j < as.length, (i + 1 + j) % n ≠ i % n := by
        intro j hj
        have := hlast (j + 1) (by omega) (by simpa using hj)
        rwa [show i + 1 + j = i + (j + 1) by omega]
      show (b.write i (a :: as)).get i = a
      rw [write_cons, get_write_of_ne _ _ _ hrest, get_set_self]
    | succ k =>
      have hlater : ∀ j, k < j → j < as.length → (i + 1 + j) % n ≠ (i + 1 + k) % n := by
        intro j hkj hj
        have := hlast (j + 1) (by omega) (by simpa using hj)
        rwa [show i + 1 + j = i + (j + 1) by omega, show i + 1 + k = i + (k + 1) by omega]
      rw [write_cons, show i + (k + 1) = i + 1 + k by omega]
      exact ih _ _ (by simpa using hk) hlater

/-- A write no longer than the bank reads back. -/
theorem get_write_of_le (b : Bank α n) (i : Nat) (as : List α) (hlen : as.length ≤ n) {k : Nat}
    (hk : k < as.length) : (b.write i as).get (i + k) = as[k] := by
  refine b.get_write i as hk fun j hkj hj heq => ?_
  have hdiff := Nat.sub_mod_eq_zero_of_mod_eq heq
  rw [show i + j - (i + k) = j - k by omega, Nat.mod_eq_of_lt (by omega)] at hdiff
  omega

/-- A write of the same to two banks leaves a cell alone in both, or makes it the same. -/
theorem get_write_or (b c : Bank α n) (i : Nat) (as : List α) (j : Nat) :
    ((b.write i as).get j = b.get j ∧ (c.write i as).get j = c.get j) ∨
      (c.write i as).get j = (b.write i as).get j := by
  induction as generalizing b c i with
  | nil => exact .inl ⟨rfl, rfl⟩
  | cons a as ih =>
    rw [write_cons, write_cons]
    rcases ih (b.set i a) (c.set i a) (i + 1) with ⟨hb, hc⟩ | h
    · by_cases hij : i % n = j % n
      · right
        rw [hb, hc, get_set, get_set, if_pos hij, if_pos hij]
      · left
        exact ⟨hb.trans (get_set_of_ne _ _ hij), hc.trans (get_set_of_ne _ _ hij)⟩
    · exact .inr h

theorem write_append (b : Bank α n) (i : Nat) (as bs : List α) :
    b.write i (as ++ bs) = (b.write i as).write (i + as.length) bs := by
  induction as generalizing b i with
  | nil => rfl
  | cons a as ih =>
    rw [List.cons_append, write_cons, write_cons, ih, List.length_cons,
      show i + 1 + as.length = i + (as.length + 1) by omega]

theorem write_congr (b : Bank α n) (as : List α) {i j : Nat} (h : i % n = j % n) :
    b.write i as = b.write j as := by
  induction as generalizing b i j with
  | nil => rfl
  | cons a as ih =>
    have hnext : (i + 1) % n = (j + 1) % n := by rw [Nat.add_mod, h, ← Nat.add_mod]
    rw [write_cons, write_cons, b.set_congr a h, ih _ hnext]

theorem window_congr (b : Bank α n) (len : Nat) {i j : Nat} (h : i % n = j % n) :
    b.window i len = b.window j len := by
  refine List.map_congr_left fun k _ => b.get_congr ?_
  rw [Nat.add_mod, h, ← Nat.add_mod]

end Bank

namespace Memory

theorem get_initial {a : Nat} (h : Font.glyphs.length ≤ a % size) : initial.get a = 0 := by
  have hoff : ∀ k < Font.glyphs.length, (0 + k) % 4096 ≠ a % 4096 := by
    intro k hk
    simp only [Font.length_glyphs, Font.height, size] at h hk
    omega
  rw [initial, Bank.get_write_of_ne _ _ _ hoff, Bank.get_fill]

end Memory

end ChipEight
