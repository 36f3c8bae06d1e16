import ChipEight.Machine.Listing

/-!
# Lines of text

A text made of lines is taken apart into them again at the line feeds (`linesOf_unlines`), and the
hexadecimal digits written for a number spell it (`Hex.spells_digits`).
-/

set_option autoImplicit false

namespace ChipEight

/-! ## Line feeds -/

theorem toList_unlines (lines : List String) :
    (unlines lines).toList = lines.flatMap fun line => line.toList ++ ['\n'] := by
  have hfold (text : String) :
      (lines.foldl (fun text line => text ++ line ++ "\n") text).toList =
        text.toList ++ lines.flatMap fun line => line.toList ++ ['\n'] := by
    induction lines generalizing text with
    | nil => simp
    | cons line lines ih =>
      rw [List.foldl_cons, ih, List.flatMap_cons, String.toList_append, String.toList_append,
        List.append_assoc, List.append_assoc, List.append_assoc]
      rfl
  exact hfold ""

/-- Lines without line feeds are found again by splitting at the line feeds. -/
theorem splitOn_unlines {lines : List String} (h : ∀ line ∈ lines, '\n' ∉ line.toList)
    (rest : List Char) :
    ((unlines lines).toList ++ rest).splitOn '\n' =
      lines.map String.toList ++ rest.splitOn '\n' := by
  rw [toList_unlines]
  induction lines with
  | nil => rfl
  | cons line lines ih =>
    obtain ⟨hline, hlines⟩ := List.forall_mem_cons.1 h
    rw [List.flatMap_cons, List.append_assoc, List.append_assoc, List.singleton_append,
      List.splitOn_append_cons_self_of_not_mem hline, ih hlines, List.map_cons, List.cons_append]

/-- The lines of a text whose last line ends with a line feed, too. -/
def linesOf (text : String) : List (List Char) := (text.toList.splitOn '\n').dropLast

theorem linesOf_unlines {lines : List String} (h : ∀ line ∈ lines, '\n' ∉ line.toList) :
    linesOf (unlines lines) = lines.map String.toList := by
  have hsplit := splitOn_unlines h []
  rw [List.append_nil] at hsplit
  rw [linesOf, hsplit]
  exact List.dropLast_concat

/-! ## Hexadecimal digits -/

namespace Hex

/-- The characters are `width` upper-case hexadecimal digits and stand for `n`. -/
structure Spells (width n : Nat) (cs : List Char) : Prop where
  length : cs.length = width
  upper : ∀ c ∈ cs, c ∈ "0123456789ABCDEF".toList
  value : value cs = n

theorem digit_mem {n : Nat} (h : n < 16) : digit n ∈ "0123456789ABCDEF".toList := by
  have hall : ∀ n < 16, digit n ∈ "0123456789ABCDEF".toList := by decide
  exact hall n h

theorem mem_digits {width n : Nat} {c : Char} (h : c ∈ digits width n) :
    c ∈ "0123456789ABCDEF".toList := by
  induction width generalizing n with
  | zero => cases h
  | succ width ih =>
    unfold digits at h
    rcases List.mem_append.1 h with h | h
    · exact ih h
    · rw [List.mem_singleton.1 h]
      exact digit_mem (Nat.mod_lt _ (by decide))

theorem spells_digits {width n : Nat} (h : n < Nat.pow 16 width) :
    Spells width n (digits width n) where
  length := length_digits width n
  upper _ := mem_digits
  value := by rw [value_digits, Nat.mod_eq_of_lt h]

theorem lineFeed_not_mem_digits (width n : Nat) : '\n' ∉ digits width n := by
  intro h
  have hfeed : '\n' ∉ "0123456789ABCDEF".toList := by decide
  exact hfeed (mem_digits h)

/-- Two bytes side by side are the digits of the word they make. -/
theorem digits_append_digits {hi lo : Nat} (h : lo < 256) :
    digits 2 hi ++ digits 2 lo = digits 4 (hi * 256 + lo) := by
  have h0 : (hi * 256 + lo) % 16 = lo % 16 := by omega
  have h1 : (hi * 256 + lo) / 16 % 16 = lo / 16 % 16 := by omega
  have h2 : (hi * 256 + lo) / 16 / 16 % 16 = hi % 16 := by omega
  have h3 : (hi * 256 + lo) / 16 / 16 / 16 % 16 = hi / 16 % 16 := by omega
  simp only [digits, h0, h1, h2, h3, List.nil_append, List.cons_append]

end Hex

end ChipEight
