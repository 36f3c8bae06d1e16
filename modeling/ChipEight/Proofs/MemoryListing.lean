import ChipEight.Proofs.CircularCompilation
import ChipEight.Proofs.Dispatch
import ChipEight.Proofs.Lines
import ChipEight.Proofs.WrittenCells

/-!
# Listings of memory

A listing has one line for every second address above the start of programs, with the word that
memory holds there and the mnemonic of the instruction in the table (`Machine.ShowsWord`). Both
columns can be read back from a line. After a load, and as long as no cell above the start of
programs is written, the words are those of the program and each mnemonic is that of the word beside
it (`listing_inverts_load`).
-/

set_option autoImplicit false

namespace ChipEight

/-! ## Addresses -/

/-- Every second element of a list, from the first on. -/
def everySecond {α : Type} : List α → List α
  | [] => []
  | [a] => [a]
  | a :: _ :: as => a :: everySecond as

theorem everySecond_range' : ∀ s n : Nat,
    everySecond (List.range' s n) = (List.range ((n + 1) / 2)).map fun j => s + 2 * j
  | _, 0 => rfl
  | _, 1 => rfl
  | s, n + 2 => by
    have hhalf : (n + 2 + 1) / 2 = (n + 1) / 2 + 1 := by omega
    rw [List.range'_succ, List.range'_succ, everySecond, everySecond_range' (s + 1 + 1) n, hhalf,
      List.range_succ_eq_map, List.map_cons, List.map_map]
    congr 1
    refine List.map_congr_left fun j _ => ?_
    show s + 1 + 1 + 2 * j = s + 2 * (j + 1)
    omega

namespace Machine

/-- The listed addresses are every second one of the first `count` above the start of programs. -/
theorem listedAddresses_eq (count : Nat) :
    listedAddresses count =
      everySecond (((List.range Memory.size).drop Memory.start).take count) := by
  have hlength : min (count + Memory.start) Memory.size - Memory.start =
      min count Memory.maxProgram := by
    simp only [Memory.maxProgram, Memory.size, Memory.start]
    omega
  have hrange : ((List.range Memory.size).drop Memory.start).take count =
      List.range' Memory.start (min count Memory.maxProgram) := by
    rw [List.take_drop, List.take_range, List.range_eq_range', List.drop_range', Nat.zero_add,
      Nat.mul_one, Nat.add_comm, hlength]
  rw [hrange, everySecond_range', listedAddresses]

/-! ## Lines -/

/-- A line has the address, the two bytes there, and the mnemonic of the instruction in the
table. -/
def ShowsWord (m : Machine) (a : Nat) (line : List Char) : Prop :=
  ∃ address high low : List Char,
    line = address ++ ": ".toList ++ high ++ low ++ " ".toList ++
      (m.instructionAt a).mnemonic.toList ∧
    Hex.Spells 4 a address ∧ Hex.Spells 2 (m.state.memory.get a).toNat high ∧
    Hex.Spells 2 (m.state.memory.get (a + 1)).toNat low

theorem toList_listingLine (m : Machine) (a : Nat) :
    (m.listingLine a).toList =
      Hex.digits 4 a ++ ": ".toList ++ Hex.digits 2 (m.state.memory.get a).toNat ++
        Hex.digits 2 (m.state.memory.get (a + 1)).toNat ++ " ".toList ++
        (m.instructionAt a).mnemonic.toList := by
  unfold listingLine Hex.text
  simp only [String.toList_append, String.toList_ofList]

theorem showsWord_listingLine (m : Machine) {a : Nat} (h : a < Memory.size) :
    m.ShowsWord a (m.listingLine a).toList := by
  have ha : a < 0x10000 := Nat.lt_trans h (by decide)
  exact ⟨_, _, _, m.toList_listingLine a, Hex.spells_digits ha,
    Hex.spells_digits (m.state.memory.get a).toNat_lt,
    Hex.spells_digits (m.state.memory.get (a + 1)).toNat_lt⟩

theorem lineFeed_not_mem_mnemonic (i : Instruction) : '\n' ∉ i.mnemonic.toList := by
  cases i with
  | skip c => cases c <;> decide
  | alu op => cases op <;> decide
  | _ => decide

theorem lineFeed_not_mem_listingLine (m : Machine) (a : Nat) :
    '\n' ∉ (m.listingLine a).toList := by
  rw [toList_listingLine]
  simp only [List.mem_append, not_or]
  exact ⟨⟨⟨⟨⟨Hex.lineFeed_not_mem_digits _ _, by decide⟩, Hex.lineFeed_not_mem_digits _ _⟩,
    Hex.lineFeed_not_mem_digits _ _⟩, by decide⟩, lineFeed_not_mem_mnemonic _⟩

/-- The lines of a listing are found again in its text. -/
theorem linesOf_listing (m : Machine) (count : Nat) :
    linesOf (m.listing count) = (listedAddresses count).map fun a => (m.listingLine a).toList := by
  rw [listing, linesOf_unlines, List.map_map]
  · rfl
  · intro line hline
    obtain ⟨a, -, rfl⟩ := List.mem_map.1 hline
    exact m.lineFeed_not_mem_listingLine a

theorem toList_listing (m : Machine) (count : Nat) :
    (m.listing count).toList = (linesOf (m.listing count)).flatMap (· ++ ['\n']) := by
  rw [linesOf_listing, listing, toList_unlines, List.flatMap_map, List.flatMap_map]

end Machine

/-! ## Reading back -/

namespace Listing

/-- The word that a line shows in its four digits behind the address. -/
def wordOfLine (line : List Char) : UInt16 := UInt16.ofNat (Hex.value ((line.drop 6).take 4))

/-- The mnemonic at the end of a line. -/
def mnemonicOfLine (line : List Char) : String := String.ofList (line.drop 11)

/-- The bytes that a listing shows. -/
def bytesOf (text : String) : List UInt8 :=
  (linesOf text).flatMap fun line => Machine.bytes (wordOfLine line)

/-- A line in columns. -/
theorem toList_listingLine_columns (m : Machine) (a : Nat) :
    (m.listingLine a).toList =
      (Hex.digits 4 a ++ ": ".toList) ++ (Hex.digits 4 (m.state.memory.word a).toNat ++
        (" ".toList ++ (m.instructionAt a).mnemonic.toList)) := by
  have hlo := (m.state.memory.get (a + 1)).toNat_lt
  rw [m.toList_listingLine, Memory.toNat_word, ← Hex.digits_append_digits hlo]
  simp only [List.append_assoc]

theorem wordOfLine_listingLine (m : Machine) (a : Nat) :
    wordOfLine (m.listingLine a).toList = m.state.memory.word a := by
  have haddress : (Hex.digits 4 a ++ ": ".toList).length = 6 := by
    rw [List.length_append, Hex.length_digits]
    rfl
  have hdigits := Hex.length_digits 4 (m.state.memory.word a).toNat
  have hvalue : Hex.value (Hex.digits 4 (m.state.memory.word a).toNat) =
      (m.state.memory.word a).toNat :=
    (Hex.spells_digits (m.state.memory.word a).toNat_lt).value
  rw [wordOfLine, toList_listingLine_columns, List.drop_left' haddress, List.take_left' hdigits,
    hvalue, UInt16.ofNat_toNat]

theorem mnemonicOfLine_listingLine (m : Machine) (a : Nat) :
    mnemonicOfLine (m.listingLine a).toList = (m.instructionAt a).mnemonic := by
  have hlength : (Hex.digits 4 a ++ ": ".toList ++
      (Hex.digits 4 (m.state.memory.word a).toNat ++ " ".toList)).length = 11 := by
    simp only [List.length_append, Hex.length_digits]
    rfl
  rw [mnemonicOfLine, toList_listingLine_columns, ← List.append_assoc (Hex.digits 4 _),
    ← List.append_assoc, List.drop_left' hlength, String.ofList_toList]

/-- The bytes of a listing are those of the words at its addresses. -/
theorem bytesOf_listing (m : Machine) (count : Nat) :
    bytesOf (m.listing count) =
      ((Machine.listedAddresses count).map m.state.memory.word).flatMap Machine.bytes := by
  rw [bytesOf, m.linesOf_listing, List.flatMap_map, List.flatMap_map]
  simp only [wordOfLine_listingLine]

end Listing

/-! ## After a load -/

namespace Machine

/-- A load puts word `k` of the program at its address. -/
theorem word_of_load {m loaded : Machine} {program : List UInt8} {entropy : Entropy}
    (h : m.load program entropy = .ok loaded) {k : Nat} (hk : k < (words program).length) :
    loaded.state.memory.word (Memory.start + 2 * k) = (words program)[k] := by
  obtain ⟨hfit, rfl⟩ := load_eq_ok_iff.1 h
  have hlength := length_words program
  have hcursor : (m.reset entropy).cursor = Memory.start := rfl
  have hrange : (m.reset entropy).InRange := inRange_initial _ _
  simp only [Memory.maxProgram, Memory.size, Memory.start] at hfit
  rcases cell_compileAll hrange (words program) (a := Memory.start + 2 * k)
      (by simp only [Memory.size, Memory.start]; omega) (by rw [hcursor]; omega) with
    ⟨hnone, -⟩ | ⟨i, w, hlast, hw, hholds⟩
  · refine absurd ?_ (hnone k hk)
    rw [hcursor]
    simp only [Memory.size, Memory.start]
    omega
  · have hi := hlast.lt
    have hhere := hlast.here
    rw [hcursor] at hhere
    simp only [Memory.size, Memory.start] at hhere
    obtain rfl : i = k := by omega
    rw [List.getElem?_eq_getElem hk] at hw
    rw [Memory.word, hholds.high, hholds.low, ofNat_bytes, Option.some.inj hw]

/-- The listing of a machine whose memory holds the words of a program shows the program. -/
theorem bytesOf_listing_of_words {m : Machine} {program : List UInt8}
    (hfit : program.length ≤ Memory.maxProgram)
    (hword : ∀ k (hk : k < (words program).length),
      m.state.memory.word (Memory.start + 2 * k) = (words program)[k]) :
    Listing.bytesOf (m.listing (2 * (program.length / 2))) =
      program.take (2 * (program.length / 2)) := by
  have hcount : (min (2 * (program.length / 2)) Memory.maxProgram + 1) / 2 =
      (words program).length := by
    rw [length_words]
    omega
  have hwords : (listedAddresses (2 * (program.length / 2))).map m.state.memory.word =
      words program := by
    rw [listedAddresses, hcount, List.map_map]
    refine List.ext_getElem (by simp) fun k _ hk => ?_
    rw [List.getElem_map, List.getElem_range]
    exact hword k hk
  rw [Listing.bytesOf_listing, hwords, flatMap_bytes_words]

section

variable {m loaded : Machine} {program : List UInt8} {entropy : Entropy}
  (h : m.load program entropy = .ok loaded) {es : List Event} (hlinked : Linked loaded es)
  (hes : ∀ e ∈ es, ∀ a, Memory.start ≤ a → a < Memory.size → ¬e.WritesCell a)
include h hlinked hes

/-- A loaded word stays where it is as long as nothing is written above the start of programs. -/
theorem word_of_load_after {k : Nat} (hk : k < (words program).length) :
    (loaded.after es).state.memory.word (Memory.start + 2 * k) = (words program)[k] := by
  have hfit := (load_eq_ok_iff.1 h).1
  have hlength := length_words program
  simp only [Memory.maxProgram, Memory.size, Memory.start] at hfit
  have hkeeps : ∀ a, Memory.start ≤ a → a < Memory.size →
      (loaded.after es).state.memory.get a = loaded.state.memory.get a := fun a hlo hhi =>
    (hlinked.keeps_cell fun e he => hes e he a hlo hhi).1
  rw [← word_of_load h hk]
  refine Memory.word_eq_of_get (hkeeps _ ?_ ?_) (hkeeps _ ?_ ?_) <;>
    · simp only [Memory.size, Memory.start]
      omega

/-- The table stays coherent above the start of programs as long as nothing is written there. -/
theorem instructionAt_of_load_after {a : Nat} (hlo : Memory.start ≤ a) (hhi : a + 1 < Memory.size)
    (heven : a % 2 = 0) :
    (loaded.after es).instructionAt a = .ofWord ((loaded.after es).state.memory.word a) := by
  have hhigh := hlinked.keeps_cell fun e he => hes e he a hlo (Nat.lt_of_succ_lt hhi)
  have hlow := hlinked.keeps_cell fun e he => hes e he (a + 1) (Nat.le_succ_of_le hlo) hhi
  rw [hhigh.2, Memory.word_eq_of_get hhigh.1 hlow.1]
  refine (coherent_of_load h).table a heven ?_
  rw [Nat.mod_eq_of_lt (Nat.lt_of_succ_lt hhi)]
  exact Nat.le_trans (by decide) hlo

end

theorem listedAddresses_getElem? {count j a : Nat} (h : (listedAddresses count)[j]? = some a) :
    Memory.start + 2 * j ≤ 0xFFE ∧ a = Memory.start + 2 * j := by
  rw [listedAddresses, List.getElem?_map, Option.map_eq_some_iff] at h
  obtain ⟨i, hi, rfl⟩ := h
  obtain ⟨hj, rfl⟩ := List.getElem?_eq_some_iff.1 hi
  have hlt : j < (min count Memory.maxProgram + 1) / 2 := by simpa using hj
  rw [List.getElem_range]
  refine ⟨?_, rfl⟩
  simp only [Memory.maxProgram, Memory.size, Memory.start] at hlt ⊢
  omega

theorem mem_listedAddresses {count a : Nat} (h : a ∈ listedAddresses count) :
    Memory.start ≤ a ∧ a + 1 < Memory.size ∧ a % 2 = 0 := by
  obtain ⟨j, hj⟩ := List.mem_iff_getElem?.1 h
  obtain ⟨hend, rfl⟩ := listedAddresses_getElem? hj
  simp only [Memory.size, Memory.start] at hend ⊢
  omega

end Machine

/-- **A listing shows memory, and after a load the program.** The listing of `count` bytes has a
line for every second one of the first `count` addresses above the start of programs, none of them
beyond the last word of memory; a line shows its address, the two bytes there and the mnemonic of
the instruction in the table. After a program is loaded, and as long as nothing is written above the
start of programs, the bytes read back from the listing are those of the program without an odd last
one, and the mnemonic on each line is that of the word on the same line. -/
theorem listing_inverts_load :
    (∀ (m : Machine) (count : Nat),
      let lines := linesOf (m.listing count)
      (m.listing count).toList = lines.flatMap (· ++ ['\n']) ∧
      lines.length = (min count Memory.maxProgram + 1) / 2 ∧
      ∀ j line, lines[j]? = some line →
        Memory.start + 2 * j ≤ 0xFFE ∧ m.ShowsWord (Memory.start + 2 * j) line) ∧
    (∀ count, Machine.listedAddresses count =
      everySecond (((List.range Memory.size).drop Memory.start).take count)) ∧
    ∀ (m loaded : Machine) (program : List UInt8) (entropy : Entropy) (cs : List Command),
      m.load program entropy = .ok loaded →
      (∀ e ∈ loaded.events cs, ∀ a, Memory.start ≤ a → a < Memory.size → ¬e.WritesCell a) →
      let m' := (loaded.performAll cs).1
      Listing.bytesOf (m'.listing (2 * (program.length / 2))) =
        program.take (2 * (program.length / 2)) ∧
      ∀ count, ∀ line ∈ linesOf (m'.listing count),
        Listing.mnemonicOfLine line = (Instruction.ofWord (Listing.wordOfLine line)).mnemonic := by
  refine ⟨fun m count => ?_, Machine.listedAddresses_eq, ?_⟩
  · refine ⟨m.toList_listing count, ?_, fun j line hline => ?_⟩
    · rw [m.linesOf_listing, List.length_map, Machine.listedAddresses, List.length_map,
        List.length_range]
    · rw [m.linesOf_listing, List.getElem?_map, Option.map_eq_some_iff] at hline
      obtain ⟨a, ha, rfl⟩ := hline
      obtain ⟨hend, rfl⟩ := Machine.listedAddresses_getElem? ha
      exact ⟨hend, m.showsWord_listingLine (Nat.lt_of_le_of_lt hend (by decide))⟩
  · intro m loaded program entropy cs hload hes m'
    have hlinked : Linked loaded (loaded.events cs) := Linked.events loaded cs
    have hafter : m' = loaded.after (loaded.events cs) := (loaded.after_events cs).symm
    rw [hafter]
    refine ⟨?_, fun count line hline => ?_⟩
    · exact Machine.bytesOf_listing_of_words (Machine.load_eq_ok_iff.1 hload).1
        fun k hk => Machine.word_of_load_after hload hlinked hes hk
    · rw [Machine.linesOf_listing] at hline
      obtain ⟨a, ha, rfl⟩ := List.mem_map.1 hline
      obtain ⟨hlo, hhi, heven⟩ := Machine.mem_listedAddresses ha
      rw [Listing.mnemonicOfLine_listingLine, Listing.wordOfLine_listingLine,
        Machine.instructionAt_of_load_after hload hlinked hes hlo hhi heven]

/-- Bytes that are written below the start of programs, by the host and by the program itself, and a
rejected load do not show. The odd last byte of the program does not either. -/
theorem listing_inverts_load_below :
    let program : List UInt8 := [0x60, 0x2A, 0xF0, 0x33, 0x80, 0x06, 0x6E]
    let fresh := (Machine.new (some 7) default).reset default
    let loaded := (Machine.words program).foldl Machine.compile fresh
    let cs := [.write 0x10 [1, 2], .step 2, .load (List.replicate 3585 0) default, .step 1,
      .press none]
    let m' := (loaded.performAll cs).1
    m'.state.memory.get 2 = 2 ∧
      Listing.bytesOf (m'.listing 6) = [0x60, 0x2A, 0xF0, 0x33, 0x80, 0x06] ∧
      ∀ line ∈ linesOf (m'.listing 0x1000),
        Listing.mnemonicOfLine line = (Instruction.ofWord (Listing.wordOfLine line)).mnemonic := by
  intro program fresh loaded cs m'
  have hload : (Machine.new (some 7) default).load program default = .ok loaded :=
    Machine.load_eq_ok_iff.2 ⟨by decide, rfl⟩
  have hbelow : ∀ e ∈ loaded.events cs, e.restarts = false ∧
      ∀ k < e.patch.2.length, (e.patch.1 + k) % Memory.size < Memory.start := by
    decide +kernel
  have hes : ∀ e ∈ loaded.events cs, ∀ a, Memory.start ≤ a → a < Memory.size →
      ¬e.WritesCell a := by
    intro e he a hlo hhi hwrites
    obtain ⟨hr, hpatch⟩ := hbelow e he
    rcases hwrites with hrestarts | ⟨k, hk, hka⟩
    · rw [hr] at hrestarts
      cases hrestarts
    · have hlow := hpatch k hk
      rw [hka, Nat.mod_eq_of_lt hhi] at hlow
      exact absurd hlow (Nat.not_lt.2 hlo)
  have hstored : m'.state.memory.get 2 = 2 := by decide +kernel
  have heven : 2 * (program.length / 2) = 6 := by simp [program]
  obtain ⟨-, -, hinverts⟩ := listing_inverts_load
  obtain ⟨hbytes, hmnemonic⟩ := hinverts _ loaded program default cs hload hes
  rw [heven] at hbytes
  exact ⟨hstored, hbytes, hmnemonic 0x1000⟩

end ChipEight
