import ChipEight.Mismatch

/-!
# Codes of keys

A key is read from a signed or an unsigned 64-bit number. Both readers do what
`Key.ofInteger` does to the integer that the number stands for: the sixteen codes are accepted, and
every other integer is quoted as it is (`Key.reads_ofInteger`). So the two agree wherever both can
be asked (`codes_read_alike`).
-/

set_option autoImplicit false

namespace ChipEight

namespace Key

/-- The key whose code is an integer. -/
def ofInteger (n : Int) : Except Mismatch Key :=
  if h : 0 ≤ n ∧ n < 16 then .ok ⟨⟨n.toNat, by omega⟩⟩
  else .error (.value (.integer n) rangeMessage)

/-- What a reader of key codes has to make of an integer. -/
structure Reads (n : Int) (read : Except Mismatch Key) : Prop where
  key : ∀ k, read = .ok k ↔ n = (k.code : Nat)
  accepted : (∃ k, read = .ok k) ↔ 0 ≤ n ∧ n < 16
  quoted : ¬(0 ≤ n ∧ n < 16) → read = .error (.value (.integer n) rangeMessage)
  byte : ∀ k, read = .ok k →
    (k.toByte.toNat : Int) = n ∧ ∀ b : UInt8, (b.toNat : Int) = n → ofByte? b = some k

theorem ofInteger_eq_ok_iff {n : Int} {k : Key} : ofInteger n = .ok k ↔ n = (k.code : Nat) := by
  obtain ⟨⟨c, hc⟩⟩ := k
  unfold ofInteger
  split
  · next h =>
    rw [Except.ok.injEq, Key.mk.injEq, Fin.mk.injEq]
    show n.toNat = c ↔ n = (c : Int)
    omega
  · next h =>
    refine ⟨nofun, fun hn => absurd ?_ h⟩
    have hn : n = (c : Int) := hn
    omega

theorem ofInteger_eq_error_iff {n : Int} {e : Mismatch} :
    ofInteger n = .error e ↔ ¬(0 ≤ n ∧ n < 16) ∧ e = .value (.integer n) rangeMessage := by
  unfold ofInteger
  split
  · next h => exact ⟨nofun, fun hn => absurd h hn.1⟩
  · next h => rw [Except.error.injEq, and_iff_right h, eq_comm]

theorem reads_ofInteger (n : Int) : Reads n (ofInteger n) where
  key k := ofInteger_eq_ok_iff
  accepted := by
    refine ⟨fun ⟨k, hk⟩ => ?_, fun h => ⟨_, dif_pos h⟩⟩
    have hcode := k.code.isLt
    rw [ofInteger_eq_ok_iff] at hk
    omega
  quoted h := ofInteger_eq_error_iff.2 ⟨h, rfl⟩
  byte k hk := by
    rw [ofInteger_eq_ok_iff] at hk
    refine ⟨?_, fun b hb => ?_⟩
    · rw [toNat_toByte, hk]
    · rw [ofByte?, ofNat?_eq_some_iff]
      omega

/-- Different integers are read differently. -/
theorem ofInteger_inj {n n' : Int} : ofInteger n = ofInteger n' ↔ n = n' := by
  refine ⟨fun h => ?_, fun h => h ▸ rfl⟩
  cases hread : ofInteger n with
  | ok k =>
    have hcode := ofInteger_eq_ok_iff.1 hread
    have hcode' := ofInteger_eq_ok_iff.1 (h ▸ hread)
    exact hcode.trans hcode'.symm
  | error e =>
    have hquoted := (ofInteger_eq_error_iff.1 hread).2
    have hquoted' := (ofInteger_eq_error_iff.1 (h ▸ hread)).2
    simpa using hquoted.symm.trans hquoted'

/-- The sign of a signed code is checked before it is narrowed to a byte. -/
theorem ofInt64_eq (v : Int64) : ofInt64 v = ofInteger v.toInt := by
  have hrange : (0 ≤ v ∧ v < 16) ↔ 0 ≤ v.toInt ∧ v.toInt < 16 :=
    and_congr Int64.le_iff_toInt_le Int64.lt_iff_toInt_lt
  unfold ofInt64
  split
  · next h =>
    have hnat : v.toUInt64.toNat = v.toInt.toNat := Int64.toNat_toUInt64_of_le h.1
    obtain ⟨hlo, hhi⟩ := hrange.1 h
    have hbyte : ofByte? v.toUInt64.toUInt8 = some ⟨⟨v.toInt.toNat, by omega⟩⟩ := by
      rw [ofByte?, ofNat?_eq_some_iff, UInt64.toNat_toUInt8, hnat]
      show v.toInt.toNat % 2 ^ 8 = v.toInt.toNat
      omega
    rw [hbyte, ofInteger, dif_pos ⟨hlo, hhi⟩]
  · next h => rw [ofInteger, dif_neg (mt hrange.2 h)]

/-- An unsigned code is checked before it is taken as a signed one, where it could be negative. -/
theorem ofUInt64_eq (w : UInt64) : ofUInt64 w = ofInteger w.toNat := by
  unfold ofUInt64
  split
  · next h =>
    have hge : 16 ≤ w.toNat := UInt64.le_iff_toNat_le.1 h
    rw [ofInteger, dif_neg (by omega)]
  · next h =>
    have hlt : w.toNat < 16 := Nat.lt_of_not_le fun hge => h (UInt64.le_iff_toNat_le.2 hge)
    have hsigned : w.toInt64.toInt = w.toNat := BitVec.toInt_eq_toNat_of_lt (by
      show 2 * w.toNat < 2 ^ 64
      omega)
    rw [ofInt64_eq, hsigned]

end Key

/-- **Key codes are read alike from signed and unsigned numbers.** Both readers give the key whose
code the number is, and they accept the numbers from 0 to 15 and no others; any other number is
reported as an invalid value, with just that number in the report. Two numbers, a signed and an
unsigned one, are read alike if and only if they are the same integer. The key that is accepted
gives the number back as a byte, and that byte gives the key. -/
theorem codes_read_alike :
    (∀ v : Int64, Key.Reads v.toInt (Key.ofInt64 v)) ∧
    (∀ w : UInt64, Key.Reads w.toNat (Key.ofUInt64 w)) ∧
    (∀ (v : Int64) (w : UInt64), Key.ofInt64 v = Key.ofUInt64 w ↔ v.toInt = w.toNat) ∧
    ∀ n : Int, (Mismatch.value (.integer n) Key.rangeMessage).text =
      "invalid value: integer `" ++ toString n ++
        "`, expected keycode must be in range 0 <= keycode < 16" := by
  refine ⟨fun v => ?_, fun w => ?_, fun v w => ?_, fun n => ?_⟩
  · rw [Key.ofInt64_eq]
    exact Key.reads_ofInteger v.toInt
  · rw [Key.ofUInt64_eq]
    exact Key.reads_ofInteger w.toNat
  · rw [Key.ofInt64_eq, Key.ofUInt64_eq, Key.ofInteger_inj]
  · unfold Mismatch.text Found.text Key.rangeMessage
    simp only [String.append_assoc]
    rfl

/-- Codes whose last byte is that of a key are quoted whole, also where the other reader would take
them for a negative number. -/
theorem codes_read_alike_sparse :
    Key.ofInt64 7 = .ok ⟨7⟩ ∧ Key.ofUInt64 7 = .ok ⟨7⟩ ∧ Key.ofByte? 7 = some ⟨7⟩ ∧
      Key.ofInt64 (-249) = .error (.value (.integer (-249)) Key.rangeMessage) ∧
      Key.ofInt64 263 = .error (.value (.integer 263) Key.rangeMessage) ∧
      Key.ofInt64 263 = Key.ofUInt64 263 ∧
      Key.ofUInt64 0x8000000000000007 =
        .error (.value (.integer 9223372036854775815) Key.rangeMessage) := by
  obtain ⟨hsigned, hunsigned, halike, -⟩ := codes_read_alike
  have hseven : Key.ofInt64 7 = .ok ⟨7⟩ := ((hsigned 7).key ⟨7⟩).2 rfl
  exact ⟨hseven, ((hunsigned 7).key ⟨7⟩).2 rfl, ((hsigned 7).byte ⟨7⟩ hseven).2 7 rfl,
    (hsigned (-249)).quoted (by decide), (hsigned 263).quoted (by decide),
    (halike 263 263).2 rfl, (hunsigned 0x8000000000000007).quoted (by decide)⟩

end ChipEight
