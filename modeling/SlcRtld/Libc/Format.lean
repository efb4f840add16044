import SlcRtld.Json.Numeral
import Mathlib.Tactic.IntervalCases

/-!
# Numbers that are printed

The texts that the conversions `%u`, `%d` and `%.1f` give are JSON numbers, with the value that was
printed, and of a length that depends on its size.
-/

namespace SlcRtld.Libc

open Json (Digits Numeral)

/-! ## Digits -/

/-- The byte of a digit. -/
theorem digitChar_byte {n : ℕ} (hn : n < 10) : (Nat.digitChar n).toNat.toUInt8 = (0x30 + n).toUInt8 := by
  interval_cases n <;> rfl

/-- A number of one digit. -/
theorem fmtUnsigned_of_lt {n : ℕ} (hn : n < 10) : fmtUnsigned n = [(0x30 + n).toUInt8] := by
  rw [fmtUnsigned, Nat.toDigits_of_lt_base hn, List.map_singleton, digitChar_byte hn]

/-- The last digit comes behind the others. -/
theorem fmtUnsigned_of_le {n : ℕ} (hn : 10 ≤ n) :
    fmtUnsigned n = fmtUnsigned (n / 10) ++ [(0x30 + n % 10).toUInt8] := by
  rw [fmtUnsigned, Nat.toDigits_of_base_le (by norm_num) hn, List.map_append, List.map_singleton,
    digitChar_byte (Nat.mod_lt _ (by norm_num))]
  rfl

/-- The number of digits. -/
theorem fmtUnsigned_length {n k : ℕ} (hk : 0 < k) : (fmtUnsigned n).length ≤ k ↔ n < 10 ^ k := by
  rw [fmtUnsigned, List.length_map]
  exact Nat.length_toDigits_le_iff (by norm_num) hk

/-- The byte of a digit is a digit, and has its value. -/
theorem digit_byte {n : ℕ} (hn : n < 10) :
    Json.isDigit (0x30 + n).toUInt8 = true ∧ ((0x30 + n).toUInt8).toNat - 0x30 = n := by
  interval_cases n <;> decide

/-- A number is printed with its digits, and with no zero in front of them. -/
theorem fmtUnsigned_spec (n : ℕ) : fmtUnsigned n ≠ [] ∧ Digits (fmtUnsigned n) ∧
    digitsVal (fmtUnsigned n) = n ∧ ((fmtUnsigned n).head? = some 0x30 → n = 0) := by
  induction n using Nat.strongRecOn with
  | ind n ih =>
    rcases Nat.lt_or_ge n 10 with hn | hn
    · obtain ⟨hdigit, hval⟩ := digit_byte hn
      rw [fmtUnsigned_of_lt hn]
      refine ⟨List.cons_ne_nil _ _, List.forall_mem_singleton.mpr hdigit, ?_, fun hzero => ?_⟩
      · show 0 * 10 + _ = n
        omega
      · rw [Option.some.inj hzero] at hval
        exact hval.symm
    · obtain ⟨hne, hdigits, hval, hhead⟩ := ih (n / 10) (by omega)
      obtain ⟨hdigit, hlast⟩ := digit_byte (n := n % 10) (Nat.mod_lt _ (by norm_num))
      rw [fmtUnsigned_of_le hn]
      refine ⟨List.append_ne_nil_of_left_ne_nil hne _,
        hdigits.append (List.forall_mem_singleton.mpr hdigit), ?_, fun hzero => ?_⟩
      · rw [Json.digitsVal_append, hval]
        show n / 10 * 10 ^ 1 + (0 * 10 + _) = n
        omega
      · rw [List.head?_append_of_ne_nil _ hne] at hzero
        have := hhead hzero
        omega

/-! ## Numerals -/

/-- The text of an integer, as a numeral. -/
def integerNumeral (z : ℤ) : Numeral := ⟨z < 0, fmtUnsigned z.natAbs, none, none⟩

/-- The text of a number of tenths, as a numeral. -/
def tenthsNumeral (z : ℤ) : Numeral :=
  ⟨z < 0, fmtUnsigned (z.natAbs / 10), some (fmtUnsigned (z.natAbs % 10)), none⟩

/-- There is no leading zero but the zero itself. -/
theorem fmtUnsigned_leading (n : ℕ) : (fmtUnsigned n).head? = some 0x30 → fmtUnsigned n = [0x30] := by
  intro hzero
  rw [(fmtUnsigned_spec n).2.2.2 hzero]
  decide

section
variable (z : ℤ)

/-- The numeral of an integer is written by `%d`. -/
theorem integerNumeral_text : (integerNumeral z).text = fmtInt z := by
  by_cases hz : z < 0
  · simp [Numeral.text, Numeral.signText, Numeral.tail, Numeral.pointText, Numeral.expText,
      integerNumeral, fmtInt, hz]
  · simp [Numeral.text, Numeral.signText, Numeral.tail, Numeral.pointText, Numeral.expText,
      integerNumeral, fmtInt, hz]

/-- It is a numeral of the grammar. -/
theorem integerNumeral_wellFormed : (integerNumeral z).WellFormed where
  nonempty := (fmtUnsigned_spec _).1
  int := (fmtUnsigned_spec _).2.1
  leading := fmtUnsigned_leading _
  frac := fun _ h => absurd h.symm (Option.some_ne_none _)
  exp := fun _ h => absurd h.symm (Option.some_ne_none _)

/-- The numeral of tenths is written by `%.1f`. -/
theorem tenthsNumeral_text : (tenthsNumeral z).text = fmtTenths z := by
  by_cases hz : z < 0
  · simp [Numeral.text, Numeral.signText, Numeral.tail, Numeral.pointText, Numeral.expText,
      tenthsNumeral, fmtTenths, hz]
  · simp [Numeral.text, Numeral.signText, Numeral.tail, Numeral.pointText, Numeral.expText,
      tenthsNumeral, fmtTenths, hz]

/-- It is a numeral of the grammar. -/
theorem tenthsNumeral_wellFormed : (tenthsNumeral z).WellFormed where
  nonempty := (fmtUnsigned_spec _).1
  int := (fmtUnsigned_spec _).2.1
  leading := fmtUnsigned_leading _
  frac := fun f hf => by
    obtain rfl : fmtUnsigned (z.natAbs % 10) = f := Option.some.inj hf
    exact ⟨(fmtUnsigned_spec _).1, (fmtUnsigned_spec _).2.1⟩
  exp := fun _ h => absurd h.symm (Option.some_ne_none _)

/-- Its value is the tenths. -/
theorem tenthsNumeral_value : (tenthsNumeral z).value = z / 10 := by
  have hfrac : (tenthsNumeral z).fracDigits = fmtUnsigned (z.natAbs % 10) := rfl
  have hlen : (fmtUnsigned (z.natAbs % 10)).length = 1 := by
    rw [fmtUnsigned_of_lt (Nat.mod_lt _ (by norm_num))]
    rfl
  have hint : (tenthsNumeral z).integer = z.natAbs / 10 := (fmtUnsigned_spec _).2.2.1
  have hsplit : (z.natAbs : ℚ) = (z.natAbs / 10 : ℕ) * 10 + (z.natAbs % 10 : ℕ) := by
    exact_mod_cast (by omega : z.natAbs = z.natAbs / 10 * 10 + z.natAbs % 10)
  have hmagnitude : (tenthsNumeral z).mantissa * 10 ^ (tenthsNumeral z).power = z.natAbs / 10 := by
    rw [Numeral.mantissa_eq, hfrac, hlen, hint, (fmtUnsigned_spec _).2.2.1, hsplit]
    show _ * (10 : ℚ) ^ (0 : ℤ) = _
    rw [zpow_zero]
    ring
  unfold Numeral.value
  rw [hmagnitude]
  unfold Numeral.signed tenthsNumeral
  have hcast : (z.natAbs : ℚ) = |(z : ℚ)| := by
    rw [Nat.cast_natAbs, Int.cast_abs]
  rw [hcast]
  by_cases hz : z < 0
  · simp only [hz, decide_true, if_true]
    rw [abs_of_neg (by exact_mod_cast hz)]
    ring
  · simp only [hz, decide_false, Bool.false_eq_true, if_false]
    rw [abs_of_nonneg (by exact_mod_cast not_lt.mp hz)]

end

end SlcRtld.Libc
