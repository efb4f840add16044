import SlcRtld.Json.Numeral
import Mathlib.Data.Nat.ModEq
import Mathlib.Data.Nat.Prime.Basic
import Mathlib.Tactic.NormNum.GCD
import Mathlib.Tactic.FieldSimp

/-!
# What the conversions make of a number

The daemon copies the text of a token into a buffer, which may cut its end off, and hands the copy
to a conversion of the C library. The conversions to integers read the digits in front of the point,
and `strtod` reads as much of a number as the copy holds. On the text of a JSON number each of them
is compared here with the exact value of the number.
-/

namespace SlcRtld.Libc

open Json (Numeral Digits)

/-! ## Rounding to a `double` -/

namespace Double

/-- The power as the source has it. -/
theorem pow2_eq (e : ℤ) : pow2 e = 2 ^ e := by
  unfold pow2
  split_ifs with he
  · obtain ⟨k, rfl⟩ := Int.eq_ofNat_of_zero_le he
    simp
  · obtain ⟨k, hk⟩ := Int.eq_ofNat_of_zero_le (Int.neg_nonneg_of_nonpos (not_le.mp he).le)
    obtain rfl : e = -k := by omega
    rw [Rat.mkRat_eq_div]
    simp

/-- Rounding moves a number by a half at most. -/
theorem roundHalfEven_error {q : ℚ} (hq : 0 ≤ q) : |(roundHalfEven q : ℚ) - q| ≤ 1 / 2 := by
  have hden : (0 : ℚ) < q.den := by exact_mod_cast q.den_pos
  have hnum : (q.num.toNat : ℚ) = q * q.den := by
    have hcast : ((q.num.toNat : ℤ) : ℚ) = q.num := by rw [Int.toNat_of_nonneg (Rat.num_nonneg.mpr hq)]
    rw [Rat.mul_den_eq_num, ← hcast]
    rfl
  set a := q.num.toNat with ha
  -- the fraction is a natural number and a remainder, and only the remainder rounds
  have hsplit : (a : ℚ) = q.den * (a / q.den : ℕ) + (a % q.den : ℕ) := by
    exact_mod_cast (Nat.div_add_mod a q.den).symm
  have hlt : ((a % q.den : ℕ) : ℚ) < q.den := by exact_mod_cast Nat.mod_lt a q.den_pos
  have hq' : q = (a / q.den : ℕ) + ((a % q.den : ℕ) : ℚ) / q.den := by
    rw [eq_comm, ← mul_right_inj' hden.ne', mul_add, mul_div_cancel₀ _ hden.ne', ← hsplit, hnum]
    ring
  have hfrac : ((a % q.den : ℕ) : ℚ) / q.den < 1 := (div_lt_one hden).mpr hlt
  have hfrac0 : 0 ≤ ((a % q.den : ℕ) : ℚ) / q.den := by positivity
  unfold roundHalfEven
  simp only [← ha]
  split_ifs with hup
  -- upwards the remainder is half the denominator at least
  · have hhalf : (1 : ℚ) / 2 ≤ ((a % q.den : ℕ) : ℚ) / q.den := by
      have hle : q.den ≤ 2 * (a % q.den) := by
        rcases hup with hup | hup <;> omega
      have hle' : (q.den : ℚ) ≤ 2 * (a % q.den : ℕ) := by exact_mod_cast hle
      rw [div_le_div_iff₀ (by norm_num) hden]
      linarith
    rw [abs_le]
    push_cast
    constructor <;> linarith
  -- downwards it is half the denominator at most
  · have hhalf : ((a % q.den : ℕ) : ℚ) / q.den ≤ 1 / 2 := by
      have hle : 2 * (a % q.den) ≤ q.den := by omega
      have hle' : 2 * ((a % q.den : ℕ) : ℚ) ≤ q.den := by exact_mod_cast hle
      rw [div_le_div_iff₀ hden (by norm_num)]
      linarith
    rw [abs_le]
    constructor <;> linarith

/-- The exponent of a number is not above it. -/
theorem pow2_exponent_le {q : ℚ} (hq : 0 < q) : pow2 (exponent q) ≤ q := by
  dsimp only [exponent]
  split_ifs with hle
  · exact hle
  · have hden : (0 : ℚ) < q.den := by exact_mod_cast q.den_pos
    have hpos : 0 < q.num.toNat := by
      have := Rat.num_pos.mpr hq
      omega
    have hcast : (q.num.toNat : ℚ) = q * q.den := by
      have hnum : ((q.num.toNat : ℤ) : ℚ) = q.num := by
        rw [Int.toNat_of_nonneg (Rat.num_nonneg.mpr hq.le)]
      rw [Rat.mul_den_eq_num, ← hnum]
      rfl
    have hlow : (2 : ℚ) ^ q.num.toNat.log2 ≤ q.num.toNat := by
      exact_mod_cast Nat.log2_self_le hpos.ne'
    have hhigh : (q.den : ℚ) < 2 ^ (q.den.log2 + 1) := by
      exact_mod_cast Nat.lt_log2_self
    rw [pow2_eq]
    have hzpow : (2 : ℚ) ^ ((q.num.toNat.log2 : ℤ) - q.den.log2 - 1) =
        2 ^ q.num.toNat.log2 / 2 ^ (q.den.log2 + 1) := by
      rw [show (q.num.toNat.log2 : ℤ) - q.den.log2 - 1 = q.num.toNat.log2 - (q.den.log2 + 1 : ℕ) by
        push_cast; ring, zpow_sub₀ (by norm_num), zpow_natCast, zpow_natCast]
    rw [hzpow, div_le_iff₀ (by positivity)]
    calc (2 : ℚ) ^ q.num.toNat.log2 ≤ q * q.den := hcast ▸ hlow
      _ ≤ q * 2 ^ (q.den.log2 + 1) := by gcongr

/-- Rounding to a `double` moves a number by its `2^53`rd part at most, or by next to nothing. -/
theorem roundBits_error (q : ℚ) : |roundBits 53 (-1074) q - q| ≤ |q| / 2 ^ 53 + 1 / 2 ^ 60 := by
  by_cases hq : q = 0
  · rw [roundBits, if_pos hq, hq]
    norm_num
  have hpos : 0 < |q| := abs_pos.mpr hq
  set ulp := pow2 (max (exponent |q| - ((53 : ℕ) - 1)) (-1074)) with hulp
  have hulp_pos : 0 < ulp := by
    rw [hulp, pow2_eq]
    positivity
  -- the last bit is at most the `2^52`nd part of the number, or the last one there is
  have hulp_le : ulp ≤ |q| / 2 ^ 52 + 1 / 2 ^ 59 := by
    rw [hulp, pow2_eq]
    rcases max_choice (exponent |q| - ((53 : ℕ) - 1)) (-1074) with hmax | hmax <;> rw [hmax]
    · have hexp := pow2_exponent_le hpos
      rw [pow2_eq] at hexp
      have hsplit : (2 : ℚ) ^ (exponent |q| - ((53 : ℕ) - 1)) = 2 ^ exponent |q| / 2 ^ 52 := by
        rw [zpow_sub₀ (by norm_num)]
        norm_num
      rw [hsplit]
      have hle : (2 : ℚ) ^ exponent |q| / 2 ^ 52 ≤ |q| / 2 ^ 52 := by gcongr
      linarith
    · have htiny : (2 : ℚ) ^ (-1074 : ℤ) ≤ 2 ^ (-59 : ℤ) :=
        zpow_le_zpow_right₀ (by norm_num) (by norm_num)
      have hnonneg : (0 : ℚ) ≤ |q| / 2 ^ 52 := by positivity
      calc (2 : ℚ) ^ (-1074 : ℤ) ≤ 2 ^ (-59 : ℤ) := htiny
        _ = 1 / 2 ^ 59 := by norm_num
        _ ≤ _ := le_add_of_nonneg_left hnonneg
  have herror : abs ((roundHalfEven (|q| / ulp) : ℚ) * ulp - |q|) ≤ ulp / 2 := by
    have hround := roundHalfEven_error (q := |q| / ulp) (by positivity)
    have hscale : (roundHalfEven (|q| / ulp) : ℚ) * ulp - |q| =
        ((roundHalfEven (|q| / ulp) : ℚ) - |q| / ulp) * ulp := by
      rw [sub_mul, div_mul_cancel₀ _ hulp_pos.ne']
    rw [hscale, abs_mul, abs_of_pos hulp_pos]
    calc _ ≤ 1 / 2 * ulp := by gcongr
      _ = ulp / 2 := by ring
  have hbound : ulp / 2 ≤ |q| / 2 ^ 53 + 1 / 2 ^ 60 := by linarith
  refine le_trans ?_ hbound
  rw [roundBits, if_neg hq]
  dsimp only
  rw [← hulp]
  split_ifs with hneg
  · rw [abs_of_neg hneg] at herror ⊢
    rwa [show -((roundHalfEven (-q / ulp) : ℚ) * ulp) - q = -((roundHalfEven (-q / ulp) : ℚ) * ulp - -q)
      by ring, abs_neg]
  · rw [abs_of_nonneg (not_lt.mp hneg)] at herror ⊢
    exact herror

/-- A finite result of a rounding. -/
theorem ofRat_error {q y : ℚ} (h : ofRat q = .finite y) : |y - q| ≤ |q| / 2 ^ 53 + 1 / 2 ^ 60 := by
  dsimp only [ofRat] at h
  split_ifs at h
  rw [← Double.finite.inj h]
  exact roundBits_error q

/-- A number that is not large is not rounded to an infinity. -/
theorem ofRat_finite {q : ℚ} (hq : |q| ≤ 2 ^ 40) :
    ∃ y, ofRat q = .finite y ∧ |y - q| ≤ 1 / 2 ^ 12 := by
  have herror := roundBits_error q
  have hsmall : |q| / 2 ^ 53 + 1 / 2 ^ 60 ≤ 1 / 2 ^ 12 := by
    have : |q| / 2 ^ 53 ≤ 2 ^ 40 / 2 ^ 53 := by gcongr
    refine (add_le_add_left this _).trans ?_
    norm_num
  refine ⟨roundBits 53 (-1074) q, ?_, herror.trans hsmall⟩
  have hlt : |roundBits 53 (-1074) q| < pow2 1024 := by
    have hle : |roundBits 53 (-1074) q| ≤ 2 ^ 41 := by
      calc |roundBits 53 (-1074) q| = |roundBits 53 (-1074) q - q + q| := by rw [sub_add_cancel]
        _ ≤ _ + |q| := abs_add_le _ _
        _ ≤ 1 / 2 ^ 12 + 2 ^ 40 := add_le_add (herror.trans hsmall) hq
        _ ≤ 2 ^ 41 := by norm_num
    rw [pow2_eq]
    calc |roundBits 53 (-1074) q| ≤ 2 ^ (41 : ℤ) := hle
      _ < 2 ^ (1024 : ℤ) := zpow_lt_zpow_right₀ (by norm_num) (by norm_num)
  rw [ofRat, if_neg (not_le.mpr hlt)]

/-- `round` takes the nearest integer. -/
theorem roundToInt_eq {y : ℚ} {k : ℤ} (h : |y - k| < 1 / 2) : roundToInt (.finite y) = k := by
  rw [abs_lt] at h
  rw [roundToInt]
  split_ifs
  · rw [neg_eq_iff_eq_neg, Int.floor_eq_iff]
    push_cast
    constructor <;> linarith
  · rw [Int.floor_eq_iff]
    constructor <;> linarith

/-- The integer that `round` takes is near. -/
theorem roundToInt_error (y : ℚ) : |y - roundToInt (.finite y)| ≤ 1 / 2 := by
  rw [roundToInt, abs_le]
  split_ifs
  · have hlow := Int.floor_le (-y + 1 / 2)
    have hhigh := Int.lt_floor_add_one (-y + 1 / 2)
    push_cast
    constructor <;> linarith
  · have hlow := Int.floor_le (y + 1 / 2)
    have hhigh := Int.lt_floor_add_one (y + 1 / 2)
    constructor <;> linarith

end Double

/-! ## The sign and the integer part -/

section
variable {n : Numeral} {j k : ℕ}

/-- What follows the integer is no digit. -/
theorem tail_head (h : n.WellFormed) : ∀ c ∈ n.tail.head?, isDigit c = false := by
  unfold Numeral.tail
  cases hfrac : n.frac with
  | some f =>
    intro c hc
    rw [← Option.some.inj hc]
    decide
  | none =>
    cases hexp : n.exp with
    | none => exact fun c hc => absurd hc (Option.not_mem_none c)
    | some e =>
      intro c hc
      rw [← Option.some.inj hc]
      rcases (h.exp e hexp).mark with hmark | hmark <;> rw [hmark] <;> decide

/-- The digits at the start of what is left of a number without its sign. -/
theorem takeWhile_digits (h : n.WellFormed) (j : ℕ) :
    ((n.int ++ n.tail).take j).takeWhile isDigit = n.int.take j := by
  have hint : ∀ c ∈ n.int.take j, isDigit c = true := fun c hc => h.int c (List.mem_of_mem_take hc)
  rw [List.take_append, List.takeWhile_append_of_pos hint]
  suffices hnone : (n.tail.take (j - n.int.length)).takeWhile isDigit = [] by
    rw [hnone, List.append_nil]
  cases htail : n.tail with
  | nil => simp
  | cons c cs =>
    have hc := tail_head h c (by rw [htail]; rfl)
    cases hm : j - n.int.length with
    | zero => rfl
    | succ m => rw [List.take_succ_cons, List.takeWhile_cons, hc]; rfl

/-- The sign is read, and what follows it is left. -/
theorem takeSign_take (h : n.WellFormed) (hk : 2 ≤ k) :
    takeSign ((n.text.take k).dropWhile isSpace) =
      (n.neg, (n.int ++ n.tail).take (k - n.signText.length)) := by
  obtain ⟨m, rfl⟩ := Nat.exists_eq_add_of_le hk
  rw [Numeral.text, List.append_assoc, Nat.add_comm 2 m]
  cases hneg : n.neg with
  | true =>
    rw [Numeral.signText, hneg, if_pos rfl, List.singleton_append, List.take_succ_cons,
      List.dropWhile_cons_of_neg (by decide)]
    rfl
  | false =>
    rw [Numeral.signText, hneg]
    cases hint : n.int with
    | nil => exact absurd hint h.nonempty
    | cons c ds =>
      have hc : isDigit c = true := h.int c (by rw [hint]; exact List.mem_cons_self)
      have hspace : isSpace c = false ∧ c ≠ 0x2d ∧ c ≠ 0x2b := by
        refine ⟨?_, ?_, ?_⟩
        · exact toNat_induction (P := fun c => isDigit c = true → isSpace c = false)
            (by decide +kernel) c hc
        · rintro rfl
          exact absurd hc (by decide)
        · rintro rfl
          exact absurd hc (by decide)
      obtain ⟨hspace, hminus, hplus⟩ := hspace
      show takeSign ((c :: (ds ++ n.tail).take (m + 1)).dropWhile isSpace) =
        (false, c :: (ds ++ n.tail).take (m + 1))
      rw [List.dropWhile_cons_of_neg (by rw [hspace]; exact Bool.false_ne_true), takeSign,
        if_neg hminus, if_neg hplus]

/-- The integer of a text that has been cut. -/
theorem readInteger_take (h : n.WellFormed) (hk : 2 ≤ k) :
    readInteger (n.text.take k) = (n.neg, digitsVal (n.int.take (k - n.signText.length))) := by
  dsimp only [readInteger]
  rw [takeSign_take h hk]
  dsimp only
  rw [takeWhile_digits h]

/-- The sign takes a byte if there is one. -/
theorem signText_length (n : Numeral) : n.signText.length = if n.neg then 1 else 0 := by
  unfold Numeral.signText
  split_ifs <;> rfl

/-- An integer part whose beginning is small has not been cut. -/
theorem take_int_eq (h : n.WellFormed) (hj : 1 ≤ j) (hlt : digitsVal (n.int.take j) < 10 ^ (j - 1)) :
    n.int.take j = n.int := by
  by_contra hcut
  have hlen : j < n.int.length := by
    by_contra hle
    exact hcut (List.take_of_length_le (not_lt.mp hle))
  cases hint : n.int with
  | nil => exact absurd hint h.nonempty
  | cons c ds =>
    have hc : c ≠ 0x30 := by
      rintro rfl
      have hone := h.leading (by rw [hint]; rfl)
      rw [hone] at hlen
      exact absurd hlen (not_lt.mpr hj)
    obtain ⟨m, rfl⟩ := Nat.exists_eq_add_of_le hj
    rw [hint, Nat.add_comm 1 m] at hlt hlen
    have hds : Digits (c :: ds.take m) := by
      have hds' := Digits.take (hint ▸ h.int : Digits (c :: ds)) (m + 1)
      rwa [List.take_succ_cons] at hds'
    have hle := Json.pow_le_digitsVal hds hc
    rw [List.length_take_of_le (by simp only [List.length_cons] at hlen; omega)] at hle
    rw [List.take_succ_cons, Nat.add_sub_cancel] at hlt
    omega

/-! ## Integers -/

/-- A copy of some bytes of the text, as `set_frequency` and `open_stream` read it, when it is read
as a positive number with fewer digits. -/
theorem strtoull_exact (h : n.WellFormed) {k f : ℕ} (hk : 2 ≤ k)
    (hread : (strtoull (n.text.take k)).1 = f) (hpos : 0 < f) (hshort : f < 10 ^ (k - 1))
    (hlt : f < 2 ^ 64 - 1) : n.value = f ↔ n.neg = false ∧ n.Whole := by
  have hsign := signText_length n
  dsimp only [strtoull] at hread
  rw [readInteger_take h hk] at hread
  dsimp only at hread
  split_ifs at hread with hrange hneg
  · exact absurd hread.symm (ne_of_lt hlt)
  · refine ⟨fun hvalue => ?_, fun hplain => absurd hneg (by rw [hplain.1]; exact Bool.false_ne_true)⟩
    have hpos' : 0 < n.value := by
      rw [hvalue]
      exact_mod_cast hpos
    exact absurd hneg (by rw [Numeral.neg_eq_false hpos']; exact Bool.false_ne_true)
  · have hnone : n.neg = false := Bool.eq_false_of_not_eq_true hneg
    rw [hsign, hnone, if_neg Bool.false_ne_true, Nat.sub_zero] at hread
    dsimp only at hread
    have hf : n.integer = f := by
      rw [← hread, take_int_eq h (by omega) (hread ▸ hshort)]
      rfl
    rw [Numeral.value_of_pos hnone, ← hf]
    exact ⟨fun hvalue => ⟨hnone, hvalue⟩, fun hplain => hplain.2⟩

/-- A number below `2^32` that zeros at its end leave the same modulo `2^32` has none of them. -/
theorem eq_zero_of_mod {r j : ℕ} (hr : 0 < r) (hlt : r < 2 ^ 32) (h : r * 10 ^ j % 2 ^ 32 = r) :
    j = 0 := by
  by_contra hj
  obtain ⟨i, rfl⟩ := Nat.exists_eq_succ_of_ne_zero hj
  have hdvd : 2 ^ 32 ∣ r * (10 ^ (i + 1) - 1) := by
    rw [Nat.mul_sub, Nat.mul_one]
    exact (Nat.modEq_iff_dvd' (Nat.le_mul_of_pos_right r (by positivity))).mp
      ((Nat.mod_eq_of_lt hlt).trans h.symm)
  have hodd : Nat.Coprime (2 ^ 32) (10 ^ (i + 1) - 1) := by
    refine Nat.Coprime.pow_left 32 (Nat.coprime_two_left.mpr ?_)
    have hpos : 0 < 10 ^ i := by positivity
    rw [pow_succ, Nat.odd_iff]
    omega
  exact absurd (Nat.le_of_dvd hr (hodd.dvd_of_dvd_mul_right hdvd)) (not_le.mpr hlt)

/-- A copy of 15 bytes of the text, as `set_sample_rate` reads it. -/
theorem strtoull_rate (h : n.WellFormed) {r : ℕ}
    (hread : (strtoull (n.text.take 15)).1 % 2 ^ 32 = r) (hpos : 0 < r) :
    n.value = r ↔ n.neg = false ∧ n.Whole ∧ n.integer < 2 ^ 32 := by
  have hlt : r < 2 ^ 32 := hread ▸ Nat.mod_lt _ (by norm_num)
  have hsign := signText_length n
  -- without a sign, the remainder of the integer part or of what is left of it
  have hcut : n.neg = false → n.integer / 10 ^ (n.int.length - 15) % 2 ^ 32 = r := by
    intro hnone
    have htake := Json.digitsVal_lt (h.int.take 15)
    have hlen : 10 ^ (n.int.take 15).length ≤ 10 ^ 15 :=
      Nat.pow_le_pow_right (by norm_num) (by rw [List.length_take]; omega)
    rw [hnone, if_neg Bool.false_ne_true] at hsign
    dsimp only [strtoull] at hread
    rw [readInteger_take h (by norm_num), hsign, hnone, Nat.sub_zero] at hread
    dsimp only at hread
    rw [if_neg (by omega), if_neg Bool.false_ne_true, Json.digitsVal_take h.int] at hread
    exact hread
  constructor
  · intro hvalue
    have hpos' : 0 < n.value := by
      rw [hvalue]
      exact_mod_cast hpos
    have hnone := Numeral.neg_eq_false hpos'
    have hr := hcut hnone
    rw [Numeral.value_of_pos hnone] at hvalue
    refine ⟨hnone, ?_⟩
    rcases h.scaled hvalue with hle | ⟨k, hk, hpower⟩
    · have hdiv := Nat.div_le_self n.integer (10 ^ (n.int.length - 15))
      rw [Nat.mod_eq_of_lt (by omega)] at hr
      omega
    · by_cases hlong : n.int.length ≤ 15
      · rw [Nat.sub_eq_zero_of_le hlong, pow_zero, Nat.div_one, hk] at hr
        obtain rfl := eq_zero_of_mod hpos hlt hr
        rw [pow_zero, Nat.mul_one] at hk
        exact ⟨by rw [Numeral.Whole, hvalue, hk], by omega⟩
      · -- a text that is cut begins with 15 digits, more than the rate has
        obtain ⟨m, hm⟩ := Nat.exists_eq_add_of_lt (not_le.mp hlong)
        have hlow := h.pow_le_integer (by omega)
        rw [hm, show 15 + m + 1 - 1 = m + 1 + 14 by omega] at hlow
        have hkm : m + 1 ≤ k := by
          by_contra hkm
          have hle : r * 10 ^ k ≤ r * 10 ^ m :=
            Nat.mul_le_mul_left r (Nat.pow_le_pow_right (by norm_num) (by omega))
          have hpow : 10 ^ (m + 1 + 14) = 10 ^ m * 10 ^ 15 := by ring
          have hbig : r * 10 ^ m < 10 ^ 15 * 10 ^ m :=
            Nat.mul_lt_mul_of_pos_right (by omega) (by positivity)
          rw [hk, hpow] at hlow
          linarith
        obtain ⟨j, rfl⟩ := Nat.exists_eq_add_of_le hkm
        have hquot : n.integer / 10 ^ (n.int.length - 15) = r * 10 ^ j := by
          rw [hm, show 15 + m + 1 - 15 = m + 1 by omega, hk, pow_add, Nat.mul_left_comm]
          exact Nat.mul_div_cancel_left _ (by positivity)
        rw [hquot] at hr
        obtain rfl := eq_zero_of_mod hpos hlt hr
        rw [hk, Nat.add_zero, pow_add _ _ 14, Nat.mul_comm] at hlow
        have hsmall : 10 ^ 14 ≤ r := Nat.le_of_mul_le_mul_right hlow (by positivity)
        omega
  · rintro ⟨hnone, hwhole, hint⟩
    have hr := hcut hnone
    have hlong : n.int.length ≤ 15 := by
      by_contra hlong
      have hlow := h.pow_le_integer (by omega)
      have hpow : 10 ^ 15 ≤ 10 ^ (n.int.length - 1) := Nat.pow_le_pow_right (by norm_num) (by omega)
      omega
    rw [Nat.sub_eq_zero_of_le hlong, pow_zero, Nat.div_one, Nat.mod_eq_of_lt hint] at hr
    rw [Numeral.value_of_pos hnone, ← hr]
    exact hwhole

/-- A copy of 63 bytes of the text, as the branch for `ppm_correction` reads it. -/
theorem strtol_ppm (h : n.WellFormed) {p : ℤ} (hread : toInt32 (strtol (n.text.take 63)) = p)
    (hlow : -100 ≤ p) (hhigh : p ≤ 100) : n.value = p ↔ n.Whole ∧ n.integer < 2 ^ 31 := by
  have hsign := signText_length n
  set j := 63 - n.signText.length with hj
  have hj62 : 62 ≤ j := by
    split_ifs at hsign <;> omega
  set c := digitsVal (n.int.take j) with hc
  have hcI : c ≤ n.integer := by
    rw [hc, Json.digitsVal_take h.int]
    exact Nat.div_le_self ..
  have huncut : c < 2 ^ 63 → c = n.integer := by
    intro hlt
    have hpow : 10 ^ 61 ≤ 10 ^ (j - 1) := Nat.pow_le_pow_right (by norm_num) (by omega)
    rw [hc, take_int_eq h (by omega) (by omega)]
    rfl
  have hlong : toInt32 (max (-2 ^ 63) (min (if n.neg then -(c : ℤ) else c) (2 ^ 63 - 1))) = p := by
    dsimp only [strtol] at hread
    rwa [readInteger_take h (by norm_num)] at hread
  unfold toInt32 at hlong
  have hmantissa : 0 ≤ n.mantissa * 10 ^ n.power := by
    have := n.mantissa_nonneg
    positivity
  constructor
  · intro hvalue
    -- the magnitude is that of `p`, and `p` has the sign of the number
    have hmag : n.mantissa * 10 ^ n.power = p.natAbs ∧ (if n.neg then p ≤ 0 else 0 ≤ p) := by
      rw [Numeral.value, Numeral.signed] at hvalue
      rw [Nat.cast_natAbs, Int.cast_abs]
      split_ifs at hvalue ⊢
      · have hp : (p : ℚ) ≤ 0 := by linarith
        exact ⟨by rw [abs_of_nonpos hp]; linarith, by exact_mod_cast hp⟩
      · have hp : (0 : ℚ) ≤ p := by linarith
        exact ⟨by rw [abs_of_nonneg hp]; exact hvalue, by exact_mod_cast hp⟩
    obtain ⟨hmag, hpsign⟩ := hmag
    suffices heq : n.integer = p.natAbs by
      exact ⟨by rw [Numeral.Whole, hmag, heq], by omega⟩
    by_cases hsat : 2 ^ 63 ≤ c
    · -- a magnitude that does not fit is taken for -1 or 0
      rcases h.scaled hmag with hle | ⟨k, hk, -⟩
      · split_ifs at hlong hpsign <;> omega
      · have hzero : p.natAbs = 0 := by split_ifs at hlong hpsign <;> omega
        rw [hzero, Nat.zero_mul] at hk
        omega
    · have hc' := huncut (not_le.mp hsat)
      rw [hc'] at hlong hsat
      rcases h.scaled hmag with hle | ⟨k, hk, -⟩
      · split_ifs at hlong hpsign <;> omega
      · by_cases hzero : p.natAbs = 0
        · rw [hzero, Nat.zero_mul] at hk
          omega
        · have hmod : n.integer % 2 ^ 32 = p.natAbs := by split_ifs at hlong hpsign <;> omega
          rw [hk] at hmod
          obtain rfl := eq_zero_of_mod (by omega) (by omega) hmod
          rw [hk, pow_zero, Nat.mul_one]
  · rintro ⟨hwhole, hint⟩
    rw [huncut (by omega)] at hlong
    rw [Numeral.value, Numeral.signed, hwhole]
    split_ifs at hlong ⊢
    · have hp : p = -n.integer := by omega
      rw [hp]
      push_cast
      rfl
    · have hp : p = n.integer := by omega
      rw [hp]
      rfl

/-! ## Floating point numbers -/

/-- The exact number at the start of a text, which `strtod` rounds. -/
def decimalValue (s : CStr) : ℚ :=
  let (neg, cs) := takeSign (s.dropWhile isSpace)
  if neg then -readMagnitude cs else readMagnitude cs

/-- The power as the source has it. -/
theorem ratPow_eq (e : ℤ) : ratPow 10 e = 10 ^ e := by
  unfold ratPow
  split_ifs with he
  · obtain ⟨k, rfl⟩ := Int.eq_ofNat_of_zero_le he
    simp
  · obtain ⟨k, hk⟩ := Int.eq_ofNat_of_zero_le (Int.neg_nonneg_of_nonpos (not_le.mp he).le)
    obtain rfl : e = -k := by omega
    rw [Rat.mkRat_eq_div]
    simp

/-- The decimal digits as `strtod` takes them. -/
def decDigit (c : UInt8) : Option ℕ := if isDigit c then hexDigit c else none

/-- A decimal digit. -/
theorem decDigit_of_digit {c : UInt8} (h : isDigit c = true) : decDigit c = some (c.toNat - 0x30) := by
  rw [decDigit, if_pos h, hexDigit]
  exact if_pos h

/-- Digits are read one after the other, and counted once the point has been seen. The induction is
on the digits. -/
theorem readDigits_digits {ds : CStr} (hds : Digits ds) (rest : CStr) (point : Bool) (v frac cnt : ℕ) :
    readDigits 10 decDigit (ds ++ rest) point v frac cnt =
      readDigits 10 decDigit rest point (v * 10 ^ ds.length + digitsVal ds)
        (if point then frac + ds.length else frac) (cnt + ds.length) := by
  induction ds generalizing v frac cnt with
  | nil => simp [digitsVal]
  | cons c ds ih =>
    obtain ⟨hc, hds'⟩ := hds.of_cons
    rw [List.cons_append, readDigits, decDigit_of_digit hc]
    dsimp only
    rw [ih hds']
    have hval : digitsVal (c :: ds) = (c.toNat - 0x30) * 10 ^ ds.length + digitsVal ds := by
      rw [← List.singleton_append, Json.digitsVal_append]
      simp [digitsVal]
    congr 1
    · rw [hval, List.length_cons]
      ring
    · rw [List.length_cons]
      split_ifs <;> omega
    · rw [List.length_cons]
      omega

/-- The letter of an exponent ends the digits. -/
theorem readDigits_exp (h : n.WellFormed) (x : ℕ) (point : Bool) (v frac cnt : ℕ) :
    readDigits 10 decDigit ((Numeral.expText n.exp).take x) point v frac cnt =
      (v, frac, cnt, (Numeral.expText n.exp).take x) := by
  cases hexp : n.exp with
  | none =>
    rw [Numeral.expText, List.take_nil]
    rfl
  | some e =>
    cases x with
    | zero => rfl
    | succ x =>
      rw [Numeral.expText, Json.Exponent.text, List.cons_append, List.take_succ_cons, readDigits]
      rcases (h.exp e hexp).mark with hmark | hmark
      · rw [hmark]
        rfl
      · rw [hmark]
        rfl

/-- The exponent is read as it is, if it is not cut. -/
theorem readExponent_full (h : n.WellFormed) : readExponent 0x65 (Numeral.expText n.exp) = n.power := by
  unfold Numeral.power
  cases hexp : n.exp with
  | none => rfl
  | some e =>
    obtain ⟨hmark, hsign, hne, hds⟩ := h.exp e hexp
    have hlower : toLower e.mark = 0x65 := by
      rcases hmark with hmark | hmark <;> rw [hmark] <;> rfl
    have hall : e.digits.takeWhile isDigit = e.digits := List.takeWhile_eq_self_iff.mpr hds
    rw [Numeral.expText, Json.Exponent.text, List.cons_append, readExponent, if_pos hlower]
    show (let (neg, ds) := takeSign (e.sign ++ e.digits)
      let x : ℤ := digitsVal (ds.takeWhile isDigit)
      if neg then -x else x) = e.power
    unfold Json.Exponent.power
    -- without a sign the first digit is no sign, and with one it has been taken off
    rcases hsign with hsign | hsign | hsign <;> rw [hsign]
    · cases hcs : e.digits with
      | nil => exact absurd hcs hne
      | cons c cs =>
        have hc : isDigit c = true := hds c (by rw [hcs]; exact List.mem_cons_self)
        have hminus : c ≠ 0x2d := by
          rintro rfl
          exact absurd hc (by decide)
        have hplus : c ≠ 0x2b := by
          rintro rfl
          exact absurd hc (by decide)
        rw [List.nil_append, takeSign, if_neg hminus, if_neg hplus]
        dsimp only
        rw [← hcs, hall]
        rfl
    · show (digitsVal (e.digits.takeWhile isDigit) : ℤ) = _
      rw [hall]
      rfl
    · show -(digitsVal (e.digits.takeWhile isDigit) : ℤ) = _
      rw [hall]
      rfl

/-- A JSON number is not taken for a hexadecimal one. -/
theorem readMagnitude_decimal (h : n.WellFormed) (j : ℕ) :
    readMagnitude ((n.int ++ n.tail).take j) =
      let (v, frac, cnt, rest) := readDigits 10 decDigit ((n.int ++ n.tail).take j) false 0 0 0
      if cnt = 0 then 0 else v * ratPow 10 (readExponent 0x65 rest - frac) := by
  unfold readMagnitude
  split
  · rename_i x cs hs
    -- a zero at the start is the whole integer part, and what follows it is no digit
    have hx : toLower x ≠ 0x78 := by
      cases hint : n.int with
      | nil => exact absurd hint h.nonempty
      | cons c ds =>
        rw [hint] at hs
        cases j with
        | zero => cases hs
        | succ j =>
          rw [List.cons_append, List.take_succ_cons] at hs
          obtain ⟨rfl, hs'⟩ := List.cons.inj hs
          have hone := h.leading (by rw [hint]; rfl)
          rw [hint] at hone
          rw [(List.cons.inj hone).2, List.nil_append] at hs'
          have hhead : n.tail.head? = some x := by
            cases htail : n.tail with
            | nil =>
              rw [htail, List.take_nil] at hs'
              cases hs'
            | cons c' cs' =>
              rw [htail] at hs'
              cases j with
              | zero => cases hs'
              | succ j => exact congrArg some (List.cons.inj hs').1
          unfold Numeral.tail at hhead
          cases hfrac : n.frac with
          | some f =>
            rw [hfrac] at hhead
            rw [← Option.some.inj hhead]
            decide
          | none =>
            rw [hfrac] at hhead
            cases hexp : n.exp with
            | none =>
              rw [hexp] at hhead
              cases hhead
            | some e =>
              rw [hexp] at hhead
              rw [← Option.some.inj hhead]
              rcases (h.exp e hexp).mark with hmark | hmark <;> rw [hmark] <;> decide
    rw [if_neg hx]
    rfl
  · rfl

/-- What `strtod` reads of a number without its sign that has been cut after `j` bytes: the digits
that are left, and the exponent that is left of it if all digits are. -/
theorem readMagnitude_take (h : n.WellFormed) (hj : 1 ≤ j) :
    ∃ e : ℤ, readMagnitude ((n.int ++ n.tail).take j) =
        (digitsVal (n.int.take j ++ n.fracDigits.take (j - n.int.length - 1)) : ℚ) /
          10 ^ (n.fracDigits.take (j - n.int.length - 1)).length * 10 ^ e ∧
      (e = 0 ∨ n.int.take j = n.int ∧ n.fracDigits.take (j - n.int.length - 1) = n.fracDigits) ∧
      ((n.int ++ n.tail).length ≤ j → e = n.power) := by
  have hint := h.int.take j
  have hcount : (n.int.take j).length ≠ 0 := by
    have hne := List.length_pos_of_ne_nil h.nonempty
    rw [List.length_take]
    omega
  -- the digits in front of the point and behind it have been read, and some of the exponent is left
  have hread : ∀ (fs : CStr) (x : ℕ) (point : Bool),
      (let (v, frac, cnt, rest) := readDigits 10 decDigit ((Numeral.expText n.exp).take x) point
          (digitsVal (n.int.take j) * 10 ^ fs.length + digitsVal fs) fs.length
          ((n.int.take j).length + fs.length)
        if cnt = 0 then (0 : ℚ) else v * ratPow 10 (readExponent 0x65 rest - frac)) =
      (digitsVal (n.int.take j ++ fs) : ℚ) / 10 ^ fs.length *
        10 ^ readExponent 0x65 ((Numeral.expText n.exp).take x) := by
    intro fs x point
    rw [readDigits_exp h]
    dsimp only
    rw [if_neg (by omega), ratPow_eq, ← Json.digitsVal_append, zpow_sub₀ (by norm_num), zpow_natCast]
    ring
  rw [readMagnitude_decimal h, List.take_append, readDigits_digits hint]
  simp only [Nat.zero_mul, Nat.zero_add, Bool.false_eq_true, if_false]
  rw [List.length_append]
  cases hm : j - n.int.length with
  | zero =>
    have hnone := hread [] 0 false
    refine ⟨0, by simpa [digitsVal, readExponent] using hnone, .inl rfl, fun hfull => ?_⟩
    have htail : n.tail = [] := List.eq_nil_of_length_eq_zero (by omega)
    have hexp : Numeral.expText n.exp = [] := (List.append_eq_nil_iff.mp htail).2
    rw [← readExponent_full h, hexp]
    rfl
  | succ m =>
    have hall : n.int.take j = n.int := List.take_of_length_le (by omega)
    unfold Numeral.tail Numeral.fracDigits
    cases hfrac : n.frac with
    | none =>
      refine ⟨readExponent 0x65 ((Numeral.expText n.exp).take (m + 1)), ?_, .inr ⟨hall, List.take_nil⟩,
        fun hfull => ?_⟩
      · simpa [digitsVal, Numeral.pointText] using hread [] (m + 1) false
      · rw [Numeral.pointText, List.nil_append] at hfull
        rw [List.take_of_length_le (by omega)]
        exact readExponent_full h
    | some f =>
      have hf := (h.frac f hfrac).2
      refine ⟨readExponent 0x65 ((Numeral.expText n.exp).take (m - f.length)), ?_, ?_, fun hfull => ?_⟩
      · rw [Numeral.pointText, List.cons_append, List.take_succ_cons, readDigits, List.take_append]
        show (let (v, frac, cnt, rest) := readDigits 10 decDigit (f.take m ++
            (Numeral.expText n.exp).take (m - f.length)) true _ 0 _
          if cnt = 0 then (0 : ℚ) else v * ratPow 10 (readExponent 0x65 rest - frac)) = _
        rw [readDigits_digits (hf.take m)]
        simpa using hread (f.take m) (m - f.length) true
      · rcases Nat.le_total m f.length with hle | hle
        · left
          rw [Nat.sub_eq_zero_of_le hle]
          rfl
        · exact .inr ⟨hall, List.take_of_length_le hle⟩
      · rw [Numeral.pointText, List.cons_append, List.length_cons, List.length_append] at hfull
        rw [List.take_of_length_le (by omega)]
        exact readExponent_full h

/-- The value of a text that has been cut. -/
theorem decimalValue_take (h : n.WellFormed) (hk : 2 ≤ k) : decimalValue (n.text.take k) =
    n.signed (readMagnitude ((n.int ++ n.tail).take (k - n.signText.length))) := by
  dsimp only [decimalValue]
  rw [takeSign_take h hk]
  rfl

/-- `strtod` rounds the value of a text that has been cut. -/
theorem strtod_take (h : n.WellFormed) (hk : 2 ≤ k) :
    strtod (n.text.take k) = Double.ofRat (decimalValue (n.text.take k)) := by
  have hsign := signText_length n
  dsimp only [strtod, decimalValue]
  rw [takeSign_take h hk]
  dsimp only
  cases hint : n.int with
  | nil => exact absurd hint h.nonempty
  | cons c ds =>
    obtain ⟨m, hm⟩ : ∃ m, k - n.signText.length = m + 1 :=
      Nat.exists_eq_succ_of_ne_zero (by split_ifs at hsign <;> omega)
    have hc : isDigit c = true := h.int c (by rw [hint]; exact List.mem_cons_self)
    have hletter : toLower c ≠ 0x69 ∧ toLower c ≠ 0x6e :=
      toNat_induction (P := fun c => isDigit c = true → toLower c ≠ 0x69 ∧ toLower c ≠ 0x6e)
        (by decide +kernel) c hc
    rw [hm, List.cons_append, List.take_succ_cons, List.take_succ_cons, List.map_cons, if_neg, if_neg]
    · exact fun heq => hletter.2 (List.cons.inj heq).1
    · exact fun heq => hletter.1 (List.cons.inj heq).1

/-- The whole text is read as the number that it is. -/
theorem decimalValue_text (h : n.WellFormed) : decimalValue n.text = n.value := by
  have hall : n.text.take (n.text.length + 2) = n.text := List.take_of_length_le (by omega)
  have hlen : n.text.length = n.signText.length + (n.int ++ n.tail).length := by
    rw [Numeral.text, List.append_assoc, List.length_append]
  have hpos := List.length_pos_of_ne_nil h.nonempty
  obtain ⟨e, hread, -, hfull⟩ := readMagnitude_take h
    (j := n.text.length + 2 - n.signText.length) (by omega)
  have hint : n.int.take (n.text.length + 2 - n.signText.length) = n.int :=
    List.take_of_length_le (by rw [List.length_append] at hlen; omega)
  have hfrac : n.fracDigits.length ≤ n.text.length + 2 - n.signText.length - n.int.length - 1 := by
    have htail : n.fracDigits.length ≤ n.tail.length := by
      unfold Numeral.tail Numeral.fracDigits
      cases n.frac with
      | none => exact Nat.zero_le _
      | some f =>
        rw [List.length_append]
        exact Nat.le_add_right_of_le (Nat.le_succ _)
    rw [List.length_append] at hlen
    omega
  rw [hint, List.take_of_length_le hfrac, hfull (by omega)] at hread
  rw [← hall, decimalValue_take h (by omega), hread]
  rfl

/-- The sign does not change a distance. -/
theorem abs_signed_sub (n : Numeral) (a b : ℚ) : |n.signed a - n.signed b| = |a - b| := by
  unfold Numeral.signed
  split_ifs
  · rw [neg_sub_neg, abs_sub_comm]
  · rfl

/-- The digits that are left when the end of the fraction is cut off. -/
def kept (n : Numeral) (x : ℕ) : ℕ := digitsVal (n.int ++ n.fracDigits.take x)

/-- The digits that are left after a cut, as a quotient. -/
theorem kept_eq (h : n.WellFormed) (x : ℕ) :
    kept n x = digitsVal (n.int ++ n.fracDigits) / 10 ^ (n.fracDigits.length - x) := by
  have hsplit : n.int ++ n.fracDigits.take x = (n.int ++ n.fracDigits).take (n.int.length + x) := by
    rw [List.take_append, Nat.add_sub_cancel_left, List.take_of_length_le (Nat.le_add_right ..)]
  rw [kept, hsplit, Json.digitsVal_take (h.int.append h.fracDigits), List.length_append,
    Nat.add_sub_add_left]

/-- Cutting digits off the fraction loses less than one unit of the last digit kept. -/
theorem kept_bounds (h : n.WellFormed) {x : ℕ} (hx : x ≤ n.fracDigits.length) :
    (kept n x : ℚ) / 10 ^ x ≤ n.mantissa ∧ n.mantissa < (kept n x + 1 : ℚ) / 10 ^ x := by
  obtain ⟨y, hy⟩ := Nat.exists_eq_add_of_le hx
  have hkept := kept_eq h x
  have hdiff : n.fracDigits.length - x = y := by omega
  rw [hdiff] at hkept
  have hpow : 0 < 10 ^ y := by positivity
  have hlow : kept n x * 10 ^ y ≤ digitsVal (n.int ++ n.fracDigits) := by
    rw [hkept]
    exact Nat.div_mul_le_self ..
  have hhigh : digitsVal (n.int ++ n.fracDigits) < (kept n x + 1) * 10 ^ y := by
    rw [hkept]
    exact Nat.lt_mul_of_div_lt (Nat.lt_succ_self _) hpow
  have hlow' : (kept n x : ℚ) * 10 ^ y ≤ digitsVal (n.int ++ n.fracDigits) := by exact_mod_cast hlow
  have hhigh' : (digitsVal (n.int ++ n.fracDigits) : ℚ) < (kept n x + 1) * 10 ^ y := by
    exact_mod_cast hhigh
  rw [Numeral.mantissa, hy, pow_add, div_le_div_iff₀ (by positivity) (by positivity),
    div_lt_div_iff₀ (by positivity) (by positivity)]
  have hx10 : (0 : ℚ) < 10 ^ x := by positivity
  constructor
  · calc (kept n x : ℚ) * (10 ^ x * 10 ^ y) = kept n x * 10 ^ y * 10 ^ x := by ring
      _ ≤ _ := mul_le_mul_of_nonneg_right hlow' hx10.le
  · calc (digitsVal (n.int ++ n.fracDigits) : ℚ) * 10 ^ x < (kept n x + 1) * 10 ^ y * 10 ^ x :=
          mul_lt_mul_of_pos_right hhigh' hx10
      _ = _ := by ring

/-- A number of tenths needs no digit after the first one of the fraction. -/
theorem kept_tenths (h : n.WellFormed) {x N : ℕ} (hx : x ≤ n.fracDigits.length) (hone : 1 ≤ x)
    (hN : n.mantissa = N / 10) : (kept n x : ℚ) / 10 ^ x = n.mantissa := by
  obtain ⟨y, hy⟩ := Nat.exists_eq_add_of_le hx
  obtain ⟨z, rfl⟩ := Nat.exists_eq_add_of_le hone
  have hall : digitsVal (n.int ++ n.fracDigits) = N * 10 ^ z * 10 ^ y := by
    rw [Numeral.mantissa, hy, div_eq_div_iff (by positivity) (by norm_num)] at hN
    have hN' : digitsVal (n.int ++ n.fracDigits) * 10 = N * 10 ^ (1 + z + y) := by exact_mod_cast hN
    have hten : N * 10 ^ (1 + z + y) = N * 10 ^ z * 10 ^ y * 10 := by ring
    omega
  have hkept := kept_eq h (1 + z)
  have hdiff : n.fracDigits.length - (1 + z) = y := by omega
  rw [hdiff, hall, Nat.mul_div_cancel _ (by positivity)] at hkept
  rw [hN, hkept]
  push_cast
  field_simp
  ring

/-- A different power of ten is far from a number of at least one tenth. -/
theorem power_eq_of_near {a : ℚ} {e p : ℤ} (ha : 0 ≤ a) (hlow : 1 / 10 ≤ a * 10 ^ p)
    (hnear : |a * 10 ^ e - a * 10 ^ p| < 2 / 25) : e = p := by
  rw [abs_lt] at hnear
  rcases lt_trichotomy e p with hlt | heq | hgt
  · have hle : a * 10 ^ e ≤ a * 10 ^ p / 10 := by
      have hpow : (10 : ℚ) ^ e ≤ 10 ^ (p - 1) := zpow_le_zpow_right₀ (by norm_num) (by omega)
      rw [zpow_sub_one₀ (by norm_num)] at hpow
      calc a * 10 ^ e ≤ a * (10 ^ p * 10⁻¹) := mul_le_mul_of_nonneg_left hpow ha
        _ = a * 10 ^ p / 10 := by ring
    linarith
  · exact heq
  · have hle : a * 10 ^ p * 10 ≤ a * 10 ^ e := by
      have hpow : (10 : ℚ) ^ (p + 1) ≤ 10 ^ e := zpow_le_zpow_right₀ (by norm_num) (by omega)
      rw [zpow_add_one₀ (by norm_num)] at hpow
      calc a * 10 ^ p * 10 = a * (10 ^ p * 10) := by ring
        _ ≤ a * 10 ^ e := mul_le_mul_of_nonneg_left hpow ha
    linarith

/-- More digits of a fraction make it no smaller. -/
theorem digitsVal_le (ds es : CStr) :
    (digitsVal ds : ℚ) ≤ digitsVal (ds ++ es) / 10 ^ es.length := by
  rw [le_div_iff₀ (by positivity), Json.digitsVal_append]
  push_cast
  have hnonneg : (0 : ℚ) ≤ digitsVal es := Nat.cast_nonneg _
  linarith

/-- Where the copy leaves out part of a number of tenths but not the number near it, it leaves out
only zeros. -/
theorem readMagnitude_tenths (h : n.WellFormed) (hj : 62 ≤ j) {N : ℕ}
    (hN : n.mantissa * 10 ^ n.power = N / 10) (hmax : (N : ℚ) / 10 < 10 ^ 10)
    (hnear : |readMagnitude ((n.int ++ n.tail).take j) - N / 10| < 3 / 50) :
    readMagnitude ((n.int ++ n.tail).take j) = N / 10 := by
  obtain ⟨e, hread, hcut, -⟩ := readMagnitude_take h (j := j) (by omega)
  rw [hread] at hnear ⊢
  have hclose := abs_lt.mp hnear
  -- without an exponent, what is read of the integer part is not large
  have hsmall : e = 0 → (digitsVal (n.int.take j) : ℚ) < 10 ^ 11 := by
    rintro rfl
    have hle := digitsVal_le (n.int.take j) (n.fracDigits.take (j - n.int.length - 1))
    rw [zpow_zero, mul_one] at hclose
    linarith
  have hint : n.int.take j = n.int := by
    rcases hcut with he | hkeeps
    · refine take_int_eq h (by omega) (lt_of_lt_of_le (b := 10 ^ 11) ?_ ?_)
      · exact_mod_cast hsmall he
      · exact Nat.pow_le_pow_right (by norm_num) (by omega)
    · exact hkeeps.1
  rw [hint] at hnear hsmall ⊢
  -- nothing is left of zero
  rcases Nat.eq_zero_or_pos N with rfl | hpos
  · rw [Nat.cast_zero, zero_div] at hN ⊢
    have hzero : digitsVal (n.int ++ n.fracDigits) = 0 := by
      have hmantissa := (mul_eq_zero.mp hN).resolve_right (by positivity)
      rw [Numeral.mantissa, div_eq_zero_iff, Nat.cast_eq_zero] at hmantissa
      exact hmantissa.resolve_right (by positivity)
    have hkept := kept_eq h (j - n.int.length - 1)
    rw [hzero, Nat.zero_div, kept] at hkept
    rw [hkept, Nat.cast_zero, zero_div, zero_mul]
  have htenth : (1 : ℚ) / 10 ≤ n.mantissa * 10 ^ n.power := by
    rw [hN, div_le_div_iff_of_pos_right (by norm_num)]
    exact_mod_cast hpos
  by_cases hall : n.fracDigits.take (j - n.int.length - 1) = n.fracDigits
  · rw [hall] at hnear ⊢
    have hsame : e = n.power := by
      refine power_eq_of_near n.mantissa_nonneg htenth (lt_trans ?_ (by norm_num : (3 : ℚ) / 50 < 2 / 25))
      rw [hN]
      exact hnear
    rw [hsame, ← hN]
    rfl
  · have he : e = 0 := hcut.resolve_right fun hkeeps => hall hkeeps.2
    have hlen : j - n.int.length - 1 < n.fracDigits.length := by
      by_contra hle
      exact hall (List.take_of_length_le (not_lt.mp hle))
    -- the integer part is short, so that many digits of the fraction are there
    have hshort : n.int.length ≤ 12 := by
      by_contra hlong
      have hpow := h.pow_le_integer (by omega)
      have hlt : n.integer < 10 ^ 11 := by exact_mod_cast hsmall he
      have hle : 10 ^ 11 ≤ 10 ^ (n.int.length - 1) := Nat.pow_le_pow_right (by norm_num) (by omega)
      omega
    obtain ⟨hlow, hhigh⟩ := kept_bounds h hlen.le
    have hunit : (1 : ℚ) / 10 ^ (j - n.int.length - 1) ≤ 1 / 10 ^ 3 :=
      one_div_pow_le_one_div_pow_of_le (by norm_num) (by omega)
    rw [add_div] at hhigh
    rw [he, zpow_zero, mul_one, List.length_take_of_le hlen.le] at hnear ⊢
    have hread' := abs_lt.mp hnear
    have hpower : 0 = n.power := by
      refine power_eq_of_near n.mantissa_nonneg htenth ?_
      rw [hN, zpow_zero, mul_one, abs_lt]
      unfold kept at hlow hhigh
      constructor <;> linarith
    rw [← hpower, zpow_zero, mul_one] at hN
    rw [← hN]
    exact kept_tenths h hlen.le (by omega) hN

end

end SlcRtld.Libc
