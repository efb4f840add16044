import SlcRtld.Json.Rfc8259
import SlcRtld.Libc.Text
import Mathlib.Algebra.Order.Field.Rat
import Mathlib.Algebra.Order.Field.Power
import Mathlib.Tactic.Positivity
import Mathlib.Tactic.Ring
import Mathlib.Tactic.Linarith

/-!
# Numbers of JSON texts

The production `number` of RFC 8259 in its parts: a sign, the digits of the integer part, and
optionally digits after a point and an exponent. The automaton of `Json.Rfc8259` accepts exactly the
texts of well-formed numerals (`isNumber_iff`), and a numeral has an exact value.

The digits of the integer part begin with a zero only when there is no other, so that their number
bounds their value from below (`Numeral.pow_le_integer`).
-/

namespace SlcRtld.Json

open Libc (digitsVal ratPow)

/-! ## Runs of digits -/

section
variable {ds es : Bytes}

/-- Every byte is a digit. -/
def Digits (ds : Bytes) : Prop := ∀ c ∈ ds, isDigit c = true

/-- The number of two runs of digits. -/
theorem digitsVal_append (ds es : Bytes) :
    digitsVal (ds ++ es) = digitsVal ds * 10 ^ es.length + digitsVal es := by
  have hfrom : ∀ (es : Bytes) (v : ℕ), es.foldl (fun v c => v * 10 + (c.toNat - 0x30)) v =
      v * 10 ^ es.length + digitsVal es := by
    intro es
    induction es with
    | nil => simp [digitsVal]
    | cons c es ih =>
      intro v
      rw [digitsVal, List.foldl_cons, List.foldl_cons, ih, ih (0 * 10 + _), List.length_cons, pow_succ]
      ring
  rw [digitsVal, List.foldl_append, hfrom]
  rfl

/-- The value of a digit. -/
theorem digit_lt {c : UInt8} (h : isDigit c = true) : c.toNat - 0x30 < 10 := by
  simp only [isDigit, Bool.and_eq_true, decide_eq_true_eq, UInt8.le_iff_toNat_le] at h
  have hle : c.toNat ≤ 0x39 := h.2
  omega

/-- The first digit, and the rest. -/
theorem Digits.of_cons {c : UInt8} (h : Digits (c :: ds)) : isDigit c = true ∧ Digits ds :=
  List.forall_mem_cons.mp h

/-- One run after the other. -/
theorem Digits.append (h : Digits ds) (h' : Digits es) : Digits (ds ++ es) :=
  List.forall_mem_append.mpr ⟨h, h'⟩

/-- The beginning of a run. -/
theorem Digits.take (h : Digits ds) (k : ℕ) : Digits (ds.take k) :=
  fun c hc => h c (List.mem_of_mem_take hc)

/-- The end of a run. -/
theorem Digits.drop (h : Digits ds) (k : ℕ) : Digits (ds.drop k) :=
  fun c hc => h c (List.mem_of_mem_drop hc)

/-- A run of digits is a number below the next power of ten. -/
theorem digitsVal_lt (h : Digits ds) : digitsVal ds < 10 ^ ds.length := by
  induction ds with
  | nil => exact Nat.one_pos
  | cons c ds ih =>
    obtain ⟨hc, hds⟩ := h.of_cons
    have hrest := ih hds
    have hdigit := digit_lt hc
    rw [← List.singleton_append, digitsVal_append, List.length_append, pow_add]
    have hone : digitsVal [c] = c.toNat - 0x30 := by simp [digitsVal]
    have hmul : digitsVal [c] * 10 ^ ds.length ≤ 9 * 10 ^ ds.length :=
      Nat.mul_le_mul_right _ (by omega)
    simp only [List.length_singleton, pow_one]
    omega

/-- What is left of a run of digits when the end is cut off. -/
theorem digitsVal_take (h : Digits ds) (k : ℕ) :
    digitsVal (ds.take k) = digitsVal ds / 10 ^ (ds.length - k) := by
  have hlt := digitsVal_lt (h.drop k)
  rw [List.length_drop] at hlt
  have hsplit := digitsVal_append (ds.take k) (ds.drop k)
  rw [List.take_append_drop, List.length_drop, Nat.mul_comm] at hsplit
  rw [hsplit, Nat.mul_add_div (by positivity), Nat.div_eq_of_lt hlt, Nat.add_zero]

/-- A run of digits that does not begin with a zero. -/
theorem pow_le_digitsVal {c : UInt8} (h : Digits (c :: ds)) (hc : c ≠ 0x30) :
    10 ^ ds.length ≤ digitsVal (c :: ds) := by
  obtain ⟨hdigit, -⟩ := h.of_cons
  have hpos : 1 ≤ digitsVal [c] := by
    have hne : c.toNat ≠ 0x30 := fun heq => hc (UInt8.toNat_inj.mp heq)
    simp only [isDigit, Bool.and_eq_true, decide_eq_true_eq, UInt8.le_iff_toNat_le] at hdigit
    have hle : 0x30 ≤ c.toNat := hdigit.1
    simp only [digitsVal, List.foldl_cons, List.foldl_nil]
    omega
  rw [← List.singleton_append, digitsVal_append]
  calc 10 ^ ds.length = 1 * 10 ^ ds.length := (Nat.one_mul _).symm
    _ ≤ digitsVal [c] * 10 ^ ds.length := Nat.mul_le_mul_right _ hpos
    _ ≤ _ := Nat.le_add_right ..

end

/-! ## Numerals -/

/-- The production `exp`: the letter, the sign and the digits. -/
structure Exponent where
  mark : UInt8
  sign : Bytes
  digits : Bytes

namespace Exponent

/-- The text of an exponent. -/
def text (e : Exponent) : Bytes := e.mark :: e.sign ++ e.digits

/-- The exponent keeps to the grammar. -/
structure WellFormed (e : Exponent) : Prop where
  mark : e.mark = 0x65 ∨ e.mark = 0x45
  sign : e.sign = [] ∨ e.sign = [0x2b] ∨ e.sign = [0x2d]
  nonempty : e.digits ≠ []
  digits : Digits e.digits

/-- The power of ten that it stands for. -/
def power (e : Exponent) : ℤ :=
  if e.sign = [0x2d] then -(digitsVal e.digits : ℤ) else digitsVal e.digits

end Exponent

/-- The production `number`. -/
structure Numeral where
  neg : Bool
  int : Bytes
  frac : Option Bytes
  exp : Option Exponent

namespace Numeral

/-- The text of the sign. -/
def signText (n : Numeral) : Bytes := if n.neg then [0x2d] else []

/-- The text of the digits after the point, with the point. -/
def pointText : Option Bytes → Bytes
  | none => []
  | some f => 0x2e :: f

/-- The text of an exponent, if there is one. -/
def expText : Option Exponent → Bytes
  | none => []
  | some e => e.text

/-- The text after the integer part. -/
def tail (n : Numeral) : Bytes := pointText n.frac ++ expText n.exp

/-- The text of a numeral. -/
def text (n : Numeral) : Bytes := n.signText ++ n.int ++ n.tail

/-- The digits after the point. -/
def fracDigits (n : Numeral) : Bytes := n.frac.getD []

/-- The power of ten of the exponent. -/
def power (n : Numeral) : ℤ := (n.exp.map Exponent.power).getD 0

/-- The numeral keeps to the grammar. -/
structure WellFormed (n : Numeral) : Prop where
  nonempty : n.int ≠ []
  int : Digits n.int
  leading : n.int.head? = some 0x30 → n.int = [0x30]
  frac : ∀ f ∈ n.frac, f ≠ [] ∧ Digits f
  exp : ∀ e ∈ n.exp, e.WellFormed

/-- The number in front of the point, without its sign. -/
def integer (n : Numeral) : ℕ := digitsVal n.int

/-- What the digits stand for when the exponent is left out, without the sign. -/
def mantissa (n : Numeral) : ℚ := digitsVal (n.int ++ n.fracDigits) / 10 ^ n.fracDigits.length

/-- A magnitude with the sign of the numeral. -/
def signed (n : Numeral) (q : ℚ) : ℚ := if n.neg then -q else q

/-- The exact value of a numeral. -/
def value (n : Numeral) : ℚ := n.signed (n.mantissa * 10 ^ n.power)

/-- The fraction and the exponent leave the integer part as it is. -/
def Whole (n : Numeral) : Prop := n.mantissa * 10 ^ n.power = n.integer

section
variable {n : Numeral}

/-- The digits of the fraction are digits. -/
theorem WellFormed.fracDigits (h : n.WellFormed) : Digits n.fracDigits := by
  unfold Numeral.fracDigits
  cases hfrac : n.frac with
  | none => exact fun _ hc => absurd hc List.not_mem_nil
  | some f => exact (h.frac f hfrac).2

/-- The mantissa is the integer and the fraction. -/
theorem mantissa_eq (n : Numeral) :
    n.mantissa = n.integer + digitsVal n.fracDigits / 10 ^ n.fracDigits.length := by
  rw [mantissa, digitsVal_append, Nat.cast_add, add_div, Nat.cast_mul, Nat.cast_pow, Nat.cast_ofNat,
    mul_div_cancel_right₀ _ (by positivity)]
  rfl

/-- The mantissa is the integer part and a fraction below one. -/
theorem WellFormed.mantissa_bounds (h : n.WellFormed) :
    (n.integer : ℚ) ≤ n.mantissa ∧ n.mantissa < n.integer + 1 := by
  have hlt : ((digitsVal n.fracDigits : ℕ) : ℚ) < 10 ^ n.fracDigits.length := by
    exact_mod_cast digitsVal_lt h.fracDigits
  have hfrac : (digitsVal n.fracDigits : ℚ) / 10 ^ n.fracDigits.length < 1 :=
    (div_lt_one (by positivity)).mpr hlt
  have hnonneg : (0 : ℚ) ≤ (digitsVal n.fracDigits : ℚ) / 10 ^ n.fracDigits.length := by positivity
  rw [mantissa_eq]
  constructor <;> linarith

/-- Without leading zeros, two digits and more are at least a power of ten. -/
theorem WellFormed.pow_le_integer (h : n.WellFormed) (hlen : 2 ≤ n.int.length) :
    10 ^ (n.int.length - 1) ≤ n.integer := by
  unfold integer
  cases hint : n.int with
  | nil => exact absurd hint h.nonempty
  | cons c ds =>
    have hc : c ≠ 0x30 := by
      rintro rfl
      have hone := h.leading (by rw [hint]; rfl)
      rw [hone] at hlen
      exact absurd hlen (by decide)
    exact pow_le_digitsVal (hint ▸ h.int) hc

/-- The mantissa has no sign. -/
theorem mantissa_nonneg (n : Numeral) : 0 ≤ n.mantissa := by
  unfold mantissa
  positivity

/-- A magnitude that is a natural number: the exponent makes the integer part larger, or it takes
zeros off its end. -/
theorem WellFormed.scaled (h : n.WellFormed) {r : ℕ} (hr : n.mantissa * 10 ^ n.power = r) :
    10 * n.integer ≤ r ∨ ∃ k : ℕ, n.integer = r * 10 ^ k ∧ n.power = -k := by
  obtain ⟨hlow, hhigh⟩ := h.mantissa_bounds
  rcases lt_or_ge 0 n.power with hpos | hneg
  · left
    have hten : (10 : ℚ) ≤ 10 ^ n.power := by
      calc (10 : ℚ) = 10 ^ (1 : ℤ) := (zpow_one 10).symm
        _ ≤ 10 ^ n.power := zpow_le_zpow_right₀ (by norm_num) hpos
    have hle : (10 * n.integer : ℚ) ≤ r := by
      rw [← hr, mul_comm]
      exact mul_le_mul hlow hten (by norm_num) n.mantissa_nonneg
    exact_mod_cast hle
  · right
    obtain ⟨k, hk⟩ := Int.eq_ofNat_of_zero_le (Int.neg_nonneg_of_nonpos hneg)
    have hpower : n.power = -k := by omega
    have hmantissa : n.mantissa = r * 10 ^ k := by
      rw [← hr, hpower, zpow_neg, zpow_natCast, mul_assoc, inv_mul_cancel₀ (by positivity), mul_one]
    rw [hmantissa] at hlow hhigh
    have hlow' : n.integer ≤ r * 10 ^ k := by exact_mod_cast hlow
    have hhigh' : r * 10 ^ k < n.integer + 1 := by exact_mod_cast hhigh
    exact ⟨k, by omega, hpower⟩

/-- Without a sign. -/
theorem value_of_pos (hneg : n.neg = false) : n.value = n.mantissa * 10 ^ n.power := by
  rw [value, signed, hneg, if_neg Bool.false_ne_true]

/-- A number above zero has no sign. -/
theorem neg_eq_false (h : 0 < n.value) : n.neg = false := by
  rw [value, signed] at h
  have hmantissa := n.mantissa_nonneg
  split_ifs at h with hneg
  · have hnonneg : 0 ≤ n.mantissa * 10 ^ n.power := by positivity
    linarith
  · exact Bool.eq_false_of_not_eq_true hneg

end

/-! ## The automaton -/

section
variable {q q' : NumberState} {c : UInt8} {cs ds : Bytes}

/-- A state that reads digits reads all of them. -/
theorem isNumberFrom_digits (hq : ∀ c, isDigit c = true → q.next c = some q) (hds : Digits ds)
    (cs : Bytes) : isNumberFrom q (ds ++ cs) = isNumberFrom q cs := by
  induction ds with
  | nil => rfl
  | cons c ds ih =>
    obtain ⟨hc, hds'⟩ := hds.of_cons
    rw [List.cons_append, isNumberFrom, hq c hc]
    exact ih hds'

/-- A digit in the integer. -/
theorem next_int (c : UInt8) (h : isDigit c = true) : NumberState.int.next c = some .int := if_pos h

/-- A digit in the fraction. -/
theorem next_frac (c : UInt8) (h : isDigit c = true) : NumberState.frac.next c = some .frac := if_pos h

/-- A digit in the exponent. -/
theorem next_expDigits (c : UInt8) (h : isDigit c = true) :
    NumberState.expDigits.next c = some .expDigits := if_pos h

/-- The digits at the start of a text, and the rest, which begins with something else. -/
theorem split_digits (cs : Bytes) : ∃ ds rest, cs = ds ++ rest ∧ Digits ds ∧
    ∀ c ∈ rest.head?, isDigit c = false := by
  refine ⟨cs.takeWhile isDigit, cs.dropWhile isDigit, List.takeWhile_append_dropWhile.symm,
    fun c hc => List.mem_takeWhile_imp hc, fun c hc => ?_⟩
  have hhead := List.head?_dropWhile_not isDigit cs
  rw [hc] at hhead
  simpa using hhead

/-- What is accepted behind the first digit of an exponent is digits. The induction is on the text.
-/
theorem isNumberFrom_expDigits (h : isNumberFrom .expDigits cs = true) : Digits cs := by
  obtain ⟨ds, rest, rfl, hds, hrest⟩ := split_digits cs
  rw [isNumberFrom_digits next_expDigits hds] at h
  cases rest with
  | nil =>
    rw [List.append_nil]
    exact hds
  | cons c rest =>
    rw [isNumberFrom, NumberState.next, hrest c rfl] at h
    cases h

/-- What follows the letter of an exponent. -/
theorem isNumberFrom_exp (hc : c = 0x65 ∨ c = 0x45) (h : isNumberFrom .exp cs = true) :
    ∃ e : Exponent, e.WellFormed ∧ c :: cs = e.text := by
  cases cs with
  | nil => cases h
  | cons c' cs =>
    rw [isNumberFrom, NumberState.next] at h
    split_ifs at h with hsign hdigit
    · dsimp only at h
      cases cs with
      | nil => cases h
      | cons c'' cs =>
        rw [isNumberFrom, NumberState.next] at h
        split_ifs at h with hdigit
        · have hds : Digits (c'' :: cs) := List.forall_mem_cons.mpr ⟨hdigit, isNumberFrom_expDigits h⟩
          refine ⟨⟨c, [c'], c'' :: cs⟩, ⟨hc, .inr ?_, List.cons_ne_nil _ _, hds⟩, rfl⟩
          rcases hsign with rfl | rfl
          · exact .inl rfl
          · exact .inr rfl
    · have hds : Digits (c' :: cs) := List.forall_mem_cons.mpr ⟨hdigit, isNumberFrom_expDigits h⟩
      exact ⟨⟨c, [], c' :: cs⟩, ⟨hc, .inl rfl, List.cons_ne_nil _ _, hds⟩, rfl⟩

/-- What is accepted behind the first digit of a fraction is digits and an exponent. The induction
is on the text. -/
theorem isNumberFrom_frac (h : isNumberFrom .frac cs = true) :
    ∃ ds e, Digits ds ∧ (∀ x ∈ e, Exponent.WellFormed x) ∧ cs = ds ++ expText e := by
  obtain ⟨ds, rest, rfl, hds, hrest⟩ := split_digits cs
  rw [isNumberFrom_digits next_frac hds] at h
  cases rest with
  | nil => exact ⟨ds, none, hds, fun _ hx => (nomatch hx), rfl⟩
  | cons c rest =>
    rw [isNumberFrom, NumberState.next, hrest c rfl] at h
    simp only [Bool.false_eq_true, if_false] at h
    split_ifs at h with hmark
    · obtain ⟨e, he, htext⟩ := isNumberFrom_exp hmark h
      exact ⟨ds, some e, hds, fun x hx => Option.some.inj hx ▸ he, congrArg (ds ++ ·) htext⟩

/-- What may follow the integer part, after a byte that is no digit. -/
theorem tail_of_next (hnext : (if c = 0x2e then some NumberState.point
      else if c = 0x65 ∨ c = 0x45 then some .exp else none) = some q')
    (h : isNumberFrom q' cs = true) :
    ∃ f e, (∀ x ∈ f, x ≠ [] ∧ Digits x) ∧ (∀ x ∈ e, Exponent.WellFormed x) ∧
      c :: cs = pointText f ++ expText e := by
  split_ifs at hnext with hpoint hmark
  · cases hnext
    subst hpoint
    cases cs with
    | nil => cases h
    | cons c' cs =>
      rw [isNumberFrom, NumberState.next] at h
      split_ifs at h with hdigit
      · obtain ⟨ds, e, hds, he, rfl⟩ := isNumberFrom_frac h
        refine ⟨some (c' :: ds), e, fun x hx => ?_, he, rfl⟩
        rw [← Option.some.inj hx]
        exact ⟨List.cons_ne_nil _ _, List.forall_mem_cons.mpr ⟨hdigit, hds⟩⟩
  · cases hnext
    obtain ⟨e, he, htext⟩ := isNumberFrom_exp hmark h
    exact ⟨none, some e, fun _ hx => (nomatch hx), fun x hx => Option.some.inj hx ▸ he, htext⟩

/-- A number without its sign. -/
theorem isNumberFrom_minus (h : isNumberFrom .minus cs = true) (neg : Bool) :
    ∃ n : Numeral, n.WellFormed ∧ n.neg = neg ∧ cs = n.int ++ n.tail := by
  cases cs with
  | nil => cases h
  | cons c cs =>
    rw [isNumberFrom, NumberState.next] at h
    split_ifs at h with hzero hdigit
    -- a zero, behind which there are no more digits of the integer
    · dsimp only at h
      subst hzero
      have hint : Digits [0x30] := List.forall_mem_singleton.mpr (by decide)
      cases cs with
      | nil =>
        exact ⟨⟨neg, [0x30], none, none⟩, ⟨List.cons_ne_nil _ _, hint, fun _ => rfl, nofun, nofun⟩,
          rfl, rfl⟩
      | cons c cs =>
        rw [isNumberFrom] at h
        cases hnext : NumberState.zero.next c with
        | none =>
          rw [hnext] at h
          cases h
        | some q' =>
          rw [hnext] at h
          obtain ⟨f, e, hf, he, htext⟩ := tail_of_next hnext h
          exact ⟨⟨neg, [0x30], f, e⟩, ⟨List.cons_ne_nil _ _, hint, fun _ => rfl, hf, he⟩, rfl,
            congrArg (0x30 :: ·) htext⟩
    -- another digit, and all that follow it
    · dsimp only at h
      obtain ⟨ds, rest, rfl, hds, hrest⟩ := split_digits cs
      rw [isNumberFrom_digits next_int hds] at h
      have hint : Digits (c :: ds) := List.forall_mem_cons.mpr ⟨hdigit, hds⟩
      have hleading : (c :: ds).head? = some 0x30 → c :: ds = [0x30] :=
        fun heq => absurd (Option.some.inj heq) hzero
      cases rest with
      | nil =>
        exact ⟨⟨neg, c :: ds, none, none⟩, ⟨List.cons_ne_nil _ _, hint, hleading, nofun, nofun⟩,
          rfl, rfl⟩
      | cons c' rest =>
        rw [isNumberFrom] at h
        cases hnext : NumberState.int.next c' with
        | none =>
          rw [hnext] at h
          cases h
        | some q' =>
          rw [hnext] at h
          rw [NumberState.next, hrest c' rfl] at hnext
          obtain ⟨f, e, hf, he, htext⟩ := tail_of_next hnext h
          exact ⟨⟨neg, c :: ds, f, e⟩, ⟨List.cons_ne_nil _ _, hint, hleading, hf, he⟩, rfl,
            congrArg (c :: ds ++ ·) htext⟩

/-- The automaton accepts an exponent. -/
theorem accepts_exp (hfinal : q.final = true)
    (hexp : q.next 0x65 = some .exp ∧ q.next 0x45 = some .exp) {e : Option Exponent}
    (he : ∀ x ∈ e, Exponent.WellFormed x) : isNumberFrom q (expText e) = true := by
  cases e with
  | none => exact hfinal
  | some e =>
    obtain ⟨hmark, hsign, hne, hds⟩ := he e rfl
    -- from any state that waits for the digits of the exponent they are read to the end
    have hdigits : ∀ q, (∀ c, isDigit c = true → NumberState.next q c = some .expDigits) →
        isNumberFrom q e.digits = true := by
      intro q hq
      cases hcs : e.digits with
      | nil => exact absurd hcs hne
      | cons c cs =>
        rw [hcs] at hds
        obtain ⟨hc, hcs'⟩ := hds.of_cons
        rw [isNumberFrom, hq c hc]
        have hrun := isNumberFrom_digits next_expDigits hcs' []
        rw [List.append_nil] at hrun
        exact hrun
    have hnext : q.next e.mark = some .exp := by
      rcases hmark with hmark | hmark <;> rw [hmark]
      · exact hexp.1
      · exact hexp.2
    have hrest : isNumberFrom .exp (e.sign ++ e.digits) = true := by
      rcases hsign with hsign | hsign | hsign <;> rw [hsign]
      · refine hdigits .exp fun c hc => ?_
        rw [NumberState.next, if_neg, if_pos hc]
        rintro (rfl | rfl)
        · exact absurd hc (by decide)
        · exact absurd hc (by decide)
      · exact hdigits .expSign fun c hc => if_pos hc
      · exact hdigits .expSign fun c hc => if_pos hc
    show isNumberFrom q (e.mark :: (e.sign ++ e.digits)) = true
    rw [isNumberFrom, hnext]
    exact hrest

/-- The automaton accepts a fraction and an exponent. -/
theorem accepts_tail (hfinal : q.final = true) (hpoint : q.next 0x2e = some .point)
    (hexp : q.next 0x65 = some .exp ∧ q.next 0x45 = some .exp) {n : Numeral} (h : n.WellFormed) :
    isNumberFrom q n.tail = true := by
  unfold Numeral.tail
  cases hfrac : n.frac with
  | none => exact accepts_exp hfinal hexp h.exp
  | some f =>
    obtain ⟨hne, hds⟩ := h.frac f hfrac
    cases f with
    | nil => exact absurd rfl hne
    | cons c ds =>
      obtain ⟨hc, hds'⟩ := hds.of_cons
      rw [pointText, List.cons_append, isNumberFrom, hpoint, List.cons_append]
      show isNumberFrom .point (c :: (ds ++ expText n.exp)) = true
      rw [isNumberFrom, NumberState.next, if_pos hc]
      show isNumberFrom .frac (ds ++ expText n.exp) = true
      rw [isNumberFrom_digits next_frac hds']
      exact accepts_exp rfl ⟨rfl, rfl⟩ h.exp

end

/-- The texts of well-formed numerals are those that the automaton accepts. -/
theorem isNumber_iff (t : Bytes) : isNumber t = true ↔ ∃ n : Numeral, n.WellFormed ∧ n.text = t := by
  -- after the sign, a number is read as from the state `minus`
  have hstart : ∀ c cs, isNumber (c :: cs) =
      if c = 0x2d then isNumberFrom .minus cs else isNumberFrom .minus (c :: cs) := by
    intro c cs
    rw [isNumber, isNumberFrom, NumberState.next]
    by_cases hminus : c = 0x2d
    · rw [if_pos hminus, if_pos hminus]
    · rw [if_neg hminus, if_neg hminus, isNumberFrom, NumberState.next]
  constructor
  · intro h
    cases t with
    | nil => cases h
    | cons c cs =>
      rw [hstart] at h
      split_ifs at h with hminus
      · obtain ⟨n, hn, hneg, htext⟩ := isNumberFrom_minus h true
        refine ⟨n, hn, ?_⟩
        rw [text, signText, hneg, if_pos rfl, hminus, htext]
        rfl
      · obtain ⟨n, hn, hneg, htext⟩ := isNumberFrom_minus h false
        refine ⟨n, hn, ?_⟩
        rw [text, signText, hneg, htext]
        rfl
  · rintro ⟨n, h, rfl⟩
    cases hint : n.int with
    | nil => exact absurd hint h.nonempty
    | cons c ds =>
      obtain ⟨hc, hds⟩ := (hint ▸ h.int : Digits (c :: ds)).of_cons
      have hunsigned : isNumberFrom .minus (n.int ++ n.tail) = true := by
        rw [hint, List.cons_append, isNumberFrom, NumberState.next]
        by_cases hzero : c = 0x30
        · have hone := h.leading (by rw [hint, hzero]; rfl)
          rw [hint] at hone
          rw [if_pos hzero, (List.cons.inj hone).2]
          exact accepts_tail rfl rfl ⟨rfl, rfl⟩ h
        · rw [if_neg hzero, if_pos hc]
          show isNumberFrom .int (ds ++ n.tail) = true
          rw [isNumberFrom_digits next_int hds]
          exact accepts_tail rfl rfl ⟨rfl, rfl⟩ h
      rw [text, signText, List.append_assoc]
      split_ifs
      · rw [List.singleton_append, hstart, if_pos rfl]
        exact hunsigned
      · have hminus : c ≠ 0x2d := by
          rintro rfl
          exact absurd hc (by decide)
        rw [hint] at hunsigned ⊢
        rw [List.nil_append, List.cons_append, hstart, if_neg hminus]
        exact hunsigned

end Numeral

/-- No number has a NUL in its text. -/
theorem isNumber_no_nul {t : Bytes} (h : isNumber t = true) : 0 ∉ t := by
  have hfrom : ∀ (t : Bytes) (q : NumberState), isNumberFrom q t = true → 0 ∉ t := by
    intro t
    induction t with
    | nil => exact fun _ _ => List.not_mem_nil
    | cons c t ih =>
      intro q hq
      rw [isNumberFrom] at hq
      cases hnext : q.next c with
      | none =>
        rw [hnext] at hq
        cases hq
      | some q' =>
        rw [hnext] at hq
        have hc : 0 ≠ c := by
          rintro rfl
          cases q <;> cases hnext
        exact fun hmem => (List.mem_cons.mp hmem).elim hc (ih q' hq)
  exact hfrom t .start h

end SlcRtld.Json
