import Mathlib.Data.Rat.Floor

/-!
# The type `double`

The binary64 numbers that the daemon computes with, each finite one as the rational number that it
is. `Double.ofRat` rounds to nearest, ties to even, with gradual underflow and with overflow to an
infinity; an operation is the exact result rounded once. `float` is rounded by the same function
with fewer bits (`Double.roundBits`). The two zeros are not told apart, since no
code of the daemon can tell them apart.
-/

namespace SlcRtld.Libc

/-- A value of type `double`. -/
inductive Double where
  /-- A finite number. -/
  | finite (q : ℚ)
  /-- An infinity, and whether it is the negative one. -/
  | inf (negative : Bool)
  /-- Not a number. -/
  | nan
deriving DecidableEq

namespace Double

/-- The power of two with any integer exponent. -/
def pow2 (e : ℤ) : ℚ := if 0 ≤ e then (2 ^ e.toNat : ℕ) else mkRat 1 (2 ^ (-e).toNat)

/-- A nonnegative rational rounded to a natural number, ties to even. -/
def roundHalfEven (q : ℚ) : ℕ :=
  let n := q.num.toNat / q.den
  let twice := 2 * (q.num.toNat % q.den)
  if q.den < twice ∨ (twice = q.den ∧ n % 2 = 1) then n + 1 else n

/-- The exponent `e` with `2 ^ e ≤ q < 2 ^ (e + 1)` of a positive rational. -/
def exponent (q : ℚ) : ℤ :=
  let e : ℤ := q.num.toNat.log2 - q.den.log2
  if pow2 e ≤ q then e else e - 1

/-- A rational rounded to the nearest binary floating point number with `p` significant bits, the
last of them at `2 ^ emin` or above. -/
def roundBits (p : ℕ) (emin : ℤ) (q : ℚ) : ℚ :=
  if q = 0 then 0
  else
    let a := |q|
    let ulp := pow2 (max (exponent a - (p - 1)) emin)
    let v := roundHalfEven (a / ulp) * ulp
    if q < 0 then -v else v

/-- A rational rounded to the nearest `double`. -/
def ofRat (q : ℚ) : Double :=
  let v := roundBits 53 (-1074) q
  if pow2 1024 ≤ |v| then .inf (q < 0) else .finite v

/-- The operator `-`. -/
def sub : Double → Double → Double
  | .finite a, .finite b => ofRat (a - b)
  | .inf n, .finite _ => .inf n
  | .finite _, .inf n => .inf !n
  | .inf m, .inf n => if m = n then .nan else .inf m
  | .nan, _ => .nan
  | _, .nan => .nan

/-- The operator `*` with a finite number above zero on the right. -/
def mulPos (x : Double) (b : ℚ) : Double :=
  match x with
  | .finite a => ofRat (a * b)
  | x => x

/-- `fabs`. -/
def fabs : Double → Double
  | .finite a => .finite |a|
  | .inf _ => .inf false
  | .nan => .nan

/-- The comparison `<` with a finite number on the right. -/
def ltRat (x : Double) (b : ℚ) : Bool :=
  match x with
  | .finite a => a < b
  | .inf n => n
  | .nan => false

/-- The conversion to an integer type, which cuts the fraction off. Outside the range of the type
the conversion has no value in C, and none is relied on. -/
def truncToInt : Double → ℤ
  | .finite a => if a < 0 then -⌊-a⌋ else ⌊a⌋
  | _ => 0

/-- The conversion to `int` of `round`, which takes a half away from zero. -/
def roundToInt : Double → ℤ
  | .finite a => if a < 0 then -⌊-a + 1 / 2⌋ else ⌊a + 1 / 2⌋
  | _ => 0

end Double

end SlcRtld.Libc
