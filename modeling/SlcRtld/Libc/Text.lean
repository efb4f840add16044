import SlcRtld.Config
import SlcRtld.Libc.Double

/-!
# Numbers and addresses as text

The conversions of the C library that the daemon hands request parameters to, and the ones it
writes its replies with. `unsigned long` and `long` have 64 bits, and texts are C strings, so no
byte of one is NUL.
-/

namespace SlcRtld.Libc

/-! ## Reading integers -/

/-- `isspace` in the C locale. -/
def isSpace (c : UInt8) : Bool := c = 0x20 || (0x09 ≤ c && c ≤ 0x0d)

/-- The decimal digits. -/
def isDigit (c : UInt8) : Bool := 0x30 ≤ c && c ≤ 0x39

/-- The value of a run of digits. -/
def digitsVal (ds : CStr) : ℕ := ds.foldl (fun v c => v * 10 + (c.toNat - 0x30)) 0

/-- An optional sign: whether it is a minus, and the text after it. -/
def takeSign : CStr → Bool × CStr
  | [] => (false, [])
  | c :: cs => if c = 0x2d then (true, cs) else if c = 0x2b then (false, cs) else (false, c :: cs)

/-- The sign and the magnitude that the `strto*` functions read in base 10, no digits giving 0. -/
def readInteger (s : CStr) : Bool × ℕ :=
  let (neg, cs) := takeSign (s.dropWhile isSpace)
  (neg, digitsVal (cs.takeWhile isDigit))

/-- `strtoull` in base 10 and whether it sets `errno` to `ERANGE`; a minus negates modulo `2 ^ 64`.
`strtoul` is the same function. -/
def strtoull (s : CStr) : ℕ × Bool :=
  let (neg, v) := readInteger s
  if 2 ^ 64 ≤ v then (2 ^ 64 - 1, true)
  else (if neg then (2 ^ 64 - v) % 2 ^ 64 else v, false)

/-- `strtol` in base 10, which saturates. -/
def strtol (s : CStr) : ℤ :=
  let (neg, v) := readInteger s
  let x : ℤ := if neg then -v else v
  max (-2 ^ 63) (min x (2 ^ 63 - 1))

/-- The conversion of a `long` to `int`. -/
def toInt32 (x : ℤ) : ℤ := (x + 2 ^ 31) % 2 ^ 32 - 2 ^ 31

/-! ## Reading floating point numbers -/

/-- A byte in lower case. -/
def toLower (c : UInt8) : UInt8 := if 0x41 ≤ c && c ≤ 0x5a then c + 0x20 else c

/-- The value of a hexadecimal digit, if it is one. -/
def hexDigit (c : UInt8) : Option ℕ :=
  if 0x30 ≤ c && c ≤ 0x39 then some (c.toNat - 0x30)
  else if 0x61 ≤ c && c ≤ 0x66 then some (c.toNat - 0x61 + 10)
  else if 0x41 ≤ c && c ≤ 0x46 then some (c.toNat - 0x41 + 10)
  else none

/-- The digits of a number in a base, with a point allowed once: the digits as one integer, how
many of them stand after the point, how many there are, and the text after them. -/
def readDigits (base : ℕ) (digit : UInt8 → Option ℕ) :
    CStr → Bool → ℕ → ℕ → ℕ → ℕ × ℕ × ℕ × CStr
  | [], _, v, frac, n => (v, frac, n, [])
  | c :: cs, point, v, frac, n =>
    match digit c with
    | some d => readDigits base digit cs point (v * base + d) (if point then frac + 1 else frac)
        (n + 1)
    | none =>
      if c = 0x2e && !point then readDigits base digit cs true v frac n
      else (v, frac, n, c :: cs)

/-- The exponent after the letter `mark`, zero where no digit follows. -/
def readExponent (mark : UInt8) : CStr → ℤ
  | [] => 0
  | c :: cs =>
    if toLower c = mark then
      let (neg, ds) := takeSign cs
      let e : ℤ := digitsVal (ds.takeWhile isDigit)
      if neg then -e else e
    else 0

/-- The power of a base with any integer exponent. -/
def ratPow (base : ℕ) (e : ℤ) : ℚ :=
  if 0 ≤ e then (base ^ e.toNat : ℕ) else mkRat 1 (base ^ (-e).toNat)

/-- The number at the start of a text without a sign, in decimal or hexadecimal. -/
def readMagnitude (s : CStr) : ℚ :=
  let decimal (s : CStr) : ℚ :=
    let (v, frac, n, rest) := readDigits 10 (fun c => if isDigit c then hexDigit c else none) s
      false 0 0 0
    if n = 0 then 0 else v * ratPow 10 (readExponent 0x65 rest - frac)
  match s with
  | 0x30 :: x :: cs =>
    if toLower x = 0x78 then
      let (v, frac, n, rest) := readDigits 16 hexDigit cs false 0 0 0
      if n = 0 then 0 else v * ratPow 2 (readExponent 0x70 rest - 4 * frac)
    else decimal s
  | _ => decimal s

/-- `strtod`, in its round-to-nearest result. -/
def strtod (s : CStr) : Double :=
  let (neg, cs) := takeSign (s.dropWhile isSpace)
  let word := (cs.take 3).map toLower
  if word = bytes "inf" then .inf neg
  else if word = bytes "nan" then .nan
  else Double.ofRat (if neg then -readMagnitude cs else readMagnitude cs)

/-! ## Reading addresses -/

/-- The loop of `inet_pton` for IPv4: the octets finished before, the current one, and whether a
digit of it has been seen. An octet has no leading zero. -/
def readAddress : CStr → List ℕ → ℕ → Bool → Option (List ℕ)
  | [], done, cur, seen => if seen && done.length = 3 then some (done ++ [cur]) else none
  | c :: cs, done, cur, seen =>
    if isDigit c then
      let new := cur * 10 + (c.toNat - 0x30)
      if (seen && cur = 0) || 255 < new || 4 ≤ done.length then none
      else readAddress cs done new true
    else if c = 0x2e && seen then readAddress cs (done ++ [cur]) 0 false
    else none

/-- `inet_pton` for `AF_INET`: the four octets of a dotted quad. -/
def inetPton (s : CStr) : Option (List ℕ) := readAddress s [] 0 false

/-- The bytes that `snprintf` leaves in a buffer of a size. -/
def snprintf (size : ℕ) (s : CStr) : CStr := s.take (size - 1)

/-- A text that fits its buffer is not cut. -/
theorem snprintf_eq {size : ℕ} {s : CStr} (h : s.length < size) : snprintf size s = s :=
  List.take_of_length_le (by omega)

/-! ## Writing numbers -/

/-- The conversions `%u` and `%llu`. -/
def fmtUnsigned (n : ℕ) : CStr := (Nat.toDigits 10 n).map fun c => c.toNat.toUInt8

/-- The conversions `%d` and `%lld`. -/
def fmtInt (n : ℤ) : CStr := if n < 0 then 0x2d :: fmtUnsigned n.natAbs else fmtUnsigned n.natAbs

/-- The conversion `%.1f` of a number of tenths. -/
def fmtTenths (n : ℤ) : CStr :=
  (if n < 0 then [0x2d] else []) ++ fmtUnsigned (n.natAbs / 10) ++ [0x2e]
    ++ fmtUnsigned (n.natAbs % 10)

/-- One hexadecimal digit in lower case. -/
def hexChar (n : ℕ) : UInt8 := if n < 10 then (0x30 + n).toUInt8 else (0x61 + n - 10).toUInt8

/-- The conversion `%02x` of a byte. -/
def fmtHexByte (b : UInt8) : CStr := [hexChar (b.toNat / 16), hexChar (b.toNat % 16)]

end SlcRtld.Libc
