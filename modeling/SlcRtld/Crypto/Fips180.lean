import SlcRtld.Crypto.Blocks
import Mathlib.Algebra.Group.Nat.Defs
import Mathlib.Data.Nat.Notation
import Mathlib.Data.Nat.NthRoot.Defs

/-!
# SHA-256 and HMAC by the standards

The functions that FIPS 180-4 and RFC 2104 define, on messages of bytes, written as the standards
write them: a message is padded to whole blocks, each block gives a schedule of 64 words by a
recurrence, and 64 rounds of the working variables are added to the chaining value. The round
constants and the first chaining value are not a table but what the standard derives them from, the
roots of the first primes.
-/

namespace SlcRtld.Crypto

/-! ## Functions on words -/

/-- The rotation to the right. -/
def rotateRight (n : ℕ) (x : UInt32) : UInt32 := ⟨x.toBitVec.rotateRight n⟩

/-- The choice of `y` or `z` by the bits of `x`. -/
def choose (x y z : UInt32) : UInt32 := (x &&& y) ^^^ (~~~x &&& z)

/-- The majority of three bits. -/
def majority (x y z : UInt32) : UInt32 := (x &&& y) ^^^ (x &&& z) ^^^ (y &&& z)

/-- The functions `Σ` of the working variables. -/
def bigSigma0 (x : UInt32) : UInt32 := rotateRight 2 x ^^^ rotateRight 13 x ^^^ rotateRight 22 x

@[inherit_doc bigSigma0]
def bigSigma1 (x : UInt32) : UInt32 := rotateRight 6 x ^^^ rotateRight 11 x ^^^ rotateRight 25 x

/-- The functions `σ` of the schedule. -/
def smallSigma0 (x : UInt32) : UInt32 := rotateRight 7 x ^^^ rotateRight 18 x ^^^ (x >>> 3)

@[inherit_doc smallSigma0]
def smallSigma1 (x : UInt32) : UInt32 := rotateRight 17 x ^^^ rotateRight 19 x ^^^ (x >>> 10)

/-! ## Constants -/

/-- The first 64 primes. -/
def primes : List ℕ := [
  2, 3, 5, 7, 11, 13, 17, 19, 23, 29, 31, 37, 41, 43, 47, 53, 59, 61, 67, 71, 73, 79, 83, 89, 97,
  101, 103, 107, 109, 113, 127, 131, 137, 139, 149, 151, 157, 163, 167, 173, 179, 181, 191, 193, 197,
  199, 211, 223, 227, 229, 233, 239, 241, 251, 257, 263, 269, 271, 277, 281, 283, 293, 307, 311]

/-- The first 32 bits of the fractional part of the `k`'th root of a number. -/
def rootFraction (k p : ℕ) : UInt32 := UInt32.ofNat (Nat.nthRoot k (p * 2^(32 * k)))

/-- The round constants come from the cube roots of the first 64 primes. -/
def roundConstant (t : ℕ) : UInt32 := rootFraction 3 (primes.getD t 0)

/-- The working variables, and the chaining value. -/
structure State where
  a : UInt32
  b : UInt32
  c : UInt32
  d : UInt32
  e : UInt32
  f : UInt32
  g : UInt32
  h : UInt32
deriving DecidableEq

/-- The words of a state in order. -/
def State.words (s : State) : List UInt32 := [s.a, s.b, s.c, s.d, s.e, s.f, s.g, s.h]

/-- The first chaining value comes from the square roots of the first eight primes. -/
def initial : State :=
  ⟨rootFraction 2 2, rootFraction 2 3, rootFraction 2 5, rootFraction 2 7, rootFraction 2 11,
    rootFraction 2 13, rootFraction 2 17, rootFraction 2 19⟩

/-! ## The compression function -/

/-- The word that four bytes stand for, the highest first. -/
def wordOfBytes (a b c d : UInt8) : UInt32 :=
  UInt32.ofNat (a.toNat * 2^24 + b.toNat * 2^16 + c.toNat * 2^8 + d.toNat)

/-- The word of a block at an index. -/
def blockWord (block : List UInt8) (t : ℕ) : UInt32 :=
  wordOfBytes (block.getD (4 * t) 0) (block.getD (4 * t + 1) 0) (block.getD (4 * t + 2) 0)
    (block.getD (4 * t + 3) 0)

/-- The message schedule. -/
def schedule (block : List UInt8) (t : ℕ) : UInt32 :=
  if t < 16 then blockWord block t
  else smallSigma1 (schedule block (t - 2)) + schedule block (t - 7) +
    smallSigma0 (schedule block (t - 15)) + schedule block (t - 16)

/-- One round, with its constant and its word of the schedule. -/
def round (s : State) (k w : UInt32) : State :=
  let t1 := s.h + bigSigma1 s.e + choose s.e s.f s.g + k + w
  let t2 := bigSigma0 s.a + majority s.a s.b s.c
  ⟨t1 + t2, s.a, s.b, s.c, s.d + t1, s.e, s.f, s.g⟩

/-- The working variables after the first rounds. -/
def rounds (block : List UInt8) (s : State) : ℕ → State
  | 0 => s
  | t + 1 => round (rounds block s t) (roundConstant t) (schedule block t)

/-- The compression function. -/
def compress (s : State) (block : List UInt8) : State :=
  let r := rounds block s 64
  ⟨s.a + r.a, s.b + r.b, s.c + r.c, s.d + r.d, s.e + r.e, s.f + r.f, s.g + r.g, s.h + r.h⟩

/-! ## The hash -/

/-- The bytes of a number, the highest first, in a given number of places. -/
def bytesOf : ℕ → ℕ → List UInt8
  | 0, _ => []
  | places + 1, n => UInt8.ofNat (n / 256^places) :: bytesOf places n

/-- The least number of zero bytes after which a length field completes the last block. -/
def padZeros (length : ℕ) : ℕ := (119 - length % 64) % 64

/-- The padding: a one bit, zero bits, and the length in bits. -/
def pad (m : List UInt8) : List UInt8 :=
  m ++ 0x80 :: (List.replicate (padZeros m.length) 0 ++ bytesOf 8 (8 * m.length))

/-- SHA-256. -/
def sha256 (m : List UInt8) : List UInt8 :=
  ((blocks 64 (pad m)).foldl compress initial).words.flatMap fun w => bytesOf 4 w.toNat

/-- HMAC over a hash function that works on blocks of 64 bytes. -/
def hmac (hash : List UInt8 → List UInt8) (key text : List UInt8) : List UInt8 :=
  let k₀ := if 64 < key.length then hash key else key
  let k := k₀ ++ List.replicate (64 - k₀.length) 0
  hash (k.map (· ^^^ 0x5c) ++ hash (k.map (· ^^^ 0x36) ++ text))

end SlcRtld.Crypto
