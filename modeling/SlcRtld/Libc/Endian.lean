import Mathlib.Data.Nat.Bitwise
import Mathlib.Tactic.Ring

/-!
# Words in network byte order

What `htonl` stores and a receiver reads back: a word as four bytes, the highest first, and the
word at a position of a packet. A packet that begins with whole words gives each of them back
(`wordAt_flatMap`), and the rest of it follows them (`drop_flatMap`). Header words are put together
from fields that do not overlap, so that their bitwise or is a sum (`header_toNat`).
-/

namespace SlcRtld.Libc

/-- The four bytes of a word as `htonl` stores them. -/
def be32 (w : UInt32) : List UInt8 :=
  [(w >>> 24).toUInt8, (w >>> 16).toUInt8, (w >>> 8).toUInt8, w.toUInt8]

/-- The number that four bytes stand for, the highest first. -/
def readBe32 : List UInt8 → ℕ
  | a :: b :: c :: d :: _ => ((a.toNat * 2^8 + b.toNat) * 2^8 + c.toNat) * 2^8 + d.toNat
  | _ => 0

/-- The word at an index of a packet. -/
def wordAt (pkt : List UInt8) (i : ℕ) : ℕ := readBe32 (pkt.drop (4 * i))

/-- A word has four bytes. -/
@[simp] theorem be32_length (w : UInt32) : (be32 w).length = 4 := rfl

/-- A word is read back. -/
theorem readBe32_be32 (w : UInt32) (rest : List UInt8) : readBe32 (be32 w ++ rest) = w.toNat := by
  have hw : w.toNat < 2^32 := w.toNat_lt
  simp only [be32, readBe32, List.cons_append, UInt32.toNat_toUInt8, UInt32.toNat_shiftRight,
    Nat.shiftRight_eq_div_pow, UInt32.reduceToNat]
  norm_num
  omega

/-- Several words have four bytes each. -/
theorem flatMap_length (ws : List UInt32) : (ws.flatMap be32).length = 4 * ws.length := by
  induction ws with
  | nil => rfl
  | cons w ws ih =>
    rw [List.flatMap_cons, List.length_append, ih, be32_length, List.length_cons]
    ring

/-- A word at the start of a packet is read back. -/
theorem wordAt_flatMap {ws : List UInt32} {rest : List UInt8} {i : ℕ} {w : UInt32}
    (h : ws[i]? = some w) : wordAt (ws.flatMap be32 ++ rest) i = w.toNat := by
  induction ws generalizing i with
  | nil => simp at h
  | cons v ws ih =>
    cases i with
    | zero =>
      obtain rfl : v = w := by simpa using h
      rw [wordAt, Nat.mul_zero, List.drop_zero, List.flatMap_cons, List.append_assoc]
      exact readBe32_be32 v _
    | succ i =>
      have hdrop : ((v :: ws).flatMap be32 ++ rest).drop (4 * (i + 1)) =
          (ws.flatMap be32 ++ rest).drop (4 * i) := by
        rw [List.flatMap_cons, List.append_assoc, Nat.mul_succ, Nat.add_comm, ← List.drop_drop]
        rfl
      rw [wordAt, hdrop]
      exact ih (by simpa using h)

/-- What follows the words of a packet. -/
theorem drop_flatMap (ws : List UInt32) (rest : List UInt8) {n : ℕ} (h : n = 4 * ws.length) :
    (ws.flatMap be32 ++ rest).drop n = rest := by
  rw [h, ← flatMap_length]
  exact List.drop_left

/-- A header word: a base in the high 12 bits, a count below 16 in the next four and a size in the
low 16. The three do not overlap. -/
theorem header_toNat (base count size : UInt32) (b : ℕ) (hb : base.toNat = 2^20 * b)
    (hcount : count.toNat < 2^4) (hsize : size.toNat < 2^16) :
    (base ||| (count <<< 16) ||| size).toNat = 2^20 * b + 2^16 * count.toNat + size.toNat := by
  have hshift : (count <<< 16).toNat = 2^16 * count.toNat := by
    simp only [UInt32.toNat_shiftLeft, Nat.shiftLeft_eq, UInt32.reduceToNat, Nat.reduceMod]
    omega
  have hhigh : base.toNat ||| 2^16 * count.toNat = 2^16 * (2^4 * b + count.toNat) := by
    rw [Nat.two_pow_add_eq_or_of_lt hcount, hb, show 2^20 * b = 2^16 * (2^4 * b) by ring,
      Nat.mul_comm (2^16), Nat.mul_comm (2^16), Nat.mul_comm (2^16), ← Nat.shiftLeft_eq,
      ← Nat.shiftLeft_eq, ← Nat.shiftLeft_eq, Nat.shiftLeft_or_distrib]
  rw [UInt32.toNat_or, UInt32.toNat_or, hshift, hhigh, ← Nat.two_pow_add_eq_or_of_lt hsize]
  ring

end SlcRtld.Libc
