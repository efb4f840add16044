import SlcRtld.Config
import SlcRtld.Libc.Endian

/-!
# SHA-256 and HMAC

The hash of `common/auth.c`, as it is written there: a running state with a buffer of fewer than 64
bytes, an update that fills the buffer and compresses it when it is full, and a final step that pads
byte by byte through the update. The eight words of the state are the fields of `Words`, so a digest
has 32 bytes by construction (`sha256Final_length`).
-/

namespace SlcRtld.Auth

/-- The round constants `K`. -/
def roundConstants : List UInt32 := [
  0x428a2f98, 0x71374491, 0xb5c0fbcf, 0xe9b5dba5, 0x3956c25b, 0x59f111f1,
  0x923f82a4, 0xab1c5ed5, 0xd807aa98, 0x12835b01, 0x243185be, 0x550c7dc3,
  0x72be5d74, 0x80deb1fe, 0x9bdc06a7, 0xc19bf174, 0xe49b69c1, 0xefbe4786,
  0x0fc19dc6, 0x240ca1cc, 0x2de92c6f, 0x4a7484aa, 0x5cb0a9dc, 0x76f988da,
  0x983e5152, 0xa831c66d, 0xb00327c8, 0xbf597fc7, 0xc6e00bf3, 0xd5a79147,
  0x06ca6351, 0x14292967, 0x27b70a85, 0x2e1b2138, 0x4d2c6dfc, 0x53380d13,
  0x650a7354, 0x766a0abb, 0x81c2c92e, 0x92722c85, 0xa2bfe8a1, 0xa81a664b,
  0xc24b8b70, 0xc76c51a3, 0xd192e819, 0xd6990624, 0xf40e3585, 0x106aa070,
  0x19a4c116, 0x1e376c08, 0x2748774c, 0x34b0bcb5, 0x391c0cb3, 0x4ed8aa4a,
  0x5b9cca4f, 0x682e6ff3, 0x748f82ee, 0x78a5636f, 0x84c87814, 0x8cc70208,
  0x90befffa, 0xa4506ceb, 0xbef9a3f7, 0xc67178f2]

/-- The chaining value `h[8]`, and the working variables of a block. -/
structure Words where
  a : UInt32
  b : UInt32
  c : UInt32
  d : UInt32
  e : UInt32
  f : UInt32
  g : UInt32
  h : UInt32
deriving DecidableEq

/-- `sha256_t`, where the list `buf` holds the first `buflen` bytes of the buffer. -/
structure Sha256 where
  /-- The chaining value. -/
  h : Words
  /-- The number of bytes hashed so far. -/
  len : UInt64
  /-- The bytes that wait for a full block. -/
  buf : List UInt8

/-- The macro `ROTR`. -/
def rotr (x n : UInt32) : UInt32 := (x >>> n) ||| (x <<< (32 - n))

/-- The bytes of a block as big-endian words. -/
def blockWords : List UInt8 → List UInt32
  | a :: b :: c :: d :: rest =>
    ((a.toUInt32 <<< 24) ||| (b.toUInt32 <<< 16) ||| (c.toUInt32 <<< 8) ||| d.toUInt32)
      :: blockWords rest
  | _ => []

/-- The message schedule, `n` words further, with the newest word first: `w[i - k]` stands at
position `k - 1`. -/
def extendSchedule : ℕ → List UInt32 → List UInt32
  | 0, w => w
  | n + 1, w =>
    let w2 := w.getD 1 0
    let w7 := w.getD 6 0
    let w15 := w.getD 14 0
    let w16 := w.getD 15 0
    let s0 := rotr w15 7 ^^^ rotr w15 18 ^^^ (w15 >>> 3)
    let s1 := rotr w2 17 ^^^ rotr w2 19 ^^^ (w2 >>> 10)
    extendSchedule n ((w16 + s0 + w7 + s1) :: w)

/-- One round, with its constant and its schedule word. -/
def sha256Round (s : Words) (kw : UInt32 × UInt32) : Words :=
  let s1 := rotr s.e 6 ^^^ rotr s.e 11 ^^^ rotr s.e 25
  let ch := (s.e &&& s.f) ^^^ (~~~s.e &&& s.g)
  let t1 := s.h + s1 + ch + kw.1 + kw.2
  let s0 := rotr s.a 2 ^^^ rotr s.a 13 ^^^ rotr s.a 22
  let mj := (s.a &&& s.b) ^^^ (s.a &&& s.c) ^^^ (s.b &&& s.c)
  let t2 := s0 + mj
  ⟨t1 + t2, s.a, s.b, s.c, s.d + t1, s.e, s.f, s.g⟩

/-- `sha256_block`. -/
def sha256Block (h : Words) (p : List UInt8) : Words :=
  let w := (extendSchedule 48 (blockWords p).reverse).reverse
  let r := (roundConstants.zip w).foldl sha256Round h
  ⟨h.a + r.a, h.b + r.b, h.c + r.c, h.d + r.d, h.e + r.e, h.f + r.f, h.g + r.g, h.h + r.h⟩

/-- `sha256_init`. -/
def sha256Init : Sha256 :=
  ⟨⟨0x6a09e667, 0xbb67ae85, 0x3c6ef372, 0xa54ff53a, 0x510e527f, 0x9b05688c, 0x1f83d9ab,
    0x5be0cd19⟩, 0, []⟩

/-- The loop of `sha256_update`. A round takes at least one byte, so as many rounds as there are
bytes take them all. -/
def updateLoop : ℕ → Sha256 → List UInt8 → Sha256
  | 0, s, _ => s
  | _, s, [] => s
  | rounds + 1, s, p =>
    let take := min (64 - s.buf.length) p.length
    let buf := s.buf ++ p.take take
    if buf.length = 64 then
      updateLoop rounds { s with h := sha256Block s.h buf, buf := [] } (p.drop take)
    else updateLoop rounds { s with buf := buf } (p.drop take)

/-- `sha256_update`. -/
def sha256Update (s : Sha256) (p : List UInt8) : Sha256 :=
  updateLoop p.length { s with len := s.len + p.length.toUInt64 } p

/-- The padding loop of `sha256_final`: zero bytes until 56 bytes wait, which takes fewer than 64
rounds. -/
def padLoop : ℕ → Sha256 → Sha256
  | 0, s => s
  | rounds + 1, s => if s.buf.length = 56 then s else padLoop rounds (sha256Update s [0])

/-- The eight words of a chaining value as bytes. -/
def Words.bytes (h : Words) : List UInt8 :=
  [h.a, h.b, h.c, h.d, h.e, h.f, h.g, h.h].flatMap Libc.be32

/-- `sha256_final`. -/
def sha256Final (s : Sha256) : List UInt8 :=
  let bits := s.len * 8
  let padded := padLoop 64 (sha256Update s [0x80])
  let lb := (List.range 8).map fun i => (bits >>> (56 - 8 * i).toUInt64).toUInt8
  (sha256Update padded lb).h.bytes

/-- `sha256`. -/
def sha256 (p : List UInt8) : List UInt8 := sha256Final (sha256Update sha256Init p)

/-- `auth_hmac_sha256`. -/
def authHmacSha256 (key msg : List UInt8) : List UInt8 :=
  let k := if 64 < key.length then sha256 key else key
  let k := k ++ List.replicate (64 - k.length) 0
  let ipad := k.map (· ^^^ 0x36)
  let opad := k.map (· ^^^ 0x5c)
  let inner := sha256Final (sha256Update (sha256Update sha256Init ipad) msg)
  sha256Final (sha256Update (sha256Update sha256Init opad) inner)

/-- A digest has 32 bytes. -/
theorem sha256Final_length (s : Sha256) : (sha256Final s).length = 32 := rfl

/-- So has a code. -/
theorem authHmacSha256_length (key msg : List UInt8) : (authHmacSha256 key msg).length = 32 :=
  sha256Final_length _

end SlcRtld.Auth
