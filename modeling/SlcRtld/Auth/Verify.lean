import SlcRtld.Auth.Sha256
import SlcRtld.Libc.Text
import Mathlib.Tactic.SplitIfs

/-!
# Challenge and response

`auth_make_nonce` and `auth_verify` of `common/auth.c`. A nonce is drawn by as many calls of
`getrandom` as it takes; the outcomes of the calls are given as a list, and a list that ends before
the loop does stands for a call that never returns. `authVerify_iff` says what a response has to be
for `auth_verify` to accept it: the comparison that takes the same time for every input is an
equality of bytes (`ctEqual_iff`).
-/

namespace SlcRtld.Auth

/-- `AUTH_METHOD_PSK`. -/
def authMethodPsk : CStr := bytes "psk-hmac-sha256"

/-- `AUTH_NONCE_BYTES`. -/
def authNonceBytes : ℕ := 16

/-- `AUTH_KEY_ID_MAX`. -/
def authKeyIdMax : ℕ := 64

/-- `auth_key_t`. -/
structure Key where
  /-- The name that a client asks for the key by. -/
  keyId : CStr
  /-- The shared secret. -/
  psk : CStr
deriving DecidableEq

/-- What one call of `getrandom` did. -/
inductive GetRandom where
  /-- It wrote some bytes. -/
  | got (bs : List UInt8)
  /-- It was interrupted. -/
  | eintr
  /-- It failed with another error. -/
  | fail

/-- The loop of `auth_make_nonce` after `got` bytes: whether a nonce was made, and the buffer. -/
def makeNonceLoop : List GetRandom → ℕ → List UInt8 → Option (Bool × List UInt8)
  | [], got, raw => if authNonceBytes ≤ got then some (true, raw) else none
  | o :: os, got, raw =>
    if authNonceBytes ≤ got then some (true, raw)
    else match o with
      | .got bs =>
        let bs := bs.take (authNonceBytes - got)
        makeNonceLoop os (got + bs.length) (raw.take got ++ bs ++ raw.drop (got + bs.length))
      | .eintr => makeNonceLoop os got raw
      | .fail => some (false, raw)

/-- `auth_make_nonce` into a buffer. -/
def authMakeNonce (os : List GetRandom) (raw : List UInt8) : Option (Bool × List UInt8) :=
  makeNonceLoop os 0 raw

/-- `auth_hex`. -/
def authHex (bs : List UInt8) : CStr := bs.flatMap Libc.fmtHexByte

/-- `ct_equal`: no difference in any byte. -/
def ctEqual (a b : List UInt8) : Bool :=
  (a.zip b).foldl (fun acc p => acc ||| (p.1 ^^^ p.2)) 0 = 0

/-- The loop of `auth_verify` that decodes a response, in either letter case. -/
def readHex : List UInt8 → Option (List UInt8)
  | [] => some []
  | [_] => none
  | hi :: lo :: rest => do
    let h ← Libc.hexDigit hi
    let l ← Libc.hexDigit lo
    let bs ← readHex rest
    return (h * 16 + l).toUInt8 :: bs

/-- `auth_verify`. -/
def authVerify (keys : List Key) (keyId : CStr) (nonce : List UInt8) (response : CStr) : Bool :=
  if keys.isEmpty || response.length ≠ 64 then false
  else match readHex response with
    | none => false
    | some given =>
      keys.foldl (fun ok k =>
        if k.keyId ≠ keyId then ok else ok || ctEqual (authHmacSha256 k.psk nonce) given) false

/-! ## What is accepted -/

/-- Two digits for each byte. -/
theorem readHex_length {s bs : List UInt8} (h : readHex s = some bs) :
    s.length = 2 * bs.length := by
  induction s using readHex.induct generalizing bs with
  | case1 =>
    obtain rfl := Option.some.inj h
    rfl
  | case2 => simp [readHex] at h
  | case3 hi lo rest ih =>
    simp only [readHex, Option.bind_eq_bind, Option.bind_eq_some_iff, Option.pure_def,
      Option.some.injEq] at h
    obtain ⟨-, -, -, -, bs', hbs', rfl⟩ := h
    simp only [List.length_cons, ih hbs']
    omega

/-- Bytes whose differences have been gathered into `acc` leave it zero when it was zero and all
of them are equal. -/
theorem foldl_xor_eq_zero (ps : List (UInt8 × UInt8)) (acc : UInt8) :
    ps.foldl (fun acc p => acc ||| (p.1 ^^^ p.2)) acc = 0 ↔
      acc = 0 ∧ ∀ p ∈ ps, p.1 = p.2 := by
  induction ps generalizing acc with
  | nil => simp
  | cons p ps ih =>
    rw [List.foldl_cons, ih, List.forall_mem_cons, ← and_assoc]
    refine and_congr_left fun _ => ?_
    have hor : ∀ x y : UInt8, x ||| y = 0 ↔ x = 0 ∧ y = 0 := by
      intro x y
      simp only [← UInt8.toBitVec_inj, UInt8.toBitVec_or, UInt8.toBitVec_zero]
      exact BitVec.or_eq_zero_iff
    rw [hor, UInt8.xor_eq_zero_iff]

/-- `ct_equal` is equality of buffers of one length. -/
theorem ctEqual_iff {a b : List UInt8} (h : a.length = b.length) : ctEqual a b = true ↔ a = b := by
  unfold ctEqual
  rw [decide_eq_true_eq, foldl_xor_eq_zero]
  constructor
  · rintro ⟨-, hall⟩
    refine List.ext_getElem h fun n h₁ h₂ => ?_
    have hmem : (a[n], b[n]) ∈ a.zip b :=
      List.mem_iff_getElem.mpr ⟨n, by simp [h₁, h₂], by simp⟩
    exact hall _ hmem
  · rintro rfl
    refine ⟨rfl, fun p hp => ?_⟩
    obtain ⟨n, hn, rfl⟩ := List.mem_iff_getElem.mp hp
    simp

/-- The accumulation over the keys finds whether one of them matches. -/
theorem foldl_or_eq_true {α : Type} (skip : α → Prop) [DecidablePred skip] (f : α → Bool)
    (l : List α) (acc : Bool) :
    l.foldl (fun ok k => if skip k then ok else ok || f k) acc = true ↔
      acc = true ∨ ∃ k ∈ l, ¬ skip k ∧ f k = true := by
  induction l generalizing acc with
  | nil => simp
  | cons k l ih =>
    rw [List.foldl_cons, ih]
    by_cases hk : skip k <;> simp [hk, or_assoc]

/-- `auth_verify` accepts the 64 digits that encode the MAC of the nonce under a key with the
name that was asked for, and nothing else. -/
theorem authVerify_iff (keys : List Key) (keyId : CStr) (nonce : List UInt8) (response : CStr) :
    authVerify keys keyId nonce response = true ↔
      response.length = 64 ∧ ∃ k ∈ keys, k.keyId = keyId ∧
        readHex response = some (authHmacSha256 k.psk nonce) := by
  unfold authVerify
  by_cases hlen : response.length = 64
  · cases hhex : readHex response with
    | none => simp
    | some given =>
      have hgiven : given.length = 32 := by
        have := readHex_length hhex
        omega
      have hct : ∀ k : Key, ctEqual (authHmacSha256 k.psk nonce) given = true ↔
          given = authHmacSha256 k.psk nonce := fun k =>
        (ctEqual_iff (by rw [authHmacSha256_length, hgiven])).trans eq_comm
      cases keys with
      | nil => simp
      | cons k ks =>
        simp only [List.isEmpty_cons, hlen, ne_eq, not_true_eq_false, decide_false, Bool.or_self,
          Bool.false_eq_true, if_false, foldl_or_eq_true, not_not, hct, false_or, true_and,
          Option.some.injEq]
  · simp [hlen]

end SlcRtld.Auth
