import SlcRtld.Auth.Sha256
import SlcRtld.Crypto.Fips180
import Mathlib.Tactic.Ring

/-!
# The hash is the standard one

`common/auth.c` hashes as the bytes come: it keeps a buffer of what does not fill a block,
compresses the buffer when it is full, and pads through the same update. `hashed m` is the state
that it is in when the message so far is `m`, whatever the parts it came in (`foldl_update`). The
compression function is the standard's (`sha256Block_eq`), and so are the padding and the digest
(`sha256Final_hashed`).
-/

namespace SlcRtld.Auth

/-! ## The compression function -/

/-- The chaining value as the standard's state. -/
def Words.state (h : Words) : Crypto.State := ⟨h.a, h.b, h.c, h.d, h.e, h.f, h.g, h.h⟩

/-- A word is four bytes, the high one first. -/
theorem word_eq (a b c d : UInt8) :
    (a.toUInt32 <<< 24) ||| (b.toUInt32 <<< 16) ||| (c.toUInt32 <<< 8) ||| d.toUInt32 =
      Crypto.wordOfBytes a b c d := by
  have ha := a.toNat_lt
  have hb := b.toNat_lt
  have hc := c.toNat_lt
  have hd := d.toNat_lt
  -- the bytes do not overlap, so that their bitwise or is a sum
  have h₁ : 2^24 * a.toNat ||| 2^16 * b.toNat = 2^16 * (2^8 * a.toNat + b.toNat) := by
    rw [← Nat.two_pow_add_eq_or_of_lt (by omega)]
    ring
  have h₂ : 2^16 * (2^8 * a.toNat + b.toNat) ||| 2^8 * c.toNat =
      2^8 * (2^8 * (2^8 * a.toNat + b.toNat) + c.toNat) := by
    rw [← Nat.two_pow_add_eq_or_of_lt (by omega)]
    ring
  apply UInt32.toNat_inj.mp
  simp only [UInt32.toNat_or, UInt32.toNat_shiftLeft, Nat.shiftLeft_eq, UInt8.toNat_toUInt32,
    UInt32.reduceToNat, Nat.reduceMod, Crypto.wordOfBytes, UInt32.toNat_ofNat']
  rw [Nat.mod_eq_of_lt (by omega), Nat.mod_eq_of_lt (by omega), Nat.mod_eq_of_lt (by omega),
    Nat.mul_comm a.toNat, Nat.mul_comm b.toNat, Nat.mul_comm c.toNat, h₁, h₂,
    ← Nat.two_pow_add_eq_or_of_lt hd]
  omega

/-- A block is read as its words. -/
theorem blockWords_eq (p : List UInt8) :
    blockWords p = (List.range (p.length / 4)).map (Crypto.blockWord p) := by
  induction p using blockWords.induct with
  | case1 a b c d rest ih =>
    have hlength : (a :: b :: c :: d :: rest).length / 4 = rest.length / 4 + 1 := by
      simp only [List.length_cons]
      omega
    rw [blockWords, hlength, List.range_succ_eq_map, List.map_cons, List.map_map, ih, word_eq]
    rfl
  | case2 p hp =>
    rw [blockWords, Nat.div_eq_of_lt, List.range_zero, List.map_nil]
    · match p with
      | [] | [_] | [_, _] | [_, _, _] => simp
      | a :: b :: c :: d :: rest => exact absurd rfl (hp a b c d rest)
    · exact hp

/-- The elements of a list that has been built backwards. -/
theorem reverse_map_range_getD {α : Type} (f : ℕ → α) (x : α) {m k : ℕ} (h : k < m) :
    ((List.range m).map f).reverse.getD k x = f (m - 1 - k) := by
  have hk : k < ((List.range m).map f).reverse.length := by simpa using h
  rw [List.getD_eq_getElem _ _ hk, List.getElem_reverse, List.getElem_map, List.getElem_range]
  simp

/-- The schedule goes on as the recurrence says. -/
theorem extendSchedule_eq (p : List UInt8) (n m : ℕ) (hm : 16 ≤ m) :
    extendSchedule n ((List.range m).map (Crypto.schedule p)).reverse =
      ((List.range (m + n)).map (Crypto.schedule p)).reverse := by
  induction n generalizing m with
  | zero => rfl
  | succ n ih =>
    have hnext : Crypto.schedule p m = Crypto.smallSigma1 (Crypto.schedule p (m - 2)) +
        Crypto.schedule p (m - 7) + Crypto.smallSigma0 (Crypto.schedule p (m - 15)) +
        Crypto.schedule p (m - 16) := by
      rw [Crypto.schedule, if_neg (by omega)]
    rw [extendSchedule, ← Nat.add_assoc, Nat.add_right_comm, ← ih (m + 1) (by omega),
      List.range_succ, List.map_append, List.reverse_append]
    refine congrArg (extendSchedule n) (congrArg (· :: _) ?_)
    rw [reverse_map_range_getD _ _ (by omega), reverse_map_range_getD _ _ (by omega),
      reverse_map_range_getD _ _ (by omega), reverse_map_range_getD _ _ (by omega), hnext]
    -- the source adds the same four words in another order
    show Crypto.schedule p (m - 16) + Crypto.smallSigma0 (Crypto.schedule p (m - 15)) +
        Crypto.schedule p (m - 7) + Crypto.smallSigma1 (Crypto.schedule p (m - 2)) = _
    ac_rfl

/-- The working variables after some rounds. -/
theorem foldl_sha256Round (p : List UInt8) (s : Words) (n : ℕ) :
    (((List.range n).map fun t => (Crypto.roundConstant t, Crypto.schedule p t)).foldl sha256Round
      s).state = Crypto.rounds p s.state n := by
  induction n with
  | zero => rfl
  | succ n ih =>
    rw [List.range_succ, List.map_append, List.foldl_append, Crypto.rounds, ← ih]
    rfl

/-- The constants of the source are those of the standard. -/
theorem roundConstants_eq : roundConstants = (List.range 64).map Crypto.roundConstant := by
  decide +kernel

/-- `sha256_block` is the standard's compression function. -/
theorem sha256Block_eq (h : Words) {p : List UInt8} (hp : p.length = 64) :
    (sha256Block h p).state = Crypto.compress h.state p := by
  have hw : (extendSchedule 48 (blockWords p).reverse).reverse =
      (List.range 64).map (Crypto.schedule p) := by
    have hfirst : blockWords p = (List.range 16).map (Crypto.schedule p) := by
      rw [blockWords_eq, hp]
      refine List.map_congr_left fun t ht => ?_
      rw [Crypto.schedule, if_pos (List.mem_range.mp ht)]
    rw [hfirst, extendSchedule_eq p 48 16 le_rfl, List.reverse_reverse]
  have hrounds := foldl_sha256Round p h 64
  rw [← List.zip_map', ← roundConstants_eq, ← hw] at hrounds
  rw [Crypto.compress, ← hrounds]
  rfl

/-! ## A message in parts -/

/-- The state in which a message of whole blocks and a rest has been taken in. -/
def hashed (m : List UInt8) : Sha256 where
  h := (Crypto.blocks 64 m).foldl sha256Block sha256Init.h
  len := m.length.toUInt64
  buf := Crypto.rest 64 m

/-- The bytes that wait for a whole block. -/
theorem hashed_buf_length (m : List UInt8) : (hashed m).buf.length = m.length % 64 :=
  Crypto.rest_length m

/-- The loop compresses what fills a block together with the buffer, and keeps the rest. -/
theorem updateLoop_eq (rounds : ℕ) (s : Sha256) (p : List UInt8) (hbuf : s.buf.length < 64)
    (hrounds : p.length ≤ rounds) :
    updateLoop rounds s p = ⟨(Crypto.blocks 64 (s.buf ++ p)).foldl sha256Block s.h, s.len,
      Crypto.rest 64 (s.buf ++ p)⟩ := by
  have hnil : ∀ s : Sha256, s.buf.length < 64 →
      s = ⟨(Crypto.blocks 64 (s.buf ++ [])).foldl sha256Block s.h, s.len,
        Crypto.rest 64 (s.buf ++ [])⟩ := fun s hs => by
    rw [List.append_nil, Crypto.blocks_of_lt hs, Crypto.rest_of_lt hs]
    rfl
  induction rounds generalizing s p with
  | zero =>
    obtain rfl := List.length_eq_zero_iff.mp (Nat.le_zero.mp hrounds)
    exact hnil s hbuf
  | succ rounds ih =>
    cases p with
    | nil => exact hnil s hbuf
    | cons b p =>
      rw [updateLoop]
      -- as much as the buffer has room for is taken in one round
      · generalize htake : min (64 - s.buf.length) (b :: p).length = take
        have hpos : 0 < (b :: p).length := Nat.succ_pos _
        have hlength : (s.buf ++ (b :: p).take take).length = s.buf.length + take := by
          rw [List.length_append, List.length_take, Nat.min_eq_left (by omega)]
        have hdrop : ((b :: p).drop take).length ≤ rounds := by
          rw [List.length_drop]
          omega
        have hsplit : s.buf ++ b :: p = s.buf ++ (b :: p).take take ++ (b :: p).drop take := by
          rw [List.append_assoc, List.take_append_drop]
        split_ifs with hfull
        · rw [ih _ _ (by exact Nat.zero_lt_succ 63) hdrop, hsplit, Crypto.blocks_append_block (by decide) hfull,
            Crypto.rest_append_block (by decide) hfull]
          rfl
        · -- the buffer is not full, so that nothing is left
          have hall : (b :: p).drop take = [] := List.drop_of_length_le (by omega)
          have hshort : (s.buf ++ (b :: p).take take).length < 64 := by omega
          rw [ih _ _ hshort hdrop, hsplit, hall]
      · exact nofun

/-- Hashing a part after another is hashing both. -/
theorem sha256Update_hashed (m p : List UInt8) : sha256Update (hashed m) p = hashed (m ++ p) := by
  have hbuf : (hashed m).buf.length < 64 := by
    rw [hashed_buf_length]
    exact Nat.mod_lt _ (by decide)
  have hlen : m.length.toUInt64 + p.length.toUInt64 = (m ++ p).length.toUInt64 := by
    rw [List.length_append]
    exact (UInt64.ofNat_add _ _).symm
  rw [sha256Update, updateLoop_eq p.length _ p (by exact hbuf) le_rfl]
  simp only [hashed, Crypto.foldl_blocks_append (by decide : 0 < 64) sha256Block _ m p,
    Crypto.rest_append (by decide : 0 < 64) m p, hlen]

/-- The state depends on the bytes alone, not on the parts that they come in. -/
theorem foldl_update (ps : List (List UInt8)) :
    ps.foldl sha256Update sha256Init = hashed ps.flatten := by
  have hgo : ∀ m, ps.foldl sha256Update (hashed m) = hashed (m ++ ps.flatten) := by
    induction ps with
    | nil => intro m; rw [List.foldl_nil, List.flatten_nil, List.append_nil]
    | cons p ps ih =>
      intro m
      rw [List.foldl_cons, sha256Update_hashed, ih, List.flatten_cons, List.append_assoc]
  exact hgo []

/-! ## Padding -/

/-- The padding loop ends as soon as the length is 56 modulo 64. -/
theorem padLoop_hashed (m : List UInt8) {k rounds : ℕ} (hk : (m.length + k) % 64 = 56)
    (hleast : k < 64) (hrounds : k ≤ rounds) :
    padLoop rounds (hashed m) = hashed (m ++ List.replicate k 0) := by
  induction k generalizing m rounds with
  | zero =>
    rw [List.replicate_zero, List.append_nil]
    cases rounds with
    | zero => rfl
    | succ rounds => rw [padLoop, if_pos (by rw [hashed_buf_length]; exact hk)]
  | succ k ih =>
    obtain ⟨rounds, rfl⟩ := Nat.exists_eq_succ_of_ne_zero (by omega : rounds ≠ 0)
    have hgo : ¬ (hashed m).buf.length = 56 := by
      rw [hashed_buf_length]
      omega
    rw [padLoop, if_neg hgo, sha256Update_hashed,
      ih (m ++ [0]) (by rw [List.length_append, List.length_singleton]; omega) (by omega) (by omega),
      List.append_assoc, List.replicate_succ]
    rfl

/-- The padding that the standard asks for is what the loop leaves room for. -/
theorem padLoop_eq (m : List UInt8) : padLoop 64 (sha256Update (hashed m) [0x80]) =
    hashed (m ++ 0x80 :: List.replicate (Crypto.padZeros m.length) 0) := by
  rw [sha256Update_hashed, padLoop_hashed (m ++ [0x80]) (k := Crypto.padZeros m.length),
    List.append_assoc]
  · rfl
  · rw [List.length_append, List.length_singleton, Crypto.padZeros]
    omega
  · exact Nat.mod_lt _ (by decide)
  · exact (Nat.mod_lt _ (by decide)).le

/-- A byte of the bit count, as it is shifted out. -/
theorem bitCount_byte (n : ℕ) {j : ℕ} (hj : j ≤ 56) :
    ((n.toUInt64 * 8) >>> j.toUInt64).toUInt8 = UInt8.ofNat (8 * n / 2^j) := by
  have hcount : (n.toUInt64 * 8).toNat = 8 * n % 2^64 := by
    rw [UInt64.toNat_mul, UInt64.toNat_ofNat']
    show n % 2^64 * 8 % 2^64 = _
    omega
  have hshift : j.toUInt64.toNat % 64 = j := by
    rw [UInt64.toNat_ofNat']
    omega
  apply UInt8.toNat_inj.mp
  rw [UInt64.toNat_toUInt8, UInt64.toNat_shiftRight, hcount, hshift, UInt8.toNat_ofNat',
    Nat.shiftRight_eq_div_pow]
  -- the byte lies below the 64 bits that the count keeps
  obtain ⟨k, hk⟩ : ∃ k, 2^64 = 2^j * (2^8 * k) := ⟨2^(56 - j), by
    rw [← Nat.pow_add, ← Nat.pow_add]
    congr 1
    omega⟩
  rw [hk, Nat.mod_mul_right_div_self, Nat.mod_mul_right_mod]

/-- The bytes that `sha256_final` shifts out of the bit count are those of the length field. -/
theorem lengthField_eq (n : ℕ) :
    ((List.range 8).map fun i => ((n.toUInt64 * 8) >>> (56 - 8 * i).toUInt64).toUInt8) =
      Crypto.bytesOf 8 (8 * n) := by
  have hbyte : ∀ i ∈ List.range 8, ((n.toUInt64 * 8) >>> (56 - 8 * i).toUInt64).toUInt8 =
      UInt8.ofNat (8 * n / 2^(56 - 8 * i)) := fun i _ => bitCount_byte n (by omega)
  rw [List.map_congr_left hbyte]
  rfl

/-- A word is written as its bytes. -/
theorem be32_eq (w : UInt32) : Libc.be32 w = Crypto.bytesOf 4 w.toNat := by
  have hbyte : ∀ j : ℕ, j < 32 → (w >>> UInt32.ofNat j).toUInt8 = UInt8.ofNat (w.toNat / 2^j) := by
    intro j hj
    apply UInt8.toNat_inj.mp
    rw [UInt32.toNat_toUInt8, UInt32.toNat_shiftRight, UInt8.toNat_ofNat', UInt32.toNat_ofNat',
      Nat.shiftRight_eq_div_pow]
    congr 3
    omega
  have hlast : w.toUInt8 = UInt8.ofNat (w.toNat / 2^0) := by
    rw [Nat.pow_zero, Nat.div_one]
    apply UInt8.toNat_inj.mp
    rw [UInt32.toNat_toUInt8, UInt8.toNat_ofNat']
  rw [Libc.be32, hlast]
  exact congrArg₂ _ (hbyte 24 (by decide)) (congrArg₂ _ (hbyte 16 (by decide))
    (congrArg (· :: _) (hbyte 8 (by decide))))

/-- The initial state of the source is that of the standard. -/
theorem initial_eq : sha256Init.h.state = Crypto.initial := by decide +kernel

/-- The chaining value of a message is the standard's. -/
theorem hashed_state (m : List UInt8) :
    (hashed m).h.state = (Crypto.blocks 64 m).foldl Crypto.compress Crypto.initial := by
  have hfold : ∀ (bs : List (List UInt8)) (h : Words), (∀ b ∈ bs, b.length = 64) →
      (bs.foldl sha256Block h).state = bs.foldl Crypto.compress h.state := by
    intro bs
    induction bs with
    | nil => exact fun _ _ => rfl
    | cons b bs ih =>
      intro h hbs
      obtain ⟨hb, hrest⟩ := List.forall_mem_cons.mp hbs
      rw [List.foldl_cons, List.foldl_cons, ih _ hrest, sha256Block_eq h hb]
  rw [← initial_eq]
  exact hfold _ _ fun _ => Crypto.length_of_mem_blocks

/-- What `sha256_final` returns for a message that has been taken in. -/
theorem sha256Final_hashed (m : List UInt8) : sha256Final (hashed m) = Crypto.sha256 m := by
  have hpad : m ++ 0x80 :: List.replicate (Crypto.padZeros m.length) 0 ++
      Crypto.bytesOf 8 (8 * m.length) = Crypto.pad m := by
    rw [List.append_assoc]
    rfl
  have hbytes : ∀ h : Words, h.bytes = h.state.words.flatMap fun w => Crypto.bytesOf 4 w.toNat :=
    fun h => congrArg (h.state.words.flatMap ·) (funext be32_eq)
  have hfield : ((List.range 8).map fun i =>
      (((hashed m).len * 8) >>> (56 - 8 * i).toUInt64).toUInt8) = Crypto.bytesOf 8 (8 * m.length) :=
    lengthField_eq m.length
  rw [sha256Final, hfield, padLoop_eq, sha256Update_hashed, hpad, hbytes, hashed_state, Crypto.sha256]

/-- `auth_hmac_sha256` is the standard's function. -/
theorem authHmacSha256_eq (key msg : List UInt8) :
    authHmacSha256 key msg = Crypto.hmac Crypto.sha256 key msg := by
  have hsha : ∀ m, sha256 m = Crypto.sha256 m := fun m => by
    rw [sha256, show sha256Init = hashed [] from rfl, sha256Update_hashed, sha256Final_hashed,
      List.nil_append]
  have htwo : ∀ a b, sha256Final (sha256Update (sha256Update sha256Init a) b) =
      Crypto.sha256 (a ++ b) := fun a b => by
    rw [show sha256Init = hashed [] from rfl, sha256Update_hashed, sha256Update_hashed,
      sha256Final_hashed, List.nil_append]
  rw [authHmacSha256, Crypto.hmac, htwo, htwo, hsha]

/-- The keyed hash is HMAC-SHA256, for every key and message; a message that is hashed in parts
gives the digest of the whole, and the padding loop ends. -/
theorem hmac_sha256_is_standard :
    (∀ key msg, authHmacSha256 key msg = Crypto.hmac Crypto.sha256 key msg) ∧
    ∀ ps : List (List UInt8),
      sha256Final (ps.foldl sha256Update sha256Init) = Crypto.sha256 ps.flatten ∧
      (padLoop 64 (sha256Update (ps.foldl sha256Update sha256Init) [0x80])).buf.length = 56 := by
  refine ⟨authHmacSha256_eq, fun ps => ?_⟩
  rw [foldl_update, padLoop_eq, hashed_buf_length]
  refine ⟨sha256Final_hashed _, ?_⟩
  rw [List.length_append, List.length_cons, List.length_replicate, Crypto.padZeros]
  omega

end SlcRtld.Auth
