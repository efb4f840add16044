import SlcRtld.Vita.Table

/-!
# The IF Data stream

What a receiver gets from one stream: the IF Data packets sent for its slot are the bytes delivered
by the USB callbacks since the stream was added, cut into pieces of 512, one packet a piece and none
lost, with the count and the time stamp of the piece's position. The bytes are one list, so how the
USB transfers cut them does not show.

The slot keeps two counters, the packet count modulo 16 and the sample count, and each is a function
of the number of packets sent so far (`Carries`). A step of the slot keeps this relation, and a run
sends the packets that the relation fixes (`run_carries`). The stamp is exact because the fraction
of a second is at most `R - 1` samples, and `(R - 1) * 10^12` stays below `2^64` for every rate that
the hardware has.
-/

namespace SlcRtld.Vita

open Libc Rtl

/-- The seconds stamp of the packet with a number. -/
def tsiAt (p : StreamParams) (k : ℕ) : UInt32 :=
  p.time + (if p.rateSps ≠ 0 then (256 * k).toUInt64 / p.rateSps else 0).toUInt32

/-- The picoseconds stamp of the packet with a number. -/
def picosAt (p : StreamParams) (k : ℕ) : UInt64 :=
  if p.rateSps ≠ 0 then ((256 * k).toUInt64 % p.rateSps) * 1000000000000 / p.rateSps else 0

/-- The packet with a number, on the samples that begin a list of bytes. -/
def nthPacket (p : StreamParams) (k : ℕ) (bs : List UInt8) : List UInt8 :=
  vitaBuildIfDataPacket p.vitaStreamId (k % 16).toUInt8 (tsiAt p k) (picosAt p k) (bs.take 512)
    vitaSamplesPerPkt .u8

/-- The packets from a number on, made of a list of bytes. -/
def packetsFrom (p : StreamParams) : ℕ → ℕ → List UInt8 → List (List UInt8)
  | 0, _, _ => []
  | m + 1, n, bs => nthPacket p n bs :: packetsFrom p m (n + 1) (bs.drop 512)

/-- The bytes that the callbacks among the operations deliver. -/
def delivered : List VitaOp → List UInt8
  | [] => []
  | .callback buf :: os => buf ++ delivered os
  | _ :: os => delivered os

/-- The instant, in picoseconds, that the first sample of the packet with a number is due. -/
def stamp (p : StreamParams) (k : ℕ) : ℕ :=
  p.time.toNat * 10^12 + 256 * k * 10^12 / p.rateSps.toNat

/-! ## The counters of the slot -/

/-- The slot belongs to the stream with the parameters `p`, and has sent `n` IF Data packets. -/
structure Carries (p : StreamParams) (n : ℕ) (s : Slot) : Prop where
  vitaStreamId : s.vitaStreamId = p.vitaStreamId
  fmt : s.fmt = .u8
  epoch : s.epochAtStart = p.time
  rate : s.rateHzAnchor = p.rateSps
  samples : s.sampleCount = (256 * n).toUInt64
  count : s.ifPktCount = (n % 16).toUInt8

variable {p : StreamParams} {n : ℕ} {s : Slot}

/-- The counter of the packets goes on modulo 16. -/
theorem count_succ (n : ℕ) : ((n % 16).toUInt8 + 1) &&& 0xF = ((n + 1) % 16).toUInt8 := by
  have hfin : ∀ c : Fin 16, (c.val.toUInt8 + 1) &&& 0xF = ((c.val + 1) % 16).toUInt8 := by decide
  have h := hfin ⟨n % 16, Nat.mod_lt _ (by norm_num)⟩
  rw [show (n + 1) % 16 = (n % 16 + 1) % 16 by omega]
  exact h

/-- The counter of the samples goes on by 256. -/
theorem samples_succ (n : ℕ) :
    (256 * n).toUInt64 + vitaSamplesPerPkt.toUInt64 = (256 * (n + 1)).toUInt64 := by
  rw [Nat.mul_succ]
  exact (UInt64.ofNat_add _ _).symm

/-- One round of the build loop makes the next packet. -/
theorem sendChunk_carries (h : Carries p n s) (chunk : List UInt8) :
    Carries p (n + 1) (s.sendChunk chunk).1 ∧ (s.sendChunk chunk).2 = nthPacket p n chunk := by
  obtain ⟨hid, hfmt, hepoch, hrate, hsamples, hcount⟩ := h
  constructor
  · refine ⟨hid, hfmt, hepoch, hrate, ?_, ?_⟩
    · rw [← samples_succ, ← hsamples]
      rfl
    · rw [← count_succ, ← hcount]
      rfl
  · simp only [Slot.sendChunk, nthPacket, Slot.tsi, Slot.picos, tsiAt, picosAt, hid, hfmt, hepoch,
      hrate, hsamples, hcount, vitaBuildIfDataPacket, ifDataPayload, List.take_take]
    rfl

/-- The build loop makes the next packets, from the bytes of the buffer in order. -/
theorem sendChunks_carries (m : ℕ) (chunk : List UInt8) (h : Carries p n s) :
    Carries p (n + m) (s.sendChunks m chunk).1 ∧
      (s.sendChunks m chunk).2 = packetsFrom p m n chunk := by
  induction m generalizing n s chunk with
  | zero => exact ⟨h, rfl⟩
  | succ m ih =>
    obtain ⟨h', hpkt⟩ := sendChunk_carries h chunk
    obtain ⟨hend, hpkts⟩ := ih (chunk.drop 512) h'
    rw [Nat.add_right_comm] at hend
    refine ⟨hend, ?_⟩
    simp only [Slot.sendChunks, packetsFrom]
    exact congrArg₂ List.cons hpkt hpkts

/-! ## The packets as a list -/

/-- The packets of two runs of samples. -/
theorem packetsFrom_append (p : StreamParams) (m m' n : ℕ) (bs bs' : List UInt8)
    (h : bs.length = 512 * m) :
    packetsFrom p (m + m') n (bs ++ bs') =
      packetsFrom p m n bs ++ packetsFrom p m' (n + m) bs' := by
  induction m generalizing n bs with
  | zero =>
    obtain rfl : bs = [] := List.eq_nil_of_length_eq_zero (by omega)
    simp [packetsFrom]
  | succ m ih =>
    have hle : 512 ≤ bs.length := by omega
    have hdrop : (bs.drop 512).length = 512 * m := by
      rw [List.length_drop]
      omega
    have hhead : nthPacket p n (bs ++ bs') = nthPacket p n bs := by
      rw [nthPacket, nthPacket, List.take_append_of_le_length hle]
    rw [Nat.add_right_comm, packetsFrom, packetsFrom, List.drop_append_of_le_length hle,
      ih (n + 1) (bs.drop 512) hdrop, hhead, List.cons_append, Nat.add_right_comm n 1 m]
    rfl

/-- As many packets as there are runs of samples. -/
theorem packetsFrom_length (p : StreamParams) (m n : ℕ) (bs : List UInt8) :
    (packetsFrom p m n bs).length = m := by
  induction m generalizing n bs with
  | zero => rfl
  | succ m ih => rw [packetsFrom, List.length_cons, ih]

/-- The packet at a place. -/
theorem packetsFrom_getElem? (p : StreamParams) {m n k : ℕ} {bs pkt : List UInt8}
    (h : (packetsFrom p m n bs)[k]? = some pkt) :
    pkt = nthPacket p (n + k) (bs.drop (512 * k)) := by
  induction m generalizing n k bs with
  | zero => simp [packetsFrom] at h
  | succ m ih =>
    cases k with
    | zero => simpa [packetsFrom] using h.symm
    | succ k =>
      rw [packetsFrom, List.getElem?_cons_succ] at h
      rw [ih h, List.drop_drop, Nat.add_right_comm n 1 k, Nat.mul_succ, Nat.add_comm 512]
      rfl

/-- The payloads of the packets put the bytes together again. -/
theorem flatMap_payloadOf (p : StreamParams) (m n : ℕ) (bs : List UInt8)
    (h : bs.length = 512 * m) : (packetsFrom p m n bs).flatMap payloadOf = bs := by
  induction m generalizing n bs with
  | zero => exact (List.eq_nil_of_length_eq_zero (by omega)).symm
  | succ m ih =>
    have hdrop : (bs.drop 512).length = 512 * m := by
      rw [List.length_drop]
      omega
    have hpayload : payloadOf (nthPacket p n bs) = bs.take 512 := by
      rw [nthPacket, (ifData_fields _ _ _ _ _).payload, List.take_take]
      rfl
    rw [packetsFrom, List.flatMap_cons, ih _ _ hdrop, hpayload, List.take_append_drop]

/-- All of them are data packets. -/
theorem packetsFrom_isIfData (p : StreamParams) (m n : ℕ) (bs : List UInt8) :
    (packetsFrom p m n bs).filter isIfData = packetsFrom p m n bs := by
  induction m generalizing n bs with
  | zero => rfl
  | succ m ih =>
    have htype : isIfData (nthPacket p n bs) = true := by
      rw [isIfData, nthPacket, (ifData_fields _ _ _ _ _).type]
      rfl
    rw [packetsFrom, List.filter_cons_of_pos htype, ih]

/-! ## Runs -/

/-- A USB buffer of whole packets that fits into one burst. -/
def WholeBuffer (buf : List UInt8) : Prop :=
  buf ≠ [] ∧ 512 ∣ buf.length ∧ buf.length ≤ 1024 * 512

/-- A whole buffer is a number of packets. -/
theorem numPkts_of_wholeBuffer {buf : List UInt8} (h : WholeBuffer buf) :
    buf.length = 512 * numPkts buf := by
  obtain ⟨-, ⟨c, hc⟩, hle⟩ := h
  simp only [numPkts, vitaSamplesPerPkt, vitaMmsgMaxPkts]
  omega

/-- Over a run, the slot sends the packets of the delivered bytes, and knows how many it sent. -/
theorem run_carries (i : VitaId) (ce : Bool) (os : List VitaOp) (h : Carries p n s)
    (hbuf : ∀ buf, .callback buf ∈ os → WholeBuffer buf) :
    ∃ m, (delivered os).length = 512 * m ∧
      Carries p (n + m) (s.run ce (os.flatMap (·.eventAt i))).1 ∧
      (s.run ce (os.flatMap (·.eventAt i))).2.filter isIfData =
        packetsFrom p m n (delivered os) := by
  induction os generalizing n s with
  | nil => exact ⟨0, rfl, h, rfl⟩
  | cons o os ih =>
    have hbuf' : ∀ buf, .callback buf ∈ os → WholeBuffer buf :=
      fun buf hmem => hbuf buf (List.mem_cons_of_mem _ hmem)
    -- an operation that delivers no bytes leaves the counters alone and sends no IF Data packet
    have hquiet : ∀ es : List SlotEvent, Carries p n (s.run ce es).1 →
        (s.run ce es).2.filter isIfData = [] →
        ∃ m, (delivered os).length = 512 * m ∧
          Carries p (n + m) (s.run ce (es ++ os.flatMap (·.eventAt i))).1 ∧
          (s.run ce (es ++ os.flatMap (·.eventAt i))).2.filter isIfData =
            packetsFrom p m n (delivered os) := by
      intro es hes hnone
      obtain ⟨m, hlen, hcar, hpkts⟩ := ih hes hbuf'
      refine ⟨m, hlen, ?_, ?_⟩
      · rw [Slot.run_append]
        exact hcar
      · rw [Slot.run_append, List.filter_append, hnone, hpkts, List.nil_append]
    have hcontext : ∀ gain, Carries p n (s.run ce [.context gain]).1 ∧
        (s.run ce [.context gain]).2.filter isIfData = [] := by
      intro gain
      cases ce with
      | false => exact ⟨h, rfl⟩
      | true =>
        refine ⟨⟨h.vitaStreamId, h.fmt, h.epoch, h.rate, h.samples, h.count⟩, ?_⟩
        simp [Slot.run, Slot.step, Slot.sendContext, isIfData, (context_fields _ _ _ _ _).type]
    cases o with
    | add q => exact hquiet [] h rfl
    | remove token => exact hquiet [] h rfl
    | contextAll gain => exact hquiet [.context gain] (hcontext gain).1 (hcontext gain).2
    | contextPacket token gain =>
      rw [List.flatMap_cons, VitaOp.eventAt]
      split_ifs
      · exact hquiet [.context gain] (hcontext gain).1 (hcontext gain).2
      · exact hquiet [] h rfl
    | updatePayloadFormat w =>
      exact hquiet [.payloadFormat w]
        ⟨h.vitaStreamId, h.fmt, h.epoch, h.rate, h.samples, h.count⟩ rfl
    | callback buf =>
      have hlen := numPkts_of_wholeBuffer (hbuf buf List.mem_cons_self)
      obtain ⟨hcar, hpkts⟩ := sendChunks_carries (numPkts buf) buf h
      obtain ⟨m, hlen', hcar', hpkts'⟩ := ih hcar hbuf'
      refine ⟨numPkts buf + m, ?_, ?_, ?_⟩
      · rw [delivered, List.length_append, hlen, hlen']
        ring
      · rw [← Nat.add_assoc]
        exact hcar'
      · rw [delivered, packetsFrom_append p _ _ _ _ _ hlen, ← hpkts', ← packetsFrom_isIfData,
          ← hpkts, ← List.filter_append]
        rfl

/-! ## The stamps -/

section Stamps

variable {k : ℕ} (hk : 256 * k < 2^64) (hpos : 1 ≤ p.rateSps.toNat)
include hk hpos

/-- The two stamps of a packet, as the machine computes them, on natural numbers. The product
`(sc % R) * 10^12` does not wrap. -/
theorem stamps_toNat (hmax : p.rateSps.toNat ≤ 18446744) :
    (tsiAt p k).toNat = (p.time.toNat + 256 * k / p.rateSps.toNat) % 2^32 ∧
      (picosAt p k).toNat = 256 * k % p.rateSps.toNat * 10^12 / p.rateSps.toNat := by
  have hrate : p.rateSps ≠ 0 := by
    intro h0
    rw [h0] at hpos
    exact absurd hpos (by decide)
  have hsc : (256 * k).toUInt64.toNat = 256 * k := UInt64.toNat_ofNat_of_lt' hk
  have hmod : 256 * k % p.rateSps.toNat < p.rateSps.toNat := Nat.mod_lt _ hpos
  have hnowrap : 256 * k % p.rateSps.toNat * 10^12 < 2^64 := by omega
  constructor
  · rw [tsiAt, if_pos hrate, UInt32.toNat_add, UInt64.toNat_toUInt32, UInt64.toNat_div, hsc]
    omega
  · have hmul : ((256 * k).toUInt64 % p.rateSps * 1000000000000).toNat =
        256 * k % p.rateSps.toNat * 10^12 := by
      rw [UInt64.toNat_mul, UInt64.toNat_mod, hsc]
      exact Nat.mod_eq_of_lt hnowrap
    rw [picosAt, if_pos hrate, UInt64.toNat_div, hmul]

omit hk in
/-- Whole seconds and the fraction of a second add up to the instant of the packet. -/
theorem stamp_split : (p.time.toNat + 256 * k / p.rateSps.toNat) * 10^12 +
    256 * k % p.rateSps.toNat * 10^12 / p.rateSps.toNat = stamp p k := by
  have hsplit : 256 * k * 10^12 = p.rateSps.toNat * (256 * k / p.rateSps.toNat * 10^12) +
      256 * k % p.rateSps.toNat * 10^12 := by
    calc 256 * k * 10^12
        = (p.rateSps.toNat * (256 * k / p.rateSps.toNat) + 256 * k % p.rateSps.toNat) * 10^12 := by
          rw [Nat.div_add_mod]
      _ = _ := by ring
  rw [stamp, hsplit, Nat.mul_add_div hpos]
  ring

omit hk in
/-- The fraction of a second is below one second. -/
theorem picos_lt : 256 * k % p.rateSps.toNat * 10^12 / p.rateSps.toNat < 10^12 :=
  Nat.div_lt_of_lt_mul
    (Nat.mul_lt_mul_of_pos_right (Nat.mod_lt _ hpos) (by norm_num))

omit hk in
/-- Two packets in a row are `256 * 10^12 / R` apart, rounded down or up. -/
theorem stamp_succ : stamp p (k + 1) = stamp p k + 256 * 10^12 / p.rateSps.toNat ∨
    stamp p (k + 1) =
      stamp p k + (256 * 10^12 + p.rateSps.toNat - 1) / p.rateSps.toNat := by
  set R := p.rateSps.toNat with hR
  have hsum : 256 * (k + 1) * 10^12 = 256 * k * 10^12 + 256 * 10^12 := by ring
  have hadd := Nat.add_div (a := 256 * k * 10^12) (b := 256 * 10^12) (c := R) hpos
  simp only [stamp, ← hR, hsum]
  by_cases hdvd : 256 * 10^12 % R = 0
  · left
    rw [hadd, hdvd, Nat.add_zero, if_neg (Nat.not_le.mpr (Nat.mod_lt _ hpos))]
    ring
  · have hceil : (256 * 10^12 + R - 1) / R = 256 * 10^12 / R + 1 := by
      have hdm := Nat.div_add_mod (256 * 10^12) R
      have hlt := Nat.mod_lt (256 * 10^12) hpos
      rw [Nat.div_eq_of_lt_le]
      · rw [Nat.add_mul, Nat.mul_comm (256 * 10^12 / R) R]
        omega
      · rw [Nat.add_mul, Nat.add_mul, Nat.mul_comm (256 * 10^12 / R) R]
        omega
    by_cases hcarry : R ≤ 256 * k * 10^12 % R + 256 * 10^12 % R
    · right
      rw [hadd, if_pos hcarry, hceil]
      ring
    · left
      rw [hadd, if_neg hcarry]
      ring

end Stamps

/-! ## The law of the stream -/

/-- The IF Data packets that operations after the start of a stream send for it. -/
def ifDataPkts (v : Table) (p : StreamParams) (i : VitaId) (os : List VitaOp) :
    List (List UInt8) :=
  (pktsOf i ((vitaSessionAdd p v).2.1.run os).2).filter isIfData

/-- The packets of a stream are those of the bytes delivered since it was added. -/
theorem ifDataPkts_eq {v : Table} {i : VitaId} {os : List VitaOp} (hsock : v.sockOpen = true)
    (hadd : (vitaSessionAdd p v).1 = i.val) (hfmt : p.fmt = .u8) (hkeep : ∀ o ∈ os, o.Keeps i)
    (hbuf : ∀ buf, .callback buf ∈ os → WholeBuffer buf) :
    ∃ m, (delivered os).length = 512 * m ∧
      ifDataPkts v p i os = packetsFrom p m 0 (delivered os) := by
  obtain ⟨⟨hslot, -⟩, hfree⟩ := vitaSessionAdd_spec hadd
  have hadded : (vitaSessionAdd p v).2 = v.apply (.add p) := rfl
  have hactive : ((vitaSessionAdd p v).2.1.slots i).active = true := by
    rw [hslot, Slot.run_active]
    rfl
  have hcar : Carries p 0 ((vitaSessionAdd p v).2.1.slots i) := by
    rw [hslot]
    cases v.contextEnabled <;> exact ⟨rfl, hfmt, rfl, rfl, rfl, rfl⟩
  obtain ⟨m, hlen, -, hpkts⟩ :=
    run_carries i (vitaSessionAdd p v).2.1.contextEnabled os hcar hbuf
  refine ⟨m, hlen, ?_⟩
  have hsock' : (vitaSessionAdd p v).2.1.sockOpen = true := by
    rw [hadded, (apply_config _).1, hsock]
  rw [ifDataPkts, (run_project os hsock' hactive hkeep).2, hpkts]

/-- The IF Data stream law. For a stream of unsigned samples at any rate that the arithmetic has
room for, whatever else happens to the table meanwhile: the packets carry the delivered bytes, all
of them and in order; the packet with number `k` has count `k % 16`, the bytes from `512 * k` on and
the exact instant of its first sample, rounded down to a picosecond; the packets do not depend on
how the bytes were cut into buffers; and stamps in a row differ by the sample duration of a packet,
rounded down or up. -/
theorem ifData_stream_law (v : Table) (p : StreamParams) (i : VitaId) (os : List VitaOp)
    (hsock : v.sockOpen = true) (hadd : (vitaSessionAdd p v).1 = i.val) (hfmt : p.fmt = .u8)
    (hpos : 1 ≤ p.rateSps.toNat) (hmax : p.rateSps.toNat ≤ 18446744)
    (hkeep : ∀ o ∈ os, o.Keeps i) (hbuf : ∀ buf, .callback buf ∈ os → WholeBuffer buf) :
    (∀ k pkt, (ifDataPkts v p i os)[k]? = some pkt → 256 * k < 2^64 →
      pktCountOf pkt = k % 16 ∧
      payloadOf pkt = ((delivered os).drop (512 * k)).take 512 ∧
      tsfOf pkt < 10^12 ∧
      256 * k % p.rateSps.toNat * 10^12 < 2^64 ∧
      ∃ t, tsiOf pkt = t % 2^32 ∧
        t * 10^12 + tsfOf pkt = p.time.toNat * 10^12 + 256 * k * 10^12 / p.rateSps.toNat) ∧
    (ifDataPkts v p i os).flatMap payloadOf = delivered os ∧
    512 * (ifDataPkts v p i os).length = (delivered os).length ∧
    (∀ v' os', v'.sockOpen = true → (vitaSessionAdd p v').1 = i.val →
      (∀ o ∈ os', o.Keeps i) → (∀ buf, .callback buf ∈ os' → WholeBuffer buf) →
      delivered os' = delivered os → ifDataPkts v' p i os' = ifDataPkts v p i os) ∧
    (∀ k, stamp p (k + 1) = stamp p k + 256 * 10^12 / p.rateSps.toNat ∨
      stamp p (k + 1) =
        stamp p k + (256 * 10^12 + p.rateSps.toNat - 1) / p.rateSps.toNat) := by
  -- the packets are those that the delivered bytes give, however the buffers were cut
  obtain ⟨m, hlen, hpkts⟩ := ifDataPkts_eq hsock hadd hfmt hkeep hbuf
  refine ⟨?_, ?_, ?_, ?_, fun k => stamp_succ hpos⟩
  -- the fields of the packet at a place
  · intro k pkt hget hk
    rw [hpkts] at hget
    have hpkt := packetsFrom_getElem? p hget
    rw [Nat.zero_add] at hpkt
    obtain ⟨htsi, hpicos⟩ := stamps_toNat hk hpos hmax
    have hfields := ifData_fields p.vitaStreamId (k % 16).toUInt8 (tsiAt p k) (picosAt p k)
      (((delivered os).drop (512 * k)).take 512)
    rw [List.take_take] at hfields
    rw [hpkt, nthPacket]
    refine ⟨?_, hfields.payload, ?_, ?_, ?_⟩
    · rw [hfields.count, show (k % 16).toUInt8.toNat = k % 16 % 2^8 from UInt8.toNat_ofNat']
      omega
    · rw [hfields.tsf, hpicos]
      exact picos_lt hpos
    · have hmod : 256 * k % p.rateSps.toNat < p.rateSps.toNat := Nat.mod_lt _ hpos
      omega
    · refine ⟨p.time.toNat + 256 * k / p.rateSps.toNat, ?_, ?_⟩
      · rw [hfields.tsi, htsi]
      · rw [hfields.tsf, hpicos]
        exact stamp_split hpos
  · rw [hpkts]
    exact flatMap_payloadOf p m 0 _ hlen
  · rw [hpkts, packetsFrom_length, hlen]
  -- another run that has delivered the same bytes
  · intro v' os' hsock' hadd' hkeep' hbuf' hsame
    obtain ⟨m', hlen', hpkts'⟩ := ifDataPkts_eq hsock' hadd' hfmt hkeep' hbuf'
    obtain rfl : m' = m := by
      rw [hsame] at hlen'
      omega
    rw [hpkts', hpkts, hsame]

/-- A buffer of equal bytes. -/
theorem wholeBuffer_replicate (m : ℕ) (b : UInt8) (hpos : 0 < m) (hmax : m ≤ 1024) :
    WholeBuffer (List.replicate (512 * m) b) := by
  refine ⟨fun h => ?_, ⟨m, List.length_replicate⟩, ?_⟩
  · have hlen := congrArg List.length h
    rw [List.length_replicate, List.length_nil] at hlen
    omega
  · rw [List.length_replicate]
    omega

/-- The law on three packets in two buffers, with a gain change in between and another slot being
freed. -/
theorem ifData_stream_law_three_packets :
    (ifDataPkts ⟨fun _ => Slot.zero, true, true⟩
      ⟨1, [127, 0, 0, 1], 5000, .u8, vitaPayloadFmtComplex, 1700000000, 2048000, 197⟩ 0
      [.callback (List.replicate (512 * 1) 7), .contextAll 254, .remove 1,
        .callback (List.replicate (512 * 2) 9)]).flatMap payloadOf =
      List.replicate (512 * 1) 7 ++ (List.replicate (512 * 2) 9 ++ []) :=
  (ifData_stream_law _ _ 0 _ rfl rfl rfl (by decide) (by decide)
    (by
      intro o ho
      simp only [List.mem_cons, List.not_mem_nil, or_false] at ho
      rcases ho with rfl | rfl | rfl | rfl
      · trivial
      · trivial
      · exact fun h => absurd h (by decide)
      · trivial)
    (by
      intro buf hbuf
      simp only [List.mem_cons, VitaOp.callback.injEq, reduceCtorEq, List.not_mem_nil, or_false,
        false_or] at hbuf
      rcases hbuf with rfl | rfl
      · exact wholeBuffer_replicate 1 7 (by decide) (by decide)
      · exact wholeBuffer_replicate 2 9 (by decide) (by decide))).2.1

end SlcRtld.Vita
