import SlcRtld.Vita.Stream

/-!
# The Context packets of a stream

Everything sent on a stream from its `vita_session_add` on is Context and IF Data packets, each kind
with its own count. A Context packet says whether what it carries has changed since the last one:
the slot remembers the two words of the last packet, so along the Context packets of a stream the
indicator compares neighbours (`ContextsFrom`). A new stream in a slot starts over: filling a slot
and sending the first Context packet gives the same slot whatever stood in it before
(`fill_sendContext`).
-/

namespace SlcRtld.Vita

open Libc Rtl

/-! ## Counts -/

/-- The packets count up from `n`, modulo 16. -/
def CountsFrom (n : ℕ) (pkts : List (List UInt8)) : Prop :=
  ∀ k pkt, pkts[k]? = some pkt → pktCountOf pkt = (n + k) % 16

/-- Packets that are counted on. -/
theorem CountsFrom.append {n : ℕ} {pkts pkts' : List (List UInt8)} (h : CountsFrom n pkts)
    (h' : CountsFrom (n + pkts.length) pkts') : CountsFrom n (pkts ++ pkts') := by
  intro k pkt hk
  by_cases hlt : k < pkts.length
  · rw [List.getElem?_append_left hlt] at hk
    exact h k pkt hk
  · rw [List.getElem?_append_right (Nat.le_of_not_lt hlt)] at hk
    rw [h' _ pkt hk]
    congr 1
    omega

/-- The first packet, and then the others. -/
theorem CountsFrom.cons {n : ℕ} {pkt : List UInt8} {pkts : List (List UInt8)}
    (h : pktCountOf pkt = n % 16) (h' : CountsFrom (n + 1) pkts) : CountsFrom n (pkt :: pkts) := by
  intro k q hk
  cases k with
  | zero =>
    obtain rfl : pkt = q := by simpa using hk
    exact h
  | succ k =>
    rw [h' k q (by simpa using hk)]
    congr 1
    omega

/-- The counter of a packet has four bits. -/
theorem count_mod (n : ℕ) : (n % 16).toUInt8.toNat % 16 = n % 16 := by
  rw [show (n % 16).toUInt8.toNat = n % 16 % 2^8 from UInt8.toNat_ofNat']
  omega

/-- The build loop sends IF Data packets that count up, and leaves the rest of the slot alone. -/
theorem sendChunks_counts (m : ℕ) {n : ℕ} (chunk : List UInt8) {s : Slot}
    (h : s.ifPktCount = (n % 16).toUInt8) :
    (s.sendChunks m chunk).1.ifPktCount = ((n + m) % 16).toUInt8 ∧
      (s.sendChunks m chunk).2.length = m ∧
      CountsFrom n (s.sendChunks m chunk).2 ∧
      (∀ pkt ∈ (s.sendChunks m chunk).2, pktType pkt = 1) ∧
      ∃ samples, (s.sendChunks m chunk).1 =
        { s with ifPktCount := ((n + m) % 16).toUInt8, sampleCount := samples } := by
  induction m generalizing n s chunk with
  | zero =>
    refine ⟨h, rfl, fun k pkt hk => by simp [Slot.sendChunks] at hk, by simp [Slot.sendChunks],
      s.sampleCount, ?_⟩
    rw [Nat.add_zero, ← h]
    rfl
  -- the packet of the first chunk carries the count of now, the others go on from the next
  | succ m ih =>
    have h' : (s.sendChunk chunk).1.ifPktCount = ((n + 1) % 16).toUInt8 := by
      rw [← count_succ, ← h]
      rfl
    obtain ⟨hcount, hlen, hcounts, htypes, samples, hslot⟩ :=
      ih (chunk.drop (vitaSamplesPerPkt * 2)) h'
    obtain ⟨htype, hhead⟩ := ifData_header s.vitaStreamId s.ifPktCount s.tsi s.picos chunk
      vitaSamplesPerPkt s.fmt
    rw [Nat.add_right_comm] at hcount hslot
    refine ⟨hcount, ?_, ?_, ?_, samples, hslot⟩
    · rw [Slot.sendChunks, List.length_cons, hlen]
    · refine CountsFrom.cons ?_ hcounts
      rw [← count_mod n, ← h]
      exact hhead
    · intro pkt hmem
      rcases List.mem_cons.mp hmem with rfl | hmem
      · exact htype
      · exact htypes pkt hmem

/-! ## The Context packets in a row -/

/-- Context packets whose counts go on from `n`, and whose indicators compare each packet's words
with those of the packet before it, the first one with `ref` and `pf`. -/
def ContextsFrom : ℕ → ℕ → ℕ → List (List UInt8) → Prop
  | _, _, _, [] => True
  | n, ref, pf, c :: cs =>
    pktCountOf c = n % 16 ∧
      (changedOf c = true ↔ refWordOf c ≠ ref ∨ pfWord0Of c ≠ pf) ∧
      ContextsFrom (n + 1) (refWordOf c) (pfWord0Of c) cs

/-- The context packets are counted. -/
theorem ContextsFrom.counts {n ref pf : ℕ} {cs : List (List UInt8)}
    (h : ContextsFrom n ref pf cs) : CountsFrom n cs := by
  induction cs generalizing n ref pf with
  | nil => intro k pkt hk; simp at hk
  | cons c cs ih => exact CountsFrom.cons h.1 (ih h.2.2)

/-- Neighbours among the Context packets. -/
theorem ContextsFrom.changed {n ref pf : ℕ} {cs : List (List UInt8)}
    (h : ContextsFrom n ref pf cs) {k : ℕ} {c c' : List UInt8} (hc : cs[k]? = some c)
    (hc' : cs[k + 1]? = some c') :
    changedOf c' = true ↔ refWordOf c' ≠ refWordOf c ∨ pfWord0Of c' ≠ pfWord0Of c := by
  induction cs generalizing n ref pf k with
  | nil => simp at hc
  | cons d ds ih =>
    cases k with
    | succ k => exact ih h.2.2 (by simpa using hc) (by simpa using hc')
    | zero =>
      obtain rfl : d = c := by simpa using hc
      cases ds with
      | nil => simp at hc'
      | cons e es =>
        obtain rfl : e = c' := by simpa using hc'
        exact h.2.2.2.1

/-- A Context packet of a slot that has sent one before. -/
theorem sendContext_fields (gain : ℤ) {n : ℕ} {s : Slot} (hsent : s.ctxSent = true)
    (hcount : s.ctxPktCount = (n % 16).toUInt8) :
    isContext (s.sendContext gain).2 = true ∧ pktCountOf (s.sendContext gain).2 = n % 16 ∧
      refWordOf (s.sendContext gain).2 = (s.sendContext gain).1.ctxLastRefWord.toNat ∧
      pfWord0Of (s.sendContext gain).2 = (s.sendContext gain).1.ctxLastPfWord0.toNat ∧
      (changedOf (s.sendContext gain).2 = true ↔
        refWordOf (s.sendContext gain).2 ≠ s.ctxLastRefWord.toNat ∨
          pfWord0Of (s.sendContext gain).2 ≠ s.ctxLastPfWord0.toNat) := by
  have hfields := context_fields s.vitaStreamId s.ctxPktCount s.payloadFmtWord0
    (refLevelWord gain) (!s.ctxSent || refLevelWord gain ≠ s.ctxLastRefWord
      || s.payloadFmtWord0 ≠ s.ctxLastPfWord0)
  have hpkt : (s.sendContext gain).2 = vitaBuildContextPacket s.vitaStreamId s.ctxPktCount
      s.payloadFmtWord0 (refLevelWord gain) (!s.ctxSent || refLevelWord gain ≠ s.ctxLastRefWord
      || s.payloadFmtWord0 ≠ s.ctxLastPfWord0) := rfl
  rw [← hpkt] at hfields
  refine ⟨?_, ?_, hfields.refWord, hfields.pfWord0, ?_⟩
  · rw [isContext, hfields.type]
    rfl
  · rw [hfields.count, hcount, count_mod]
  · rw [hfields.changed, hfields.refWord, hfields.pfWord0]
    simp [hsent, UInt32.toNat_inj]

/-! ## Runs -/

/-- Over a run, a slot that has sent a Context packet sends Context packets and IF Data packets,
each kind in its own order. -/
theorem run_law (es : List SlotEvent) {c d : ℕ} {s : Slot} (hsent : s.ctxSent = true)
    (hctx : s.ctxPktCount = (c % 16).toUInt8) (hif : s.ifPktCount = (d % 16).toUInt8) :
    ContextsFrom c s.ctxLastRefWord.toNat s.ctxLastPfWord0.toNat
        ((s.run true es).2.filter isContext) ∧
      CountsFrom d ((s.run true es).2.filter isIfData) ∧
      ∀ pkt ∈ (s.run true es).2, isContext pkt = true ∨ isIfData pkt = true := by
  -- the induction is on the events; the two counters and the words that have been told go along
  induction es generalizing c d s with
  | nil => exact ⟨trivial, fun k pkt hk => by simp [Slot.run] at hk, by simp [Slot.run]⟩
  | cons e es ih =>
    cases e with
    -- one context packet, and then the rest
    | context gain =>
      obtain ⟨hisctx, hcount, href, hpf, hchanged⟩ := sendContext_fields gain hsent hctx
      have hnotif : isIfData (s.sendContext gain).2 = false := by
        simp only [isContext, isIfData, decide_eq_true_eq, decide_eq_false_iff_not] at hisctx ⊢
        omega
      have hctx' : (s.sendContext gain).1.ctxPktCount = ((c + 1) % 16).toUInt8 := by
        rw [← count_succ, ← hctx]
        rfl
      obtain ⟨hcs, hds, hall⟩ := ih (s := (s.sendContext gain).1) rfl hctx' hif
      have hrun : (s.run true (.context gain :: es)).2 =
          (s.sendContext gain).2 :: ((s.sendContext gain).1.run true es).2 := rfl
      rw [hrun, List.filter_cons_of_pos hisctx,
        List.filter_cons_of_neg (by rw [hnotif]; exact Bool.false_ne_true)]
      refine ⟨⟨hcount, hchanged, ?_⟩, hds, ?_⟩
      · rw [href, hpf]
        exact hcs
      · exact List.forall_mem_cons.mpr ⟨.inl hisctx, hall⟩
    -- data packets, none of which is a context packet
    | data buf =>
      obtain ⟨hcount, hlen, hcounts, htypes, samples, hslot⟩ :=
        sendChunks_counts (numPkts buf) buf hif
      set out := s.sendChunks (numPkts buf) buf with hout
      have hctx0 : out.2.filter isContext = [] := by
        refine List.filter_eq_nil_iff.mpr fun pkt hmem => ?_
        simp [isContext, htypes pkt hmem]
      have hif0 : out.2.filter isIfData = out.2 := by
        refine List.filter_eq_self.mpr fun pkt hmem => ?_
        simp [isIfData, htypes pkt hmem]
      obtain ⟨hcs, hds, hall⟩ := ih (s := out.1) (c := c) (by rw [hslot]; exact hsent)
        (by rw [hslot]; exact hctx) hcount
      have hrun : (s.run true (.data buf :: es)).2 = out.2 ++ (out.1.run true es).2 := rfl
      rw [hrun, List.filter_append, List.filter_append, hctx0, hif0, List.nil_append]
      refine ⟨?_, hcounts.append (by rw [hlen]; exact hds), ?_⟩
      · rw [hslot] at hcs ⊢
        exact hcs
      · intro pkt hmem
        rcases List.mem_append.mp hmem with hmem | hmem
        · exact .inr (by simp [isIfData, htypes pkt hmem])
        · exact hall pkt hmem
    | payloadFormat w => exact ih (s := { s with payloadFmtWord0 := w }) hsent hctx hif

/-- A slot that has been filled in and has sent its first Context packet is the same whatever stood
in it before, and so is the packet, which is marked as changed. -/
theorem fill_sendContext (s s' : Slot) (p : StreamParams) (gain : ℤ) :
    (s.fill p).sendContext gain = (s'.fill p).sendContext gain ∧
      isContext ((s.fill p).sendContext gain).2 = true ∧
      changedOf ((s.fill p).sendContext gain).2 = true ∧
      pktCountOf ((s.fill p).sendContext gain).2 = 0 := by
  have hfields := context_fields p.vitaStreamId 0 p.payloadFmtWord0 (refLevelWord gain) true
  refine ⟨rfl, ?_, hfields.changed, hfields.count⟩
  change isContext (vitaBuildContextPacket p.vitaStreamId 0 p.payloadFmtWord0
    (refLevelWord gain) true) = true
  rw [isContext, hfields.type]
  rfl

/-- Everything sent on a stream that is added with the parameters `p` and is still there after the
operations. -/
def streamPkts (v : Table) (p : StreamParams) (i : VitaId) (os : List VitaOp) :
    List (List UInt8) :=
  pktsOf i (v.run (.add p :: os)).2

/-- Everything sent on a stream is its first Context packet, and what its slot sends after it. -/
theorem streamPkts_eq {v : Table} {p : StreamParams} {i : VitaId} {os : List VitaOp}
    (hsock : v.sockOpen = true) (hce : v.contextEnabled = true)
    (hadd : (vitaSessionAdd p v).1 = i.val) (hkeep : ∀ o ∈ os, o.Keeps i) :
    streamPkts v p i os = ((v.slots i).fill p |>.sendContext p.gainTenthDb).2 ::
      (((v.slots i).fill p |>.sendContext p.gainTenthDb).1.run true
        (os.flatMap (·.eventAt i))).2 := by
  obtain ⟨⟨hslot, hpkts⟩, -⟩ := vitaSessionAdd_spec hadd
  have hrun1 : ((v.slots i).fill p).run true [.context p.gainTenthDb] =
      (((v.slots i).fill p |>.sendContext p.gainTenthDb).1,
        [((v.slots i).fill p |>.sendContext p.gainTenthDb).2]) := rfl
  rw [hce, hrun1] at hslot hpkts
  have hconf := apply_config (v := v) (.add p)
  have hactive : ((v.apply (.add p)).1.slots i).active = true := by
    change ((vitaSessionAdd p v).2.1.slots i).active = true
    rw [hslot]
    rfl
  have hproj := (run_project os (hconf.1.trans hsock) hactive hkeep).2
  rw [streamPkts, Table.run, pktsOf_append, hproj, hconf.2, hce]
  change pktsOf i (vitaSessionAdd p v).2.2 ++
    (((vitaSessionAdd p v).2.1.slots i).run true (os.flatMap (·.eventAt i))).2 = _
  rw [hslot, hpkts]
  rfl

/-- The Context packet law. With the socket open and Context packets enabled, of everything sent on
a stream after its `vita_session_add`, whatever operations follow and at whatever gain: the first
packet is a Context packet marked as changed; a later Context packet is marked as changed exactly
when its Reference Level word or its Payload Format word differs from the one before it; Context
packets and IF Data packets each count up from zero, modulo 16, and there is no third kind; and the
packets do not depend on what the table held when the stream was added. -/
theorem context_packet_law (v : Table) (p : StreamParams) (i : VitaId) (os : List VitaOp)
    (hsock : v.sockOpen = true) (hce : v.contextEnabled = true)
    (hadd : (vitaSessionAdd p v).1 = i.val) (hkeep : ∀ o ∈ os, o.Keeps i) :
    (∃ first rest, streamPkts v p i os = first :: rest ∧ isContext first = true ∧
      changedOf first = true) ∧
    (∀ k c c', ((streamPkts v p i os).filter isContext)[k]? = some c →
      ((streamPkts v p i os).filter isContext)[k + 1]? = some c' →
      (changedOf c' = true ↔ refWordOf c' ≠ refWordOf c ∨ pfWord0Of c' ≠ pfWord0Of c)) ∧
    (∀ k c, ((streamPkts v p i os).filter isContext)[k]? = some c → pktCountOf c = k % 16) ∧
    (∀ k d, ((streamPkts v p i os).filter isIfData)[k]? = some d → pktCountOf d = k % 16) ∧
    (∀ pkt ∈ streamPkts v p i os, isContext pkt = true ∨ isIfData pkt = true) ∧
    (∀ v' : Table, v'.sockOpen = true → v'.contextEnabled = true →
      (vitaSessionAdd p v').1 = i.val → streamPkts v' p i os = streamPkts v p i os) := by
  have hstream := streamPkts_eq hsock hce hadd hkeep
  set first := ((v.slots i).fill p |>.sendContext p.gainTenthDb) with hfirst
  obtain ⟨-, hisctx, hchanged, hcount0⟩ :=
    fill_sendContext (v.slots i) (v.slots i) p p.gainTenthDb
  rw [← hfirst] at hisctx hchanged hcount0
  have hnotif : isIfData first.2 = false := by
    simp only [isContext, isIfData, decide_eq_true_eq, decide_eq_false_iff_not] at hisctx ⊢
    omega
  -- the slot after the first packet has counted it, and remembers its two words
  have hcount1 : first.1.ctxPktCount = (1 % 16).toUInt8 := count_succ 0
  obtain ⟨hcs, hds, hall⟩ := run_law (os.flatMap (·.eventAt i)) (s := first.1) (d := 0)
    rfl hcount1 rfl
  have hwords := context_fields p.vitaStreamId 0 p.payloadFmtWord0 (refLevelWord p.gainTenthDb) true
  have hcs' : ContextsFrom 1 (refWordOf first.2) (pfWord0Of first.2)
      ((first.1.run true (os.flatMap (·.eventAt i))).2.filter isContext) := by
    rw [show refWordOf first.2 = first.1.ctxLastRefWord.toNat from hwords.refWord,
      show pfWord0Of first.2 = first.1.ctxLastPfWord0.toNat from hwords.pfWord0]
    exact hcs
  have hctxs : (streamPkts v p i os).filter isContext =
      first.2 :: (first.1.run true (os.flatMap (·.eventAt i))).2.filter isContext := by
    rw [hstream, List.filter_cons_of_pos hisctx]
  refine ⟨⟨first.2, _, hstream, hisctx, hchanged⟩, ?_, ?_, ?_, ?_, ?_⟩
  · intro k c c' hc hc'
    rw [hctxs] at hc hc'
    cases k with
    | succ k => exact hcs'.changed (by simpa using hc) (by simpa using hc')
    | zero =>
      obtain rfl : first.2 = c := by simpa using hc
      cases hrest : (first.1.run true (os.flatMap (·.eventAt i))).2.filter isContext with
      | nil => simp [hrest] at hc'
      | cons e es =>
        rw [hrest] at hc' hcs'
        obtain rfl : e = c' := by simpa using hc'
        exact hcs'.2.1
  · intro k c hc
    rw [hctxs] at hc
    have h := CountsFrom.cons (n := 0) hcount0 hcs'.counts k c hc
    rwa [Nat.zero_add] at h
  · intro k d hd
    rw [hstream, List.filter_cons_of_neg (by rw [hnotif]; exact Bool.false_ne_true)] at hd
    have h := hds k d hd
    rwa [Nat.zero_add] at h
  · rw [hstream]
    exact List.forall_mem_cons.mpr ⟨.inl hisctx, hall⟩
  · intro v' hsock' hce' hadd'
    rw [streamPkts_eq hsock' hce' hadd' hkeep, hstream,
      (fill_sendContext (v'.slots i) (v.slots i) p p.gainTenthDb).1]

/-- The law on a stream in a reused slot, with a gain change, a mode change and data. -/
theorem context_packet_law_reused_slot :
    streamPkts ⟨fun _ => { Slot.zero with ctxLastRefWord := 5, ctxPktCount := 9 }, true, true⟩
        ⟨2, [127, 0, 0, 1], 5000, .u8, vitaPayloadFmtComplex, 1700000000, 2048000, 197⟩ 0
        [.contextAll 254, .callback (List.replicate 512 7), .updatePayloadFormat vitaPayloadFmtReal]
      = streamPkts ⟨fun _ => Slot.zero, true, true⟩
        ⟨2, [127, 0, 0, 1], 5000, .u8, vitaPayloadFmtComplex, 1700000000, 2048000, 197⟩ 0
        [.contextAll 254, .callback (List.replicate 512 7),
          .updatePayloadFormat vitaPayloadFmtReal] :=
  (context_packet_law _ _ 0 _ rfl rfl rfl
    (by
      intro o ho
      simp only [List.mem_cons, List.not_mem_nil, or_false] at ho
      rcases ho with rfl | rfl | rfl <;> trivial)).2.2.2.2.2 _ rfl rfl rfl

end SlcRtld.Vita
