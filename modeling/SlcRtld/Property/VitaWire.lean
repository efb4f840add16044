import SlcRtld.Vita.Packet

/-!
# VITA packets decode to what was encoded

The header word of either kind of packet as a receiver splits it, field by field. The constants, the
count and the size that make it up stand on disjoint bits (`header_toNat`), so that each field is
read back whatever the others are, as long as the size fits its 16 bits. It does for a packet that
fits `VITA_PKT_MAX_BYTES` (`payloadWords_eq`).
-/

namespace SlcRtld.Property

open Libc Vita

/-! ## The fields of a header -/

/-- The header word of a packet, split into its fields. The three bits behind the class bit are zero
in both kinds of packet. -/
structure Header (pkt : List UInt8) (type : ℕ) (classId : Bool) (tsi tsf count size : ℕ) : Prop where
  type : pktType pkt = type
  classId : wordAt pkt 0 / 2^27 % 2 = classId.toNat
  zeros : wordAt pkt 0 / 2^24 % 2^3 = 0
  tsi : wordAt pkt 0 / 2^22 % 2^2 = tsi
  tsf : wordAt pkt 0 / 2^20 % 2^2 = tsf
  count : pktCountOf pkt = count
  size : wordAt pkt 0 % 2^16 = size

/-- The samples as they stand in a packet. -/
def sampleBytes (samples : List UInt8) : IqFormat → List UInt8
  | .u8 => samples
  | .int16 => samples.flatMap u8ToInt16Be

/-- What a receiver reads from an IF Data packet: the header, with a size in words that is the
number of bytes that were built, the stamps and the class, and the samples up to a whole word. -/
structure DataDecoded (pkt : List UInt8) (streamId : UInt32) (pktCount : UInt8) (tsi : UInt32)
    (tsfPicos : UInt64) (samples : List UInt8) (bytes : ℕ) : Prop where
  header : ∃ size, Header pkt 1 true 1 2 (pktCount.toNat % 16) size ∧ size * 4 = bytes
  length : pkt.length = bytes
  streamId : streamIdOf pkt = streamId.toNat
  classId : wordAt pkt 2 = 0x402814 ∧ wordAt pkt 3 = 1
  tsi : tsiOf pkt = tsi.toNat
  tsf : tsfOf pkt = tsfPicos.toNat
  payload : ∃ n < 4, payloadOf pkt = samples ++ List.replicate n 0

/-- What a receiver reads from a Context packet: the header, the indicators, and the fields in the
order of their indicators. -/
structure ContextDecoded (pkt : List UInt8) (streamId : UInt32) (pktCount : UInt8)
    (payloadFmtWord0 refWord : UInt32) (changed : Bool) : Prop where
  header : Header pkt 4 false 0 0 (pktCount.toNat % 16) 6
  length : pkt.length = vitaCtxPktBytes ∧ 6 * 4 = vitaCtxPktBytes
  streamId : streamIdOf pkt = streamId.toNat
  cif0 : wordAt pkt 2 = 2^31 * changed.toNat + 2^24 + 2^15
  refWord : wordAt pkt 3 = refWord.toNat
  payloadFormat : wordAt pkt 4 = payloadFmtWord0.toNat ∧ wordAt pkt 5 = 0

/-! ## IF Data packets -/

/-- A sample of eight bits takes two bytes in the wide format. -/
theorem int16_length (samples : List UInt8) :
    (sampleBytes samples .int16).length = samples.length * 2 := by
  have htwo : ∀ u, (u8ToInt16Be u).length = 2 := fun _ => rfl
  simp [sampleBytes, List.length_flatMap, htwo]

section
variable {samples : List UInt8} {numPairs : ℕ} (hsamples : samples.length = numPairs * 2)
include hsamples

/-- The payload is the samples, up to a whole word. -/
theorem ifDataPayload_eq (fmt : IqFormat) :
    ∃ n < 4, ifDataPayload samples numPairs fmt = sampleBytes samples fmt ++ List.replicate n 0 ∧
      ((sampleBytes samples fmt).length + n) % 4 = 0 := by
  have htake : samples.take (numPairs * 2) = samples := List.take_of_length_le (Nat.le_of_eq hsamples)
  cases fmt with
  | u8 =>
    unfold ifDataPayload sampleBytes
    rw [htake]
    split_ifs with hodd
    · exact ⟨4 - numPairs * 2 % 4, by omega, rfl, by rw [hsamples]; omega⟩
    · exact ⟨0, by omega, rfl, by rw [hsamples]; omega⟩
  | int16 =>
    refine ⟨0, by omega, ?_, ?_⟩
    · rw [ifDataPayload, htake, List.replicate_zero, List.append_nil, sampleBytes]
    · rw [int16_length, hsamples]
      omega

/-- The number of words does not wrap for a packet that fits. -/
theorem payloadWords_eq {fmt : IqFormat}
    (hfits : vitaHdrBytes + (ifDataPayload samples numPairs fmt).length ≤ vitaPktMaxBytes) :
    payloadWords numPairs fmt * 4 = (ifDataPayload samples numPairs fmt).length ∧
      payloadWords numPairs fmt ≤ 512 := by
  obtain ⟨n, hn, hpayload, hwhole⟩ := ifDataPayload_eq hsamples fmt
  have hmax : vitaPktMaxBytes = vitaHdrBytes + 2048 := rfl
  rw [hmax] at hfits
  rw [hpayload, List.length_append, List.length_replicate] at hfits ⊢
  cases fmt with
  | u8 =>
    rw [sampleBytes, hsamples] at hfits hwhole ⊢
    simp only [payloadWords]
    omega
  | int16 =>
    rw [int16_length, hsamples] at hfits hwhole ⊢
    simp only [payloadWords]
    omega

/-- An IF Data packet that fits is decoded to what it was built from. -/
theorem ifData_decoded (streamId : UInt32) (pktCount : UInt8) (tsi : UInt32) (tsfPicos : UInt64)
    (fmt : IqFormat)
    (hfits : (vitaBuildIfDataPacket streamId pktCount tsi tsfPicos samples numPairs fmt).length ≤
      vitaPktMaxBytes) :
    DataDecoded (vitaBuildIfDataPacket streamId pktCount tsi tsfPicos samples numPairs fmt) streamId
      pktCount tsi tsfPicos (sampleBytes samples fmt) (vitaIfDataPktBytes numPairs fmt) := by
  have hlength : (vitaBuildIfDataPacket streamId pktCount tsi tsfPicos samples numPairs fmt).length =
      vitaHdrBytes + (ifDataPayload samples numPairs fmt).length := by
    rw [vitaBuildIfDataPacket, List.length_append, flatMap_length]
    rfl
  -- a payload that fits the packet has few words, so the size fits its sixteen bits
  rw [hlength] at hfits
  obtain ⟨hwords, hfew⟩ := payloadWords_eq hsamples hfits
  obtain ⟨n, hn, hpayload, -⟩ := ifDataPayload_eq hsamples fmt
  have h0 := ifData_word0 streamId pktCount tsi tsfPicos samples numPairs fmt
  have hcount : pktCount.toNat % 16 < 16 := Nat.mod_lt _ (by norm_num)
  refine {
    header := ⟨7 + payloadWords numPairs fmt, ?_, ?_⟩
    length := ?_
    streamId := wordAt_flatMap rfl
    classId := ⟨wordAt_flatMap (w := classIdW0) rfl, wordAt_flatMap (w := classIdW1) rfl⟩
    tsi := wordAt_flatMap rfl
    tsf := ifData_tsf ..
    payload := ⟨n, hn, ?_⟩ }
  · -- The size is below 2^16, so that it stays off the bits of the count.
    refine ⟨?_, ?_, ?_, ?_, ?_, ?_, ?_⟩
    all_goals
      simp only [pktType, pktCountOf, h0, Bool.toNat_true]
      omega
  · rw [vitaIfDataPktBytes, vitaHdrBytes]
    omega
  · rw [hlength, vitaIfDataPktBytes, hwords]
  · rw [payloadOf, vitaBuildIfDataPacket, drop_flatMap (n := vitaHdrBytes) _ _ rfl, hpayload]

end

/-! ## Context packets -/

/-- A context packet is read back field by field. -/
theorem context_decoded (streamId : UInt32) (pktCount : UInt8) (payloadFmtWord0 refWord : UInt32)
    (changed : Bool) :
    ContextDecoded (vitaBuildContextPacket streamId pktCount payloadFmtWord0 refWord changed) streamId
      pktCount payloadFmtWord0 refWord changed := by
  have h0 := context_word0 streamId pktCount payloadFmtWord0 refWord changed
  have hcount : pktCount.toNat % 16 < 16 := Nat.mod_lt _ (by norm_num)
  refine {
    header := ?_
    length := ⟨by rw [vitaBuildContextPacket, flatMap_length]; rfl, rfl⟩
    streamId := context_word _ _ _ _ _ rfl
    cif0 := ?_
    refWord := context_word _ _ _ _ _ rfl
    payloadFormat := ⟨context_word _ _ _ _ _ rfl, context_word _ _ _ _ _ (w := 0) rfl⟩ }
  · refine ⟨?_, ?_, ?_, ?_, ?_, ?_, ?_⟩
    all_goals
      simp only [pktType, pktCountOf, h0, Bool.toNat_false]
      omega
  · rw [context_word _ _ _ _ _ rfl]
    cases changed <;> rfl

/-- IF Data packets that fit `VITA_PKT_MAX_BYTES` and Context packets decode to what was encoded. -/
theorem vita_packets_decode :
    (∀ (streamId : UInt32) (pktCount : UInt8) (tsi : UInt32) (tsfPicos : UInt64) (samples : List UInt8)
      (numPairs : ℕ) (fmt : IqFormat), samples.length = numPairs * 2 →
      (vitaBuildIfDataPacket streamId pktCount tsi tsfPicos samples numPairs fmt).length ≤
        vitaPktMaxBytes →
      DataDecoded (vitaBuildIfDataPacket streamId pktCount tsi tsfPicos samples numPairs fmt) streamId
        pktCount tsi tsfPicos (sampleBytes samples fmt) (vitaIfDataPktBytes numPairs fmt)) ∧
    ∀ (streamId : UInt32) (pktCount : UInt8) (payloadFmtWord0 refWord : UInt32) (changed : Bool),
      ContextDecoded (vitaBuildContextPacket streamId pktCount payloadFmtWord0 refWord changed)
        streamId pktCount payloadFmtWord0 refWord changed :=
  ⟨fun streamId pktCount tsi tsfPicos _ _ fmt hsamples hfits =>
    ifData_decoded hsamples streamId pktCount tsi tsfPicos fmt hfits, context_decoded⟩

/-- Three pairs take a word and a half, which is padded to two words. -/
theorem vita_packets_decode_padded :
    payloadOf (vitaBuildIfDataPacket 7 18 0 0 [1, 2, 3, 4, 5, 6] 3 .u8) = [1, 2, 3, 4, 5, 6, 0, 0] ∧
      DataDecoded (vitaBuildIfDataPacket 7 18 0 0 [1, 2, 3, 4, 5, 6] 3 .u8) 7 18 0 0
        (sampleBytes [1, 2, 3, 4, 5, 6] .u8) (vitaIfDataPktBytes 3 .u8) :=
  ⟨by decide, vita_packets_decode.1 7 18 0 0 [1, 2, 3, 4, 5, 6] 3 .u8 rfl (by decide)⟩

end SlcRtld.Property
