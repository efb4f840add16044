import SlcRtld.Config
import SlcRtld.Libc.Double
import SlcRtld.Libc.Endian

/-!
# VITA-49 packets

The two packet builders of `vita/vita_tx.c` and, for a receiver, the fields of a packet read back
from its bytes. Both kinds of packet begin with whole words; the decoded fields of a built packet
are the values it was built from (`ifData_fields`, `context_fields`).
-/

namespace SlcRtld.Vita

open Libc

/-! ## Builders -/

/-- `VRT_IF_DATA_BASE`. -/
def vrtIfDataBase : UInt32 := 0x18600000

/-- `CLASS_ID_W0`. -/
def classIdW0 : UInt32 := 0x00402814

/-- `CLASS_ID_W1`. -/
def classIdW1 : UInt32 := 0x00000001

/-- `VRT_CTX_HDR_BASE`. -/
def vrtCtxHdrBase : UInt32 := 0x40000000

/-- `VITA_CIF0_CHANGED`. -/
def vitaCif0Changed : UInt32 := 0x80000000

/-- `VITA_CIF0_BASE`: the bits of the Reference Level and of the Payload Format. -/
def vitaCif0Base : UInt32 := 0x01008000

/-- `VITA_CTX_PKT_SIZE_WORDS`. -/
def vitaCtxPktSizeWords : UInt32 := 6

/-- `VITA_HDR_BYTES`. -/
def vitaHdrBytes : ℕ := 28

/-- `VITA_PKT_MAX_BYTES`. -/
def vitaPktMaxBytes : ℕ := vitaHdrBytes + vitaSamplesPerPkt * 8

/-- `VITA_CTX_PKT_BYTES`, which `vita_build_context_packet` returns. -/
def vitaCtxPktBytes : ℕ := 24

/-- `u8_to_int16_be`: the two bytes of a sample as a signed 16-bit number, the high one first. The
computation is in `float`. -/
def u8ToInt16Be (u : UInt8) : List UInt8 :=
  let float := Double.roundBits 24 (-149)
  let f := float (float (u.toNat - float 127.4) * float (32767 / 128))
  let f := if 32767 < f then 32767 else f
  let f := if f < -32768 then -32768 else f
  let v := ((Double.finite f).truncToInt % 2^16).toNat
  [(v / 2^8).toUInt8, v.toUInt8]

/-- The payload of an IF Data packet, padded with zeros to a whole word. -/
def ifDataPayload (iqU8 : List UInt8) (numPairs : ℕ) (fmt : IqFormat) : List UInt8 :=
  let samples := iqU8.take (numPairs * 2)
  match fmt with
  | .int16 => samples.flatMap u8ToInt16Be
  | .u8 => samples ++
      (if numPairs * 2 % 4 ≠ 0 then List.replicate (4 - numPairs * 2 % 4) 0 else [])

/-- `payload_words`, a 16-bit number. -/
def payloadWords (numPairs : ℕ) : IqFormat → ℕ
  | .int16 => numPairs % 2^16
  | .u8 => (numPairs * 2 % 2^16 + 3) / 4 % 2^16

/-- What `vita_build_if_data_packet` returns. -/
def vitaIfDataPktBytes (numPairs : ℕ) (fmt : IqFormat) : ℕ :=
  vitaHdrBytes + payloadWords numPairs fmt * 4

/-- `vita_build_if_data_packet`. -/
def vitaBuildIfDataPacket (streamId : UInt32) (pktCount : UInt8) (tsi : UInt32)
    (tsfPicos : UInt64) (iqU8 : List UInt8) (numPairs : ℕ) (fmt : IqFormat) : List UInt8 :=
  let pktSize := (7 + payloadWords numPairs fmt) % 2^16
  let hdr := vrtIfDataBase ||| ((pktCount &&& 0xF).toUInt32 <<< 16) ||| pktSize.toUInt32
  [hdr, streamId, classIdW0, classIdW1, tsi, (tsfPicos >>> 32).toUInt32,
    (tsfPicos &&& 0xFFFFFFFF).toUInt32].flatMap be32 ++ ifDataPayload iqU8 numPairs fmt

/-- `vita_encode_reference_level`: 128 times the level, rounded and limited to 16 bits. -/
def vitaEncodeReferenceLevel (dbm : Double) : UInt32 :=
  let q : ℤ := match dbm.mulPos 128 with
    | .finite x =>
      let scaled : ℚ := if 32767 < x then 32767 else if x < -32768 then -32768 else x
      if scaled < 0 then ((Double.finite scaled).sub (.finite (1 / 2))).truncToInt
      else ((Double.finite scaled).sub (.finite (-1 / 2))).truncToInt
    | .inf negative => if negative then -32768 else 32767
    | .nan => 0
  (q % 2^16).toNat.toUInt32

/-- `vita_build_context_packet`, on the Reference Level word that its level encodes to. -/
def vitaBuildContextPacket (streamId : UInt32) (pktCount : UInt8) (payloadFmtWord0 refWord : UInt32)
    (changed : Bool) : List UInt8 :=
  let cif0 := vitaCif0Base ||| (if changed then vitaCif0Changed else 0)
  let hdr := vrtCtxHdrBase ||| ((pktCount &&& 0xF).toUInt32 <<< 16) ||| vitaCtxPktSizeWords
  [hdr, streamId, cif0, refWord, payloadFmtWord0, 0].flatMap be32

/-! ## Reading a packet -/

/-- The packet type: 1 for IF Data, 4 for Context. -/
def pktType (pkt : List UInt8) : ℕ := wordAt pkt 0 / 2^28

/-- The packet count. -/
def pktCountOf (pkt : List UInt8) : ℕ := wordAt pkt 0 / 2^16 % 2^4

/-- The stream identifier. -/
def streamIdOf (pkt : List UInt8) : ℕ := wordAt pkt 1

/-- The integer-seconds stamp of an IF Data packet. -/
def tsiOf (pkt : List UInt8) : ℕ := wordAt pkt 4

/-- The fractional stamp of an IF Data packet, in picoseconds. -/
def tsfOf (pkt : List UInt8) : ℕ := wordAt pkt 5 * 2^32 + wordAt pkt 6

/-- The samples of an IF Data packet. -/
def payloadOf (pkt : List UInt8) : List UInt8 := pkt.drop vitaHdrBytes

/-- Bit 31 of the CIF0 word of a Context packet. -/
def changedOf (pkt : List UInt8) : Bool := wordAt pkt 2 / 2^31 = 1

/-- The Reference Level word of a Context packet. -/
def refWordOf (pkt : List UInt8) : ℕ := wordAt pkt 3

/-- The Payload Format word 0 of a Context packet. -/
def pfWord0Of (pkt : List UInt8) : ℕ := wordAt pkt 4

/-- A Context packet, as opposed to an IF Data packet. -/
def isContext (pkt : List UInt8) : Bool := pktType pkt = 4

/-- An IF Data packet. -/
def isIfData (pkt : List UInt8) : Bool := pktType pkt = 1

/-- The low four bits of a packet count, which both headers keep. -/
theorem count_toNat (c : UInt8) : (c &&& 0xF).toUInt32.toNat = c.toNat % 16 := by
  rw [UInt8.toNat_toUInt32, UInt8.toNat_and]
  exact Nat.and_two_pow_sub_one_eq_mod c.toNat 4

/-- The first word of an IF Data packet. Its fields do not overlap. -/
theorem ifData_word0 (streamId : UInt32) (pktCount : UInt8) (tsi : UInt32) (tsfPicos : UInt64)
    (chunk : List UInt8) (numPairs : ℕ) (fmt : IqFormat) :
    wordAt (vitaBuildIfDataPacket streamId pktCount tsi tsfPicos chunk numPairs fmt) 0 =
      2^20 * 0x186 + 2^16 * (pktCount.toNat % 16) + (7 + payloadWords numPairs fmt) % 2^16 := by
  have hcount := count_toNat pktCount
  have hlt : pktCount.toNat % 16 < 16 := Nat.mod_lt _ (by norm_num)
  set size := (7 + payloadWords numPairs fmt) % 2^16 with hsize
  have hsize_lt : size < 2^16 := Nat.mod_lt _ (by norm_num)
  have hsize32 : size.toUInt32.toNat = size :=
    UInt32.toNat_ofNat_of_lt' (lt_trans hsize_lt (by decide))
  have hhdr : (vrtIfDataBase ||| ((pktCount &&& 0xF).toUInt32 <<< 16) ||| size.toUInt32).toNat
      = 2^20 * 0x186 + 2^16 * (pktCount.toNat % 16) + size := by
    rw [header_toNat _ _ _ 0x186 rfl (by omega) (by omega), hcount, hsize32]
  exact (wordAt_flatMap rfl).trans hhdr

/-- The first word of an IF Data packet: its type and its count. -/
theorem ifData_header (streamId : UInt32) (pktCount : UInt8) (tsi : UInt32) (tsfPicos : UInt64)
    (chunk : List UInt8) (numPairs : ℕ) (fmt : IqFormat) :
    pktType (vitaBuildIfDataPacket streamId pktCount tsi tsfPicos chunk numPairs fmt) = 1 ∧
      pktCountOf (vitaBuildIfDataPacket streamId pktCount tsi tsfPicos chunk numPairs fmt) =
        pktCount.toNat % 16 := by
  rw [pktType, pktCountOf, ifData_word0]
  omega

/-- The two words of the fractional stamp are its halves. -/
theorem ifData_tsf (streamId : UInt32) (pktCount : UInt8) (tsi : UInt32) (tsfPicos : UInt64)
    (chunk : List UInt8) (numPairs : ℕ) (fmt : IqFormat) :
    tsfOf (vitaBuildIfDataPacket streamId pktCount tsi tsfPicos chunk numPairs fmt) =
      tsfPicos.toNat := by
  have h5 : wordAt (vitaBuildIfDataPacket streamId pktCount tsi tsfPicos chunk numPairs fmt) 5 =
      (tsfPicos >>> 32).toUInt32.toNat := wordAt_flatMap rfl
  have h6 : wordAt (vitaBuildIfDataPacket streamId pktCount tsi tsfPicos chunk numPairs fmt) 6 =
      (tsfPicos &&& 0xFFFFFFFF).toUInt32.toNat := wordAt_flatMap rfl
  have hlow : (tsfPicos &&& 0xFFFFFFFF).toNat = tsfPicos.toNat % 2^32 := by
    rw [UInt64.toNat_and]
    exact Nat.and_two_pow_sub_one_eq_mod tsfPicos.toNat 32
  have hlt64 : tsfPicos.toNat < 2^64 := tsfPicos.toNat_lt
  rw [tsfOf, h5, h6, UInt64.toNat_toUInt32, UInt64.toNat_toUInt32, hlow,
    UInt64.toNat_shiftRight, Nat.shiftRight_eq_div_pow]
  simp only [UInt64.reduceToNat, Nat.reduceMod]
  omega

/-- What a receiver reads from an IF Data packet of unsigned samples. -/
structure IfDataFields (pkt : List UInt8) (streamId : UInt32) (pktCount : UInt8) (tsi : UInt32)
    (tsfPicos : UInt64) (samples : List UInt8) : Prop where
  type : pktType pkt = 1
  count : pktCountOf pkt = pktCount.toNat % 16
  streamId : streamIdOf pkt = streamId.toNat
  tsi : tsiOf pkt = tsi.toNat
  tsf : tsfOf pkt = tsfPicos.toNat
  payload : payloadOf pkt = samples

/-- The fields of an IF Data packet of 256 pairs are the values it was built from. -/
theorem ifData_fields (streamId : UInt32) (pktCount : UInt8) (tsi : UInt32) (tsfPicos : UInt64)
    (chunk : List UInt8) :
    IfDataFields
      (vitaBuildIfDataPacket streamId pktCount tsi tsfPicos chunk vitaSamplesPerPkt .u8)
      streamId pktCount tsi tsfPicos (chunk.take 512) := by
  obtain ⟨htype, hcount⟩ :=
    ifData_header streamId pktCount tsi tsfPicos chunk vitaSamplesPerPkt .u8
  refine ⟨htype, hcount, wordAt_flatMap rfl, wordAt_flatMap rfl, ifData_tsf .., ?_⟩
  rw [payloadOf, vitaBuildIfDataPacket, drop_flatMap (n := vitaHdrBytes) _ _ rfl]
  simp [ifDataPayload, vitaSamplesPerPkt]

/-- What a receiver reads from a Context packet. -/
structure ContextFields (pkt : List UInt8) (streamId : UInt32) (pktCount : UInt8)
    (payloadFmtWord0 refWord : UInt32) (changed : Bool) : Prop where
  type : pktType pkt = 4
  count : pktCountOf pkt = pktCount.toNat % 16
  streamId : streamIdOf pkt = streamId.toNat
  changed : changedOf pkt = changed
  refWord : refWordOf pkt = refWord.toNat
  pfWord0 : pfWord0Of pkt = payloadFmtWord0.toNat

section
variable (streamId : UInt32) (pktCount : UInt8) (payloadFmtWord0 refWord : UInt32) (changed : Bool)

/-- The words of a context packet. -/
theorem context_word {i : ℕ} {w : UInt32}
    (h : [vrtCtxHdrBase ||| ((pktCount &&& 0xF).toUInt32 <<< 16) ||| vitaCtxPktSizeWords, streamId,
      vitaCif0Base ||| (if changed then vitaCif0Changed else 0), refWord, payloadFmtWord0, 0][i]? =
        some w) :
    wordAt (vitaBuildContextPacket streamId pktCount payloadFmtWord0 refWord changed) i = w.toNat := by
  rw [vitaBuildContextPacket, ← List.append_nil (List.flatMap _ _)]
  exact wordAt_flatMap h

/-- The first word of a Context packet. Its fields do not overlap. -/
theorem context_word0 :
    wordAt (vitaBuildContextPacket streamId pktCount payloadFmtWord0 refWord changed) 0 =
      2^20 * 0x400 + 2^16 * (pktCount.toNat % 16) + 6 := by
  have hcount := count_toNat pktCount
  have hlt : pktCount.toNat % 16 < 16 := Nat.mod_lt _ (by norm_num)
  rw [context_word streamId pktCount payloadFmtWord0 refWord changed rfl,
    header_toNat _ _ _ 0x400 rfl (by omega) (by decide), hcount]
  rfl

/-- The fields of a Context packet are the values it was built from. -/
theorem context_fields :
    ContextFields (vitaBuildContextPacket streamId pktCount payloadFmtWord0 refWord changed)
      streamId pktCount payloadFmtWord0 refWord changed := by
  refine ⟨?_, ?_, context_word _ _ _ _ _ rfl, ?_, context_word _ _ _ _ _ rfl,
    context_word _ _ _ _ _ rfl⟩
  · rw [pktType, context_word0]
    omega
  · rw [pktCountOf, context_word0]
    omega
  · rw [changedOf, context_word _ _ _ _ _ rfl]
    cases changed <;> decide

end

end SlcRtld.Vita
