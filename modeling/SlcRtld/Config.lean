import Mathlib.Data.Int.Notation
import Mathlib.Data.Nat.Notation
import Mathlib.Data.List.TakeWhile

/-!
# Compile-time configuration

The constants of `config.h` and of the module headers that the model uses, under the source's words,
and the C strings that the daemon passes around. A C string is the list of its bytes before the
terminating NUL.
-/

namespace SlcRtld

/-- The bytes of a C string before its NUL. -/
abbrev CStr := List UInt8

/-- The bytes of a string literal of the source, which are all ASCII. -/
def bytes (s : String) : CStr := s.toList.map fun c => c.toNat.toUInt8

/-- What is left of a byte buffer when it is read as a C string: the bytes before the first NUL. -/
def cstr (b : List UInt8) : CStr := b.takeWhile (· ≠ 0)

/-- A text without NULs is a string as it is. -/
theorem cstr_of_no_nul {b : List UInt8} (h : 0 ∉ b) : cstr b = b :=
  List.takeWhile_eq_self_iff.mpr fun x hx => by
    simp only [decide_eq_true_eq]
    rintro rfl
    exact h hx

/-- A statement about every byte is 256 statements. -/
theorem toNat_induction {P : UInt8 → Prop} (h : ∀ n : Fin 256, P (UInt8.ofNat n)) (x : UInt8) :
    P x := by
  have hx := h ⟨x.toNat, x.toNat_lt⟩
  rwa [UInt8.ofNat_toNat] at hx

/-! ## Network, framing and tokens -/

/-- `MAX_SESSIONS`. -/
abbrev maxSessions : ℕ := 4

/-- There are slots. -/
instance : @NeZero ℕ Zero.ofOfNat0 maxSessions := ⟨by decide⟩

/-- `MAX_VITA_SESSIONS`. -/
abbrev maxVitaSessions : ℕ := 4

/-- `MAX_MSG_BYTES`. -/
def maxMsgBytes : ℕ := 65536

/-- `MAX_JSON_TOKENS`. -/
def maxJsonTokens : ℕ := 256

/-- A slot of the session table `s_sessions` of `cp_session.c`. -/
abbrev SessId := Fin maxSessions

/-- A slot of the session table `s_sessions` of `vita_tx.c`. -/
abbrev VitaId := Fin maxVitaSessions

/-! ## The receiver -/

/-- `sampling_mode_t`. -/
inductive SamplingMode where
  | normal
  | directI
  | directQ
deriving DecidableEq, Repr

/-- `iq_format_t`. -/
inductive IqFormat where
  | int16
  | u8
deriving DecidableEq, Repr

/-- `RTL_DEFAULT_FREQ`, in Hz. -/
def rtlDefaultFreq : ℕ := 7000000

/-- `RTL_DEFAULT_GAIN`, in tenths of a dB. -/
def rtlDefaultGain : ℤ := 200

/-- `RTL_DEFAULT_RATE_NORMAL`. -/
def rtlDefaultRateNormal : ℕ := 2048000

/-- `RTL_DEFAULT_RATE_DIRECT`. -/
def rtlDefaultRateDirect : ℕ := 1024000

/-- `RTL_SAMPLE_RATES_NORMAL`. -/
def rtlSampleRatesNormal : List ℕ := [250000, 1024000, 1536000, 1800000, 2048000, 2400000]

/-- `RTL_SAMPLE_RATES_DIRECT`. -/
def rtlSampleRatesDirect : List ℕ := [250000, 512000, 1024000, 2048000]

/-- `RTL_FREQ_MIN_NORMAL`. -/
def rtlFreqMinNormal : ℕ := 500000

/-- `RTL_FREQ_MAX_NORMAL`. -/
def rtlFreqMaxNormal : ℕ := 1766000000

/-- `RTL_FREQ_MIN_DIRECT`. -/
def rtlFreqMinDirect : ℕ := 100000

/-- `RTL_FREQ_MAX_DIRECT`. -/
def rtlFreqMaxDirect : ℕ := 30000000

/-- `RTL_BIAS_TEE_VOLTS`. -/
def rtlBiasTeeVolts : ℕ := 5

/-- `RTL_REF_LEVEL_DBM_AT_0DB`, in tenths of a dBm. -/
def rtlRefLevelDbmAt0db : ℤ := -100

/-- `RTL_REF_LEVEL_ACCURACY_DB`, in tenths of a dB. -/
def rtlRefLevelAccuracyDb : ℤ := 80

/-! ## The ADC monitor -/

/-- `RTL_ADC_STRIDE`. -/
def rtlAdcStride : ℕ := 8

/-- `RTL_ADC_CLIP_LOW`. -/
def rtlAdcClipLow : ℕ := 1

/-- `RTL_ADC_CLIP_HIGH`. -/
def rtlAdcClipHigh : ℕ := 254

/-- `RTL_ADC_CLIP_PPM_TRIGGER`. -/
def rtlAdcClipPpmTrigger : ℕ := 100

/-- `ADC_OVERLOAD_MIN_GAP_MS`. -/
def adcOverloadMinGapMs : ℕ := 1000

/-! ## VITA-49 -/

/-- `VITA_SAMPLES_PER_PKT`, in I/Q pairs. -/
def vitaSamplesPerPkt : ℕ := 256

/-- `VITA_MMSG_MAX_PKTS`. -/
def vitaMmsgMaxPkts : ℕ := 1024

/-- `VITA_PAYLOAD_FMT_COMPLEX`. -/
def vitaPayloadFmtComplex : UInt32 := 0x300001C7

/-- `VITA_PAYLOAD_FMT_REAL`. -/
def vitaPayloadFmtReal : UInt32 := 0x100001C7

end SlcRtld
