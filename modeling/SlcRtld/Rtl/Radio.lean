import SlcRtld.Config
import SlcRtld.Libc.Double

/-!
# The receiver's settings

The globals of `rtl/rtl_bridge.c` that say how the receiver is set, and the functions that set them.
A setter calls librtlsdr and then stores what the library reports back; the reports of the library
are a parameter (`Device`), and the calls that change the hardware are returned in order, the last
one first. The mutex around each setter makes it one step.
-/

namespace SlcRtld.Rtl

open Libc

/-- The hardware state that the control plane reads and sets. -/
structure Radio where
  /-- `g_freq_hz`. -/
  freqHz : ℕ
  /-- `g_rate_sps`, the rate that the hardware runs at. -/
  rateSps : ℕ
  /-- `g_rate_requested_sps`, the rate that was asked for. -/
  rateRequestedSps : ℕ
  /-- `g_gain_tenth_db`. -/
  gainTenthDb : ℤ
  /-- `g_agc_enabled`. -/
  agcEnabled : Bool
  /-- `g_bias_tee_enabled`. -/
  biasTeeEnabled : Bool
  /-- `g_bias_tee_volts`. -/
  biasTeeVolts : ℕ
  /-- `g_ppm_correction`. -/
  ppmCorrection : ℤ
  /-- `g_sampling_mode`. -/
  samplingMode : SamplingMode
deriving DecidableEq

/-- The librtlsdr calls that set hardware. -/
inductive HwCall where
  | setCenterFreq (hz : UInt32)
  | setSampleRate (sps : UInt32)
  | setTunerGainMode (manual : Bool)
  | setTunerGain (tenth : ℤ)
  | setAgcMode (on : Bool)
  | setBiasTee (on : Bool)
  | setFreqCorrection (ppm : ℤ)
  | setDirectSampling (branch : ℕ)
  | resetBuffer
  | cancelAsync
deriving DecidableEq

/-- What librtlsdr answers: the values it reads back after a setting, and return codes. -/
structure Device where
  /-- The frequency read back after one was set. -/
  centerFreq : UInt32 → UInt32
  /-- The sample rate read back after one was set. -/
  sampleRate : UInt32 → UInt32
  /-- The gain read back after one was set, in tenths of a dB. -/
  tunerGain : ℤ → ℤ
  /-- The gain read back before one was set. -/
  startGain : ℤ
  /-- The return code of `rtlsdr_set_bias_tee`. -/
  setBiasTee : ℤ
  /-- The return code of `rtlsdr_set_freq_correction`. -/
  setFreqCorrection : ℤ
  /-- The return code of `rtlsdr_set_direct_sampling`. -/
  setDirectSampling : ℤ

/-- The device does what it is asked: no read-back of zero, and no error code. -/
structure Device.Succeeds (dev : Device) : Prop where
  centerFreq : ∀ hz, dev.centerFreq hz ≠ 0
  sampleRate : ∀ sps, dev.sampleRate sps ≠ 0
  setBiasTee : dev.setBiasTee = 0
  setFreqCorrection : dev.setFreqCorrection = 0
  setDirectSampling : dev.setDirectSampling = 0

/-! ## Limits of the sampling mode -/

/-- `rtl_freq_min`. -/
def rtlFreqMin : SamplingMode → ℕ
  | .normal => rtlFreqMinNormal
  | _ => rtlFreqMinDirect

/-- `rtl_freq_max`. -/
def rtlFreqMax : SamplingMode → ℕ
  | .normal => rtlFreqMaxNormal
  | _ => rtlFreqMaxDirect

/-- `rtl_rate_list`. -/
def rtlRateList : SamplingMode → List ℕ
  | .normal => rtlSampleRatesNormal
  | _ => rtlSampleRatesDirect

/-- `rtl_preferred_rate`. -/
def rtlPreferredRate : SamplingMode → ℕ
  | .normal => rtlDefaultRateNormal
  | _ => rtlDefaultRateDirect

/-- `sampling_mode_payload_fmt`. -/
def samplingModePayloadFmt : SamplingMode → UInt32
  | .normal => vitaPayloadFmtComplex
  | _ => vitaPayloadFmtReal

/-- `sampling_mode_signal_type`. -/
def samplingModeSignalType : SamplingMode → CStr
  | .directI => bytes "real_i_branch"
  | .directQ => bytes "real_q_branch"
  | .normal => bytes "complex_iq"

/-- `rtl_reference_level_dbm`: the level drops as the gain rises. -/
def rtlReferenceLevelDbm (gainDb : Double) : Double := (Double.finite (-10)).sub gainDb

/-! ## Setters -/

variable (dev : Device)

/-- `rtl_set_frequency`: the frequency read back, zero standing for a failure. -/
def rtlSetFrequency (freqHz : ℕ) (r : Radio) : ℕ × Radio × List HwCall :=
  let asked := freqHz.toUInt32
  let applied := dev.centerFreq asked
  (applied.toNat, if applied ≠ 0 then { r with freqHz := applied.toNat } else r,
    [.setCenterFreq asked])

/-- `rtl_set_sample_rate`. The requested rate is stored also when the setting failed. -/
def rtlSetSampleRate (rateSps : ℕ) (r : Radio) : ℕ × Radio × List HwCall :=
  let asked := rateSps.toUInt32
  let applied := dev.sampleRate asked
  (applied.toNat,
    { (if applied ≠ 0 then { r with rateSps := applied.toNat } else r) with
      rateRequestedSps := rateSps },
    [.setSampleRate asked])

/-- `rtl_set_gain`: the gain read back, in tenths of a dB. -/
def rtlSetGain (gainDb : Double) (r : Radio) : ℤ × Radio × List HwCall :=
  let tenth := (gainDb.mulPos 10).roundToInt
  let applied := dev.tunerGain tenth
  (applied, { r with gainTenthDb := applied }, [.setTunerGain tenth, .setTunerGainMode true])

/-- `rtl_set_agc`: turning it off restores the last gain that was set. -/
def rtlSetAgc (enable : Bool) (r : Radio) : Unit × Radio × List HwCall :=
  ((), { r with agcEnabled := enable },
    (if enable then [.setTunerGainMode false]
      else [.setTunerGain r.gainTenthDb, .setTunerGainMode true]) ++ [.setAgcMode enable])

/-- `rtl_set_bias_tee`, on whether the voltage asked for is above zero. -/
def rtlSetBiasTee (enable : Bool) (r : Radio) : ℤ × Radio × List HwCall :=
  (dev.setBiasTee,
    if dev.setBiasTee = 0 then
      { r with biasTeeEnabled := enable, biasTeeVolts := if enable then rtlBiasTeeVolts else 0 }
    else r,
    [.setBiasTee enable])

/-- The branch that `rtlsdr_set_direct_sampling` is given for a mode. -/
def directSamplingBranch : SamplingMode → ℕ
  | .normal => 0
  | .directI => 1
  | .directQ => 2

/-- `rtl_set_direct_sampling`. -/
def rtlSetDirectSampling (mode : SamplingMode) (r : Radio) : ℤ × Radio × List HwCall :=
  (dev.setDirectSampling,
    if dev.setDirectSampling = 0 then { r with samplingMode := mode } else r,
    [.setDirectSampling (directSamplingBranch mode)])

/-- `rtl_set_ppm`. -/
def rtlSetPpm (ppm : ℤ) (r : Radio) : ℤ × Radio × List HwCall :=
  (dev.setFreqCorrection,
    if dev.setFreqCorrection = 0 then { r with ppmCorrection := ppm } else r,
    [.setFreqCorrection ppm])

/-! ## Startup -/

/-- The command line options that `rtl_bridge_init` and `main` set the receiver from. -/
structure Startup where
  /-- The sampling mode. -/
  mode : SamplingMode
  /-- Whether `--bias-tee` or `--bias-tee-persist` was given. -/
  biasTee : Bool
  /-- Whether `--agc` was given. -/
  agc : Bool
  /-- The value of `--ppm`. -/
  ppm : ℤ
  /-- The value of `--gain`, in tenths of a dB. -/
  gainTenth : ℤ

/-- The settings after `rtl_bridge_init`, and after `main` has applied `--gain`. With `--agc` no
gain is set, and the one that is read back is the device's own. -/
def rtlBridgeInit (o : Startup) : Radio :=
  let r : Radio :=
    { freqHz := (dev.centerFreq rtlDefaultFreq.toUInt32).toNat
      rateSps := (dev.sampleRate (rtlPreferredRate o.mode).toUInt32).toNat
      rateRequestedSps := rtlPreferredRate o.mode
      gainTenthDb := if o.agc then dev.startGain else dev.tunerGain rtlDefaultGain
      agcEnabled := o.agc
      biasTeeEnabled := dev.setBiasTee = 0 && o.biasTee
      biasTeeVolts := if dev.setBiasTee = 0 && o.biasTee then rtlBiasTeeVolts else 0
      ppmCorrection := o.ppm
      samplingMode := o.mode }
  if !o.agc && o.gainTenth ≠ rtlDefaultGain then
    (rtlSetGain dev (Double.ofRat (o.gainTenth / 10)) r).2.1
  else r

end SlcRtld.Rtl
