import SlcRtld.Auth.Verify
import SlcRtld.Rtl.Radio

/-!
# What the daemon says

The messages that the control plane sends, as data, and their texts. A handler of `cp_commands.c`
decides what to say and formats it in one go; here a message is first a value (`Frame`), which the
properties of the daemon speak about, and `Frame.text` is the JSON text that `send_ok`,
`send_error`, `send_event` and `broadcast` make of it, with the capacity of every buffer on the way.
-/

namespace SlcRtld.Control

open Libc Rtl Auth

/-! ## Messages -/

/-- The error codes that the handlers use. -/
inductive ErrorCode where
  | invalidRequest
  | missingParameter
  | invalidParameter
  | notSupported
  | inUse
  | unauthorized
  | unknownCommand
  | unsupportedProtocolVersion
  | unsupportedFrequency
  | unsupportedSampleRate
  | unsupportedStreamProtocol
  | unsupportedFormat
  | streamReconfigurationRequired
  | streamAlreadyOpen
  | streamNotFound
  | deviceError
  | busy
deriving DecidableEq

/-- The results of `cp_rx_control_state`. -/
inductive ControlState where
  | free
  | ownedByMe
  | ownedByOther
deriving DecidableEq

/-- The controls of the receiver. -/
inductive ControlName where
  | rfGain
  | agc
  | biasTee
  | ppmCorrection
  | directSampling
deriving DecidableEq

/-- The value of a control in a message. -/
inductive ControlValue where
  /-- A number in tenths, written with one decimal. -/
  | tenths (n : ℤ)
  | boolean (b : Bool)
  | integer (n : ℤ)
  /-- One of the words of an enumeration. -/
  | word (w : CStr)
deriving DecidableEq

/-- Why a stream stopped or started. -/
inductive StreamReason where
  | clientRequest
  | controlLost
deriving DecidableEq

/-- What `get_status` reports. -/
structure Status where
  streaming : Bool
  controlState : ControlState
  frequencyHz : ℕ
  sampleRateSps : ℕ
  actualSampleRateSps : ℕ
  gainTenthDb : ℤ
  adcOverload : Bool
  /-- The measurement behind `adc_level_dbfs`, if there is one. -/
  adcLevel : Option (ℕ × ℕ)
  agc : Bool
  biasTeeVolts : ℕ
  ppmCorrection : ℤ
  directSampling : CStr
  /-- The texts of the two sensors. -/
  boardTemperature : CStr
  supplyVoltage : CStr
deriving DecidableEq

/-- What a successful `open_stream` reports. -/
structure OpenedStream where
  streamId : CStr
  sampleRateSps : ℕ
  signalType : CStr
  sourceIp : CStr
  destinationIp : CStr
  destinationPort : ℕ
  vitaStreamId : UInt32
  format : IqFormat
deriving DecidableEq

/-- The result of a successful request. -/
inductive Result where
  | empty
  /-- `hello`, with the hex text of the nonce when authentication is required. -/
  | hello (nonceHex : Option CStr)
  /-- `authenticate`, and whether it unlocked the receiver. -/
  | authenticated (rx : Bool)
  /-- `get_capabilities` in a sampling mode. -/
  | capabilities (mode : SamplingMode)
  | status (s : Status)
  /-- `get_clock_status`: the time as text and in seconds. -/
  | clock (utcTime : CStr) (epochS : ℤ)
  | appliedFrequency (hz : ℕ)
  | appliedSampleRate (sps : ℕ)
  | appliedControl (c : ControlName) (v : ControlValue)
  | control (c : ControlName) (v : ControlValue)
  | opened (o : OpenedStream)
  | streaming (on : Bool)
  | closed
deriving DecidableEq

/-- The events. -/
inductive Event where
  | frequencyChanged (hz : ℕ)
  | sampleRateChanged (sps actual : ℕ)
  | controlChanged (c : ControlName) (v : ControlValue)
  | capabilitiesChanged
  | controlRevoked (s : ControlState)
  | streamState (streamId : CStr) (streaming : Bool) (reason : StreamReason)
  /-- The stream, and the measurement behind `adc_level_dbfs`. -/
  | adcOverload (streamId : CStr) (level : ℕ × ℕ)
deriving DecidableEq

/-- A message to one client. -/
inductive Frame where
  | ok (id : CStr) (r : Result)
  | error (id : CStr) (code : ErrorCode) (message : CStr)
  /-- The reply to a failed authentication, with the hex text of the next nonce if there is one. -/
  | authFailed (id : CStr) (nonceHex : Option CStr)
  | event (e : Event)
deriving DecidableEq

/-! ## Configuration -/

/-- What `main` sets from the command line, the key file and the device, and nothing changes
afterwards. -/
structure Options where
  /-- `g_rx_auth`. -/
  rxAuth : Bool
  /-- `g_keys`. -/
  keys : List Key
  /-- `g_device_name`. -/
  deviceName : CStr
  /-- `g_bias_tee_persist`. -/
  biasTeePersist : Bool
  /-- The gains that `rtlsdr_get_tuner_gains` lists, in tenths of a dB. -/
  tunerGains : List ℤ
  /-- `g_vita_src_port`. -/
  vitaSrcPort : ℕ
  /-- `g_u8_zero_point`, written with two decimals. -/
  zeroPoint : CStr
  /-- The level in dBFS, written with one decimal, of a sum of squares over a number of samples. -/
  dbfs : ℕ × ℕ → CStr

/-- `s_gain_default` as `load_gain_table` computes it, in tenths of a dB: the step nearest the
default gain, the first one of two. -/
def gainDefault (opts : Options) : ℤ :=
  match opts.tunerGains with
  | [] => rtlDefaultGain
  | g :: gs => gs.foldl (fun best x =>
      if (x - rtlDefaultGain).natAbs < (best - rtlDefaultGain).natAbs then x else best) g

/-! ## Texts -/

/-- A text in quotes. -/
def quoted (s : CStr) : CStr := [0x22] ++ s ++ [0x22]

/-- A member of an object. -/
def member (k : String) (v : CStr) : CStr := quoted (bytes k) ++ [0x3a] ++ v

/-- An object of members. -/
def object (ms : List CStr) : CStr := [0x7b] ++ [0x2c].intercalate ms ++ [0x7d]

/-- An array of values. -/
def array (vs : List CStr) : CStr := [0x5b] ++ [0x2c].intercalate vs ++ [0x5d]

/-- A text literal as a value. -/
def literal (s : String) : CStr := quoted (bytes s)

/-- A truth value. -/
def boolText (b : Bool) : CStr := if b then bytes "true" else bytes "false"

/-- The escape of a byte in `json_escape`. -/
def escapeByte (c : UInt8) : CStr :=
  if c = 0x22 then bytes "\\\""
  else if c = 0x5c then bytes "\\\\"
  else if c = 0x0a then bytes "\\n"
  else if c = 0x0d then bytes "\\r"
  else if c = 0x09 then bytes "\\t"
  else if c = 0x08 then bytes "\\b"
  else if c = 0x0c then bytes "\\f"
  else if c < 0x20 then bytes "\\u00" ++ fmtHexByte c
  else [c]

/-- `json_escape` into a buffer with `room` bytes left: it stops before an escape that leaves no
place for the NUL. -/
def jsonEscape (room : ℕ) : CStr → CStr
  | [] => []
  | c :: cs =>
    let esc := escapeByte c
    if room ≤ esc.length then [] else esc ++ jsonEscape (room - esc.length) cs

/-- The text of an error code. -/
def ErrorCode.text : ErrorCode → CStr
  | .invalidRequest => bytes "invalid_request"
  | .missingParameter => bytes "missing_parameter"
  | .invalidParameter => bytes "invalid_parameter"
  | .notSupported => bytes "not_supported"
  | .inUse => bytes "in_use"
  | .unauthorized => bytes "unauthorized"
  | .unknownCommand => bytes "unknown_command"
  | .unsupportedProtocolVersion => bytes "unsupported_protocol_version"
  | .unsupportedFrequency => bytes "unsupported_frequency"
  | .unsupportedSampleRate => bytes "unsupported_sample_rate"
  | .unsupportedStreamProtocol => bytes "unsupported_stream_protocol"
  | .unsupportedFormat => bytes "unsupported_format"
  | .streamReconfigurationRequired => bytes "stream_reconfiguration_required"
  | .streamAlreadyOpen => bytes "stream_already_open"
  | .streamNotFound => bytes "stream_not_found"
  | .deviceError => bytes "device_error"
  | .busy => bytes "busy"

/-- The text of a control state. -/
def ControlState.text : ControlState → CStr
  | .free => bytes "free"
  | .ownedByMe => bytes "owned_by_me"
  | .ownedByOther => bytes "owned_by_other"

/-- The text of a control's name. -/
def ControlName.text : ControlName → CStr
  | .rfGain => bytes "rf_gain"
  | .agc => bytes "agc"
  | .biasTee => bytes "bias_tee"
  | .ppmCorrection => bytes "ppm_correction"
  | .directSampling => bytes "direct_sampling"

/-- The text of a control's value. -/
def ControlValue.text : ControlValue → CStr
  | .tenths n => fmtTenths n
  | .boolean b => boolText b
  | .integer n => fmtInt n
  | .word w => quoted w

/-- The text of a reason. -/
def StreamReason.text : StreamReason → CStr
  | .clientRequest => bytes "client_request"
  | .controlLost => bytes "control_lost"

/-- `ds_names`: the word for a sampling mode. -/
def dsName : SamplingMode → CStr
  | .normal => bytes "off"
  | .directI => bytes "i_branch"
  | .directQ => bytes "q_branch"

/-- The member that says that a message is about the receiver. -/
def rxMember : CStr := member "function" (literal "rx")

/-- The text of `get_status`. -/
def Status.text (opts : Options) (s : Status) : CStr :=
  object [member "rx" (object [
    member "enabled" (boolText true),
    member "streaming" (boolText s.streaming),
    member "control_state" (quoted s.controlState.text),
    member "frequency_hz" (fmtUnsigned s.frequencyHz),
    member "sample_rate_sps" (fmtUnsigned s.sampleRateSps),
    member "actual_sample_rate_sps" (fmtUnsigned s.actualSampleRateSps),
    member "reference_level_dbm" (fmtTenths (rtlRefLevelDbmAt0db - s.gainTenthDb)),
    member "adc_overload" (boolText s.adcOverload),
    member "adc_level_dbfs" (s.adcLevel.elim (bytes "null") opts.dbfs),
    member "lo_locked" (bytes "null"),
    member "controls" (object [
      member "rf_gain" (fmtTenths s.gainTenthDb),
      member "agc" (boolText s.agc),
      member "bias_tee" (fmtTenths (10 * s.biasTeeVolts)),
      member "ppm_correction" (fmtInt s.ppmCorrection),
      member "direct_sampling" (quoted s.directSampling)]),
    member "hardware_monitors" (object [
      member "pa_temperature_celsius" (bytes "null"),
      member "pa_supply_voltage_v" (bytes "null"),
      member "pa_drain_current_ma" (bytes "null"),
      member "board_temperature_celsius" s.boardTemperature,
      member "supply_voltage_v" s.supplyVoltage,
      member "total_current_ma" (bytes "null")])])]

/-- The controls that `build_capabilities_json` publishes. -/
def controlsText (opts : Options) : CStr :=
  let volts := fmtTenths (10 * rtlBiasTeeVolts)
  array [
    object [member "name" (literal "rf_gain"), member "type" (literal "float"),
      member "unit" (literal "dB"), member "min" (fmtTenths (opts.tunerGains.headD 0)),
      member "max" (fmtTenths (opts.tunerGains.getLastD 496)),
      member "default" (fmtTenths (gainDefault opts)),
      member "allowed_values" (snprintf 400 (array (opts.tunerGains.map fmtTenths)))],
    object [member "name" (literal "agc"), member "type" (literal "boolean"),
      member "default" (boolText false)],
    object [member "name" (literal "bias_tee"), member "type" (literal "float"),
      member "unit" (literal "V"), member "min" (fmtTenths 0), member "max" volts,
      member "step" volts, member "default" (fmtTenths 0),
      member "allowed_values" (array [fmtTenths 0, volts])],
    object [member "name" (literal "ppm_correction"), member "type" (literal "integer"),
      member "min" (fmtInt (-100)), member "max" (fmtInt 100), member "step" (fmtInt 1),
      member "default" (fmtInt 0)],
    object [member "name" (literal "direct_sampling"), member "type" (literal "enum"),
      member "values" (array [literal "off", literal "i_branch", literal "q_branch"]),
      member "default" (literal "off")]]

/-- `build_capabilities_json` in a sampling mode. -/
def buildCapabilitiesJson (opts : Options) (mode : SamplingMode) : CStr :=
  object [
    member "schema" (literal "sdrslc.capabilities"),
    member "schema_version" (bytes "2"),
    member "rx" (object [
      member "tier" (bytes "2"),
      member "access" (literal "exclusive"),
      member "auth" (quoted (if opts.rxAuth then authMethodPsk else bytes "none")),
      member "frequency_ranges_hz" (array [object [
        member "min" (fmtUnsigned (rtlFreqMin mode)),
        member "max" (fmtUnsigned (rtlFreqMax mode))]]),
      -- `rates_arr` and `controls` are buffers of 160 and 1200 bytes
      member "sample_rates_sps" (snprintf 160 (array ((rtlRateList mode).map fmtUnsigned))),
      member "preferred_sample_rate_sps" (fmtUnsigned (rtlPreferredRate mode)),
      member "preferred_gain_db" (fmtTenths (gainDefault opts)),
      member "reference_level_dbm_at_preferred_gain"
        (fmtTenths (rtlRefLevelDbmAt0db - gainDefault opts)),
      member "reference_level_accuracy_db" (fmtTenths rtlRefLevelAccuracyDb),
      member "transports" (array [object [
        member "protocol" (literal "vita49"),
        member "protocol_version" (literal "VITA-A/1.0"),
        member "source_port" (fmtUnsigned opts.vitaSrcPort),
        member "samples_per_packet" (fmtUnsigned vitaSamplesPerPkt)]]),
      member "iq_formats" (array [object [
        member "encoding" (literal "unsigned"),
        member "bits_per_component" (bytes "8"),
        member "container_bits" (bytes "8"),
        member "packing" (literal "interleaved"),
        member "byte_order" (literal "big_endian"),
        member "zero_point" opts.zeroPoint,
        member "native" (boolText true),
        member "supported" (boolText true),
        member "label" (literal "u8")]]),
      member "controls" (snprintf 1200 (controlsText opts))])]

/-- The text of a successful `open_stream`. -/
def OpenedStream.text (opts : Options) (o : OpenedStream) : CStr :=
  let u8 : Bool := o.format = .u8
  let bits := bytes (if u8 then "8" else "16")
  object [
    member "stream_id" (quoted o.streamId),
    rxMember,
    member "sample_rate_sps" (fmtUnsigned o.sampleRateSps),
    member "signal_type" (quoted o.signalType),
    member "vita" (object [
      member "protocol_version" (literal "VITA-A/1.0"),
      member "source" (object [member "ip" (quoted o.sourceIp),
        member "port" (fmtUnsigned opts.vitaSrcPort)]),
      member "destination" (object [member "ip" (quoted o.destinationIp),
        member "port" (fmtUnsigned o.destinationPort)]),
      member "samples_per_packet" (fmtUnsigned vitaSamplesPerPkt),
      member "stream_id" (fmtUnsigned o.vitaStreamId.toNat),
      member "packet_class" (literal "if_data"),
      member "timestamp_mode" (literal "utc_picoseconds"),
      member "format" (object ([
        member "encoding" (literal (if u8 then "unsigned" else "twos_complement")),
        member "bits_per_component" bits,
        member "container_bits" bits,
        member "packing" (literal "interleaved"),
        member "byte_order" (literal "big_endian")] ++
        (if u8 then [member "zero_point" opts.zeroPoint] else []) ++
        [member "native" (boolText u8),
        member "supported" (boolText true),
        member "label" (literal (if u8 then "u8" else "int16"))]))])]

/-- The text of a result, cut to the buffer that it is formatted in. -/
def Result.text (opts : Options) : Result → CStr
  | .empty => object []
  | .hello nonceHex => snprintf 800 (object ([
      member "protocol_name" (literal "SDR-SLC Control Plane"),
      member "selected_protocol_version" (literal "1.0"),
      member "device_name" (quoted opts.deviceName),
      member "manufacturer" (literal "IXChange BV"),
      member "model" (literal "RTL-SDR SDR-SLC Bridge"),
      member "hardware_revision" (literal "RTL-SDR-v4"),
      member "firmware_version" (literal "sdr-slc-rtld/1.0")] ++
      nonceHex.elim [] fun hex => [member "auth" (object [
        member "methods" (array [quoted authMethodPsk]), member "nonce" (quoted hex)])]))
  | .authenticated rx => object [
      member "authenticated" (boolText true),
      member "functions" (array (if rx then [literal "rx"] else []))]
  | .capabilities mode => snprintf 6272 (object [
      member "capabilities" (snprintf 6144 (buildCapabilitiesJson opts mode))])
  | .status s => snprintf 1024 (s.text opts)
  | .clock utcTime epochS => snprintf 256 (object [
      member "source" (literal "free_running"),
      member "synced" (boolText false),
      member "accuracy_us" (bytes "null"),
      member "utc_time" (quoted utcTime),
      member "epoch_s" (fmtInt epochS),
      member "ptp" (object [member "available" (boolText false)]),
      member "gps" (object [member "available" (boolText false)])])
  | .appliedFrequency hz =>
      snprintf 128 (object [rxMember, member "applied_frequency_hz" (fmtUnsigned hz)])
  | .appliedSampleRate sps =>
      snprintf 160 (object [rxMember, member "applied_sample_rate_sps" (fmtUnsigned sps)])
  | .appliedControl c v => snprintf 160 (object [
      rxMember, member "name" (quoted c.text), member "applied_value" v.text])
  | .control c v => snprintf 160 (object [
      rxMember, member "name" (quoted c.text), member "value" v.text])
  | .opened o => snprintf 1400 (o.text opts)
  | .streaming on => object [rxMember, member "streaming" (boolText on)]
  | .closed => object [member "closed" (boolText true)]

/-- The name of an event. -/
def Event.name : Event → CStr
  | .frequencyChanged _ => bytes "frequency_changed"
  | .sampleRateChanged _ _ => bytes "sample_rate_changed"
  | .controlChanged _ _ => bytes "control_changed"
  | .capabilitiesChanged => bytes "warning"
  | .controlRevoked _ => bytes "control_revoked"
  | .streamState _ _ _ => bytes "stream_state"
  | .adcOverload _ _ => bytes "adc_overload"

/-- The parameters of an event, cut to the buffer that they are formatted in. -/
def Event.params (opts : Options) : Event → CStr
  | .frequencyChanged hz =>
      snprintf 128 (object [rxMember, member "frequency_hz" (fmtUnsigned hz)])
  | .sampleRateChanged sps actual => snprintf 192 (object [
      rxMember, member "sample_rate_sps" (fmtUnsigned sps),
      member "actual_sample_rate_sps" (fmtUnsigned actual)])
  | .controlChanged c v => snprintf 192 (object [
      rxMember, member "name" (quoted c.text), member "value" v.text])
  | .capabilitiesChanged => object [
      member "code" (literal "capabilities_changed"),
      member "message" (literal ("direct_sampling changed; re-read get_capabilities for the "
        ++ "current frequency range and sample rates"))]
  | .controlRevoked s => object [rxMember, member "control_state" (quoted s.text)]
  | .streamState streamId streaming reason => snprintf 192 (object [
      member "stream_id" (quoted streamId), member "streaming" (boolText streaming), rxMember,
      member "reason" (quoted reason.text)])
  | .adcOverload streamId level => snprintf 224 (object [
      member "stream_id" (quoted streamId), rxMember, member "adc_level_dbfs" (opts.dbfs level),
      member "suggested_action" (literal "reduce_rf_gain")])

/-- The members that begin a response. -/
def responseMembers (id : CStr) (status : String) : List CStr :=
  [member "type" (literal "response"), member "id" (quoted (jsonEscape 288 id)),
    member "status" (literal status)]

/-- The text that `send_ok` hands to `send_framed`. -/
def okText (id result : CStr) : CStr :=
  snprintf maxMsgBytes (object (responseMembers id "ok" ++ [member "result" result]))

/-- The text that `send_error` hands to `send_framed`. -/
def errorText (id : CStr) (code : ErrorCode) (message : CStr) : CStr :=
  snprintf 1024 (object (responseMembers id "error" ++
    [member "error" (object [member "code" (quoted code.text),
      member "message" (quoted (jsonEscape 512 message))])]))

/-- The text that `cmd_authenticate` hands to `send_framed` after a failure. -/
def authFailedText (id : CStr) (nonceHex : Option CStr) : CStr :=
  let details := nonceHex.elim (object []) fun hex =>
    snprintf 96 (object [member "nonce" (quoted hex)])
  snprintf 640 (object (responseMembers id "error" ++
    [member "error" (object [
      member "code" (literal "auth_failed"),
      member "message" (literal "authentication was rejected"),
      member "details" details])]))

/-- The text that is handed to `send_framed`. -/
def Frame.text (opts : Options) : Frame → CStr
  | .ok id r => okText id (r.text opts)
  | .error id code message => errorText id code message
  | .authFailed id nonceHex => authFailedText id nonceHex
  | .event e => snprintf 512 (object [member "type" (literal "event"),
      member "event" (quoted e.name), member "params" (e.params opts)])

/-- The id that a response carries. An event has none. -/
def Frame.id : Frame → Option CStr
  | .ok id _ | .error id _ _ | .authFailed id _ => some id
  | .event _ => none

/-- A response with the status `error`. -/
def Frame.isError : Frame → Bool
  | .error _ _ _ => true
  | .authFailed _ _ => true
  | _ => false

end SlcRtld.Control
