import SlcRtld.Control.Ops

/-!
# The command handlers

The handlers of `cp_commands.c`, as programs over the operations of a session thread. A program text
follows the function it models, in the order of its reads, locks and replies; `return` leaves a
handler where the source does. The texts of the errors are the source's.
-/

namespace SlcRtld.Control

open Libc Rtl Auth Vita Json Effect
open Effect.Prog (perform when)

/-! ## Replies and parameters -/

/-- `send_ok`. -/
def sendOk (id : CStr) (r : Result) : Prog Op Unit := perform (.send (.ok id r))

/-- `send_error`. -/
def sendError (id : CStr) (code : ErrorCode) (message : String) : Prog Op Unit :=
  perform (.send (.error id code (bytes message)))

/-- `send_event`. -/
def sendEvent (e : Event) : Prog Op Unit := perform (.send (.event e))

/-- `cp_broadcast_event`. -/
def cpBroadcastEvent (e : Event) : Prog Op Unit := perform (.broadcast false e)

/-- `cp_broadcast_event_except` of the session itself. -/
def cpBroadcastEventExcept (e : Event) : Prog Op Unit := perform (.broadcast true e)

/-- `cp_rx_release`. -/
def cpRxRelease : Prog Op Unit := do
  let released ← perform .rxReleaseLocked
  when released (cpBroadcastEventExcept (.controlRevoked .free))

/-- `rtl_bridge_stop`. -/
def rtlBridgeStop : Prog Op Unit := do
  let join ← perform .bridgeStopLocked
  when join (perform .pthreadJoin)

/-- `find_params`. -/
def findParams : Prog Op (Option ℕ) := perform (.tokFindKey 0 "params")

/-- `require_function`: the index of the parameters, or none when an error has been sent. -/
def requireFunction (id : CStr) : Prog Op (Option ℕ) := do
  let some p ← findParams | do
    sendError id .missingParameter "params required"
    return none
  let some f ← perform (.tokFindKey p "function") | do
    if (← perform (.tokFindKey p "direction")).isSome then
      sendError id .missingParameter ("function required (Release 1.2 renamed direction "
        ++ "to function; see SDR-SLC-CP-1.0 12.1)")
      return none
    else
      sendError id .missingParameter "function required"
      return none
  if ← perform (.tokEq f "rx") then
    return some p
  else
    sendError id .notSupported "This device implements the rx function block only"
    return none

/-- `channel_ok`. -/
def channelOk (id : CStr) (p : ℕ) : Prog Op Bool := do
  if (← perform (.tokFindKey p "channel")).isNone then
    return true
  else
    sendError id .invalidParameter ("This device has a single signal path and publishes no "
      ++ "channels; omit the channel parameter")
    return false

/-- `may_configure`. -/
def mayConfigure (id : CStr) : Prog Op Bool := do
  if !(← perform .rxOwnedByOther) then
    return true
  else
    sendError id .inUse "The rx channel is held by another client"
    return false

/-- `tok_is_bool`. -/
def tokIsBool (t : ℕ) : Prog Op Bool := do
  if ← perform (.tokIsPrimitive t "true") then return true
  perform (.tokIsPrimitive t "false")

/-- A primitive that is not a truth value, which the numeric controls take for a number. -/
def tokIsNumeric (t : ℕ) : Prog Op Bool := do
  if (← perform (.tokType t)) ≠ .primitive then return false
  return !(← tokIsBool t)

/-! ## Envelope -/

variable (opts : Options)

/-- A session whose `hello` has been accepted. -/
def Session.accept (name : CStr) (s : Session) : Session :=
  { s with clientName := name, state := .idle }

/-- A session after `cmd_hello` has tried to make a nonce. -/
def Session.challenge (made : Bool) (s : Session) : Session :=
  if made then { s with nonceValid := true } else { s with nonceValid := false, nonceHex := [] }

/-- The challenge part of `cmd_hello`: the hex text that the reply carries. -/
def issueChallenge : Prog Op CStr := do
  let made ← perform .makeNonce
  perform (.modify (Session.challenge made))
  return (← perform .self).nonceHex

/-- The message for a `hello` without a list of versions. -/
def versionsRequired : String :=
  "hello requires supported_protocol_versions, an array of version strings such as [\"1.0\"]"

/-- `cmd_hello`. -/
def cmdHello (id : CStr) : Prog Op Unit := do
  let some p ← findParams | sendError id .missingParameter "params required"
  let some v ← perform (.tokFindKey p "supported_protocol_versions") |
    sendError id .missingParameter versionsRequired
  if (← perform (.tokType v)) ≠ .array then
    return ← sendError id .missingParameter versionsRequired
  let (supports, offeredRelease) ← perform (.offeredVersions v)
  if !supports then
    return ← sendError id .unsupportedProtocolVersion
      (if offeredRelease then "No common protocol version: this device speaks \"1.0\". "
        ++ "Release numbers (1.1, 1.2, 1.3) are document revisions, "
        ++ "not protocol versions (SDR-SLC-CP-1.0 10.1)"
      else "No common protocol version; this device speaks \"1.0\"")
  let name ← match ← perform (.tokFindKey p "client_name") with
    | some c => perform (.tokStr c 48)
    | none => pure (bytes "(unnamed)")
  perform (.modify (Session.accept name))
  if opts.rxAuth then
    let hex ← issueChallenge
    sendOk id (.hello (some hex))
  else
    sendOk id (.hello none)

/-- `AUTH_MAX_FAILURES`. -/
def authMaxFailures : UInt32 := 10

/-- `AUTH_WINDOW_NS`. -/
def authWindowNs : UInt64 := 60000000000

/-- The parameters of `cmd_authenticate`: method, key and response. -/
def authParams (id : CStr) : Prog Op (Option (CStr × CStr × CStr)) := do
  let missing : Prog Op (Option (CStr × CStr × CStr)) := do
    sendError id .missingParameter ("authenticate requires \"method\" and \"response\"; "
      ++ "\"key_id\" defaults to \"default\"")
    return none
  let some p ← findParams | missing
  let mi ← perform (.tokFindKey p "method")
  let ki ← perform (.tokFindKey p "key_id")
  let ri ← perform (.tokFindKey p "response")
  match mi, ri with
  | some mi, some ri =>
    let method ← perform (.tokStr mi 48)
    let resp ← perform (.tokStr ri 80)
    match ki with
    | some ki => return some (method, ← perform (.tokStr ki authKeyIdMax), resp)
    | none => return some (method, bytes "default", resp)
  | _, _ => missing

/-- The start of a new minute of attempts, when the last one is over. -/
def Session.refreshWindow (now : UInt64) (s : Session) : Session :=
  if Control.authWindowNs < now - s.authWindowNs then { s with authWindowNs := now, authFailures := 0 }
  else s

/-- One more failure. -/
def Session.countFailure (s : Session) : Session := { s with authFailures := s.authFailures + 1 }

/-- The decision to close the connection after too many failures. -/
def Session.limitFailures (s : Session) : Session :=
  if authMaxFailures ≤ s.authFailures then { s with closeAfterReply := true } else s

/-- The session after a response has been accepted. -/
def Session.unlock (s : Session) : Session := { s with rxUnlocked := true, nonceValid := false }

/-- A failed attempt in `cmd_authenticate`: the next challenge, the reply and the count. -/
def authFailed (id : CStr) : Prog Op Unit := do
  perform (.modify Session.countFailure)
  let made ← perform .makeNonce
  perform (.modify fun s => { s with nonceValid := made })
  let s ← perform .self
  perform (.send (.authFailed id (if made then some s.nonceHex else none)))
  perform (.modify Session.limitFailures)

/-- `cmd_authenticate`. -/
def cmdAuthenticate (id : CStr) : Prog Op Unit := do
  if !opts.rxAuth then
    return ← sendOk id (.authenticated false)
  let some (method, keyId, resp) ← authParams id | return
  let now ← perform .monoNs
  perform (.modify (Session.refreshWindow now))
  if ← perform (.checkResponse method keyId resp) then
    perform (.modify Session.unlock)
    sendOk id (.authenticated true)
  else
    authFailed id

/-- `cmd_addresses_rx`. -/
def cmdAddressesRx (cmd : CStr) : Prog Op Bool := do
  if cmd = bytes "start_rx" ∨ cmd = bytes "stop_rx" ∨ cmd = bytes "close_stream" then
    return true
  if cmd ≠ bytes "set_frequency" ∧ cmd ≠ bytes "set_sample_rate" ∧ cmd ≠ bytes "set_control" ∧
      cmd ≠ bytes "open_stream" then
    return false
  let some p ← findParams | return false
  let some f ← perform (.tokFindKey p "function") | return false
  perform (.tokEq f "rx")

/-- `cmd_get_capabilities`. -/
def cmdGetCapabilities (id : CStr) : Prog Op Unit := do
  let r ← perform .radio
  sendOk id (.capabilities r.samplingMode)

/-- `cmd_ping`. -/
def cmdPing (id : CStr) : Prog Op Unit := sendOk id .empty

/-! ## Status -/

/-- `cmd_get_status`. -/
def cmdGetStatus (id : CStr) : Prog Op Unit := do
  let adcLevel ← perform .adcLevel
  let (temperature, voltage) ← perform .sensors
  let s ← perform .self
  let controlState ← perform .rxControlState
  let r ← perform .radio
  let overload ← perform .adcOverload
  sendOk id (.status
    { streaming := s.state = .streaming
      controlState := controlState
      frequencyHz := r.freqHz
      sampleRateSps := r.rateRequestedSps
      actualSampleRateSps := r.rateSps
      gainTenthDb := r.gainTenthDb
      adcOverload := overload
      adcLevel := adcLevel
      agc := r.agcEnabled
      biasTeeVolts := r.biasTeeVolts
      ppmCorrection := r.ppmCorrection
      directSampling := dsName r.samplingMode
      boardTemperature := temperature
      supplyVoltage := voltage })

/-- `cmd_get_clock_status`. -/
def cmdGetClockStatus (id : CStr) : Prog Op Unit := do
  let (iso, epoch) ← perform .utcNow
  sendOk id (.clock iso epoch)

/-! ## Configuration -/

/-- `cmd_set_frequency`. -/
def cmdSetFrequency (id : CStr) : Prog Op Unit := do
  let some p ← requireFunction id | return
  if !(← channelOk id p) then return
  if !(← mayConfigure id) then return
  let some fi ← perform (.tokFindKey p "frequency_hz") |
    sendError id .missingParameter "frequency_hz required"
  let (freq, erange) := strtoull (← perform (.tokStr fi 32))
  if erange ∨ freq < 1 then
    return ← sendError id .invalidParameter "frequency_hz out of range"
  let mode := (← perform .radio).samplingMode
  if freq < rtlFreqMin mode ∨ rtlFreqMax mode < freq then
    return ← sendError id .unsupportedFrequency
      "Frequency outside the published range for this mode"
  let applied ← perform (.set (.frequency freq))
  if applied = 0 then
    return ← sendError id .deviceError "Frequency set failed"
  sendOk id (.appliedFrequency applied)
  cpBroadcastEvent (.frequencyChanged applied)

/-- `cmd_set_sample_rate`. -/
def cmdSetSampleRate (id : CStr) : Prog Op Unit := do
  let some p ← requireFunction id | return
  if !(← channelOk id p) then return
  if !(← mayConfigure id) then return
  let s ← perform .self
  if s.state = .streaming ∨ s.state = .streamOpen then
    return ← sendError id .streamReconfigurationRequired
      "Close the stream before changing the sample rate"
  let some ri ← perform (.tokFindKey p "sample_rate_sps") |
    sendError id .missingParameter "sample_rate_sps required"
  let rate := (strtoull (← perform (.tokStr ri 16))).1 % 2 ^ 32
  if rate ∉ rtlRateList (← perform .radio).samplingMode then
    return ← sendError id .unsupportedSampleRate
      "Rate not present in the published sample_rates_sps"
  let applied ← perform (.set (.sampleRate rate))
  if applied = 0 then
    return ← sendError id .deviceError "Sample rate set failed"
  sendOk id (.appliedSampleRate rate)
  cpBroadcastEvent (.sampleRateChanged rate applied)

/-- The frequency part of `apply_mode_change_side_effects`. -/
def retuneForMode : Prog Op Unit := do
  let r ← perform .radio
  when (r.freqHz < rtlFreqMin r.samplingMode ∨ rtlFreqMax r.samplingMode < r.freqHz) do
    let target := if r.freqHz < rtlFreqMin r.samplingMode then rtlFreqMin r.samplingMode
      else rtlFreqMax r.samplingMode
    let applied ← perform (.set (.frequency target))
    when (applied ≠ 0) (cpBroadcastEvent (.frequencyChanged applied))

/-- The sample rate part of `apply_mode_change_side_effects`. -/
def resampleForMode : Prog Op Unit := do
  let r ← perform .radio
  when (r.rateRequestedSps ∉ rtlRateList r.samplingMode) do
    let want := rtlPreferredRate r.samplingMode
    let applied ← perform (.set (.sampleRate want))
    when (applied ≠ 0) (cpBroadcastEvent (.sampleRateChanged want applied))

/-- `apply_mode_change_side_effects`. -/
def applyModeChangeSideEffects : Prog Op Unit := do
  retuneForMode
  resampleForMode
  let r ← perform .radio
  perform (.vitaUpdatePayloadFormat (samplingModePayloadFmt r.samplingMode))
  perform .vitaSendContextAll

/-- Whether a gain is one of the tuner's steps, as `cmd_set_control` decides it. -/
def onGainList (val : Double) : Bool :=
  opts.tunerGains.any fun g =>
    (val.sub (Double.ofRat (g / 10))).fabs.ltRat (Double.roundBits 53 (-1074) (1 / 20))

/-- The `rf_gain` branch of `cmd_set_control`. -/
def setRfGain (id : CStr) (vi : ℕ) (valstr : CStr) : Prog Op Unit := do
  if !(← tokIsNumeric vi) then
    return ← sendError id .invalidParameter "rf_gain requires a numeric value"
  if (← perform .radio).agcEnabled then
    let r ← perform .radio
    return ← sendOk id (.appliedControl .rfGain (.tenths r.gainTenthDb))
  let val := strtod valstr
  if !onGainList opts val then
    return ← sendError id .invalidParameter ("rf_gain must be one of the tuner's steps listed in "
      ++ "capabilities.rx.controls[rf_gain].allowed_values")
  let applied ← perform (.set (.gain val))
  sendOk id (.appliedControl .rfGain (.tenths applied))
  perform .vitaSendContextAll
  cpBroadcastEvent (.controlChanged .rfGain (.tenths applied))

/-- The `agc` branch of `cmd_set_control`. -/
def setAgc (id : CStr) (vi : ℕ) : Prog Op Unit := do
  if !(← tokIsBool vi) then
    return ← sendError id .invalidParameter "agc requires true or false"
  let en ← perform (.tokIsPrimitive vi "true")
  perform (.set (.agc en))
  sendOk id (.appliedControl .agc (.boolean en))
  perform .vitaSendContextAll
  cpBroadcastEvent (.controlChanged .agc (.boolean en))

/-- The `bias_tee` branch of `cmd_set_control`. -/
def setBiasTee (id : CStr) (vi : ℕ) (valstr : CStr) : Prog Op Unit := do
  if !(← tokIsNumeric vi) then
    return ← sendError id .invalidParameter
      "bias_tee is a float in volts (0.0 or 5.0), not a boolean"
  let volts := strtod valstr
  if volts ≠ .finite 0 ∧ volts ≠ .finite rtlBiasTeeVolts then
    return ← sendError id .invalidParameter
      "bias_tee accepts only the published allowed_values"
  let rc ← perform (.set (.biasTee (volts = .finite rtlBiasTeeVolts)))
  if rc ≠ 0 then
    return ← sendError id .notSupported "bias_tee not supported by this hardware"
  let r ← perform .radio
  sendOk id (.appliedControl .biasTee (.tenths (10 * r.biasTeeVolts)))
  let r ← perform .radio
  cpBroadcastEvent (.controlChanged .biasTee (.tenths (10 * r.biasTeeVolts)))

/-- The `ppm_correction` branch of `cmd_set_control`. -/
def setPpmCorrection (id : CStr) (vi : ℕ) (valstr : CStr) : Prog Op Unit := do
  if !(← tokIsNumeric vi) then
    return ← sendError id .invalidParameter "ppm_correction requires an integer"
  let ppm := toInt32 (strtol valstr)
  if ppm < -100 ∨ 100 < ppm then
    return ← sendError id .invalidParameter "ppm_correction out of range [-100,100]"
  let _ ← perform (.set (.ppm ppm))
  let r ← perform .radio
  sendOk id (.appliedControl .ppmCorrection (.integer r.ppmCorrection))
  let r ← perform .radio
  cpBroadcastEvent (.controlChanged .ppmCorrection (.integer r.ppmCorrection))

/-- The sampling mode that a token names. -/
def tokMode (vi : ℕ) : Prog Op (Option SamplingMode) := do
  if ← perform (.tokEq vi "off") then return some .normal
  if ← perform (.tokEq vi "i_branch") then return some .directI
  if ← perform (.tokEq vi "q_branch") then return some .directQ
  return none

/-- The `direct_sampling` branch of `cmd_set_control`. -/
def setDirectSampling (id : CStr) (vi : ℕ) (valstr : CStr) : Prog Op Unit := do
  if (← perform (.tokType vi)) ≠ .string then
    return ← sendError id .invalidParameter
      "direct_sampling requires a string from the published values"
  let some mode ← tokMode vi |
    sendError id .invalidParameter "direct_sampling must be off, i_branch or q_branch"
  if mode = (← perform .radio).samplingMode then
    return ← sendOk id (.appliedControl .directSampling (.word valstr))
  if (← perform .self).streamOpen then
    return ← sendError id .streamReconfigurationRequired
      "Close the stream before changing direct_sampling"
  let rc ← perform (.set (.directSampling mode))
  if rc ≠ 0 then
    return ← sendError id .deviceError "direct_sampling change failed"
  sendOk id (.appliedControl .directSampling (.word (dsName mode)))
  cpBroadcastEvent (.controlChanged .directSampling (.word (dsName mode)))
  applyModeChangeSideEffects
  cpBroadcastEvent .capabilitiesChanged

/-- `cmd_set_control`. -/
def cmdSetControl (id : CStr) : Prog Op Unit := do
  let some p ← requireFunction id | return
  if !(← channelOk id p) then return
  if !(← mayConfigure id) then return
  let ni ← perform (.tokFindKey p "name")
  let vi ← perform (.tokFindKey p "value")
  match ni, vi with
  | some ni, some vi =>
    let name ← perform (.tokStr ni 32)
    let valstr ← perform (.tokStr vi 64)
    if name = ControlName.rfGain.text then setRfGain opts id vi valstr
    else if name = ControlName.agc.text then setAgc id vi
    else if name = ControlName.biasTee.text then setBiasTee id vi valstr
    else if name = ControlName.ppmCorrection.text then setPpmCorrection id vi valstr
    else if name = ControlName.directSampling.text then setDirectSampling id vi valstr
    else sendError id .notSupported "Unknown control name"
  | _, _ => sendError id .missingParameter "name and value required"

/-- `cmd_get_control`. -/
def cmdGetControl (id : CStr) : Prog Op Unit := do
  let some p ← requireFunction id | return
  if !(← channelOk id p) then return
  let some ni ← perform (.tokFindKey p "name") |
    sendError id .missingParameter "name required"
  let name ← perform (.tokStr ni 32)
  let r ← perform .radio
  if name = ControlName.rfGain.text then
    sendOk id (.control .rfGain (.tenths r.gainTenthDb))
  else if name = ControlName.agc.text then
    sendOk id (.control .agc (.boolean r.agcEnabled))
  else if name = ControlName.biasTee.text then
    sendOk id (.control .biasTee (.tenths (10 * r.biasTeeVolts)))
  else if name = ControlName.ppmCorrection.text then
    sendOk id (.control .ppmCorrection (.integer r.ppmCorrection))
  else if name = ControlName.directSampling.text then
    sendOk id (.control .directSampling (.word (dsName r.samplingMode)))
  else sendError id .notSupported "Unknown control name"

/-! ## Streams -/

/-- An error exit of `cmd_open_stream` after the channel has been claimed. -/
def refuseStream (id : CStr) (code : ErrorCode) (message : String) :
    Prog Op (Option (CStr × List ℕ × ℕ)) := do
  cpRxRelease
  sendError id code message
  return none

/-- The `matched` flag of `cmd_open_stream` on a format object, once its label has been looked
at. -/
def formatMatches.unlabelled (enc bits : Option ℕ) (u8Label : Bool) : Prog Op Bool := do
  if u8Label then return true
  match enc, bits with
  | some enc, some bits =>
    if !(← perform (.tokEq enc "unsigned")) then return false
    perform (.tokEq bits "8")
  | some enc, none => perform (.tokEq enc "unsigned")
  | none, _ => return false

/-- The `matched` flag of `cmd_open_stream`, on a format object. -/
def formatMatches (fmtI : ℕ) : Prog Op Bool := do
  let lbl ← perform (.tokFindKey fmtI "label")
  let enc ← perform (.tokFindKey fmtI "encoding")
  let bits ← perform (.tokFindKey fmtI "bits_per_component")
  let u8Label ← match lbl with
    | some lbl => perform (.tokEq lbl "u8")
    | none => pure false
  formatMatches.unlabelled enc bits u8Label

/-- Whether the format that a request asks for, if it asks for one, is refused. -/
def formatRefused (vi : ℕ) : Prog Op Bool := do
  let some fmtI ← perform (.tokFindKey vi "format") | return false
  if (← perform (.tokType fmtI)) ≠ .object then return false
  return !(← formatMatches fmtI)

/-- Whether the profile that a request asks for, if it asks for one, is refused. -/
def profileRefused (vi : ℕ) : Prog Op Bool := do
  let some pv ← perform (.tokFindKey vi "protocol_version") | return false
  return !(← perform (.tokEq pv "VITA-A/1.0"))

/-- A member of an object that is itself an object. -/
def findObject (obj : ℕ) (key : String) : Prog Op (Option ℕ) := do
  let some v ← perform (.tokFindKey obj key) | return none
  if (← perform (.tokType v)) ≠ .object then return none
  return some v

/-- The checks of `cmd_open_stream` on a claimed channel: the destination, as text and as address
and port, or none when the request has been refused. -/
def streamDestination (id : CStr) (p : ℕ) : Prog Op (Option (CStr × List ℕ × ℕ)) := do
  let some protoI ← perform (.tokFindKey p "protocol") |
    refuseStream id .missingParameter "protocol required"
  if !(← perform (.tokEq protoI "vita49")) then
    return ← refuseStream id .unsupportedStreamProtocol
      "Only vita49 is present in capabilities.rx.transports"
  -- before Release 1.2 the transport parameters stood in the request itself
  let some vi ← findObject p "vita" | do
    cpRxRelease
    if (← perform (.tokFindKey p "destination")).isSome then
      sendError id .missingParameter ("Transport parameters belong inside a vita object "
        ++ "since Release 1.2; see SDR-SLC-CP-1.0 14.2")
      return none
    else
      sendError id .missingParameter "vita transport object required"
      return none
  if ← profileRefused vi then
    return ← refuseStream id .unsupportedStreamProtocol
      "capabilities.rx.transports advertises VITA-A/1.0 only"
  if ← formatRefused vi then
    return ← refuseStream id .unsupportedFormat
      "This device streams unsigned 8-bit IQ only; see capabilities.rx.iq_formats"
  let some destI ← findObject vi "destination" |
    refuseStream id .missingParameter "vita.destination required"
  let ipI ← perform (.tokFindKey destI "ip")
  let portI ← perform (.tokFindKey destI "port")
  match ipI, portI with
  | some ipI, some portI =>
    -- 16 bytes hold any dotted address, 8 any port
    let ipStr ← perform (.tokStr ipI 16)
    let portStr ← perform (.tokStr portI 8)
    match inetPton ipStr with
    | none => refuseStream id .invalidParameter "vita.destination.ip invalid"
    | some addr =>
      let dp := (strtoull portStr).1
      if dp = 0 ∨ 65535 < dp then
        refuseStream id .invalidParameter "vita.destination.port invalid"
      else
        return some (ipStr, addr, dp)
  | _, _ => refuseStream id .missingParameter "vita.destination.ip and .port required"

/-- The text of a stream's name. -/
def streamName (n : UInt32) : CStr := bytes "rx-" ++ fmtUnsigned n.toNat

/-- A session with a new stream. -/
def Session.openStream (n : UInt32) (addr : List ℕ) (port : ℕ) (s : Session) : Session :=
  { s with
    streamId := streamName n
    vitaStreamId := n
    destIp := addr
    destPort := port
    iqFmt := .u8
    streamOpen := true
    state := .streamOpen }

/-- The end of `cmd_open_stream`, when every check has passed. -/
def openChecked (id : CStr) (ipStr : CStr) (addr : List ℕ) (port : ℕ) : Prog Op Unit := do
  let n ← perform .allocStreamId
  perform (.modify (Session.openStream n addr port))
  let srcIp ← perform .srcIp
  let r ← perform .radio
  sendOk id (.opened
    { streamId := streamName n
      sampleRateSps := r.rateSps
      signalType := samplingModeSignalType r.samplingMode
      sourceIp := srcIp
      destinationIp := ipStr
      destinationPort := port
      vitaStreamId := n
      format := .u8 })
  cpBroadcastEventExcept (.controlRevoked .ownedByOther)

/-- `cmd_open_stream`. -/
def cmdOpenStream (id : CStr) : Prog Op Unit := do
  let some p ← requireFunction id | return
  if !(← channelOk id p) then return
  if (← perform .self).streamOpen then
    return ← sendError id .streamAlreadyOpen
      "This session already holds an rx stream; call close_stream first"
  if !(← perform .rxClaim) then
    return ← sendError id .inUse "The rx channel is held by another client"
  let some (ipStr, addr, port) ← streamDestination id p | return
  openChecked id ipStr addr port

/-- A session with another VITA slot, or none. -/
def Session.setToken (token : ℤ) (s : Session) : Session := { s with vitaToken := token }

/-- A session in another state. -/
def Session.setState (st : SessionState) (s : Session) : Session := { s with state := st }

/-- A session whose stream has been closed. -/
def Session.closeStream (s : Session) : Session :=
  { s with streamOpen := false, state := .idle, streamId := [] }

/-- The stream lookup that begins `cmd_start_rx`, `cmd_stop_rx` and `cmd_close_stream`: the
session, or none when an error has been sent. -/
def requireStream (id : CStr) : Prog Op (Option Session) := do
  let missing : Prog Op (Option Session) := do
    sendError id .missingParameter "stream_id required"
    return none
  let some p ← findParams | missing
  let some si ← perform (.tokFindKey p "stream_id") | missing
  let sid ← perform (.tokStr si 32)
  let s ← perform .self
  if !s.streamOpen ∨ sid ≠ s.streamId then
    sendError id .streamNotFound "stream_id not found"
    return none
  else
    return some s

/-- `cmd_start_rx`. -/
def cmdStartRx (id : CStr) : Prog Op Unit := do
  let some s ← requireStream id | return
  if s.state = .streaming then
    return ← sendOk id (.streaming true)
  let r ← perform .radio
  let token ← perform (.vitaSessionAdd (samplingModePayloadFmt r.samplingMode))
  perform (.modify (Session.setToken token))
  if token < 0 then
    return ← sendError id .busy "No free stream slot; retry shortly"
  if !(← perform .bridgeStart) then
    perform (.vitaSessionRemove token)
    perform (.modify (Session.setToken (-1)))
    return ← sendError id .deviceError "Failed to start RTL async read"
  perform (.modify (Session.setState .streaming))
  sendOk id (.streaming true)
  sendEvent (.streamState s.streamId true .clientRequest)

/-- The removal of a session's VITA slot, if it has one. -/
def removeVita (token : ℤ) : Prog Op Unit :=
  when (0 ≤ token) do
    perform (.vitaSessionRemove token)
    perform (.modify (Session.setToken (-1)))

/-- The stop of the reader and the level meter. -/
def stopReading : Prog Op Unit := do
  rtlBridgeStop
  perform .resetAdcLevel

/-- `cmd_stop_rx`. -/
def cmdStopRx (id : CStr) : Prog Op Unit := do
  let some s ← requireStream id | return
  if s.state ≠ .streaming then
    return ← sendOk id (.streaming false)
  removeVita s.vitaToken
  stopReading
  perform (.modify (Session.setState .streamOpen))
  sendOk id (.streaming false)
  sendEvent (.streamState s.streamId false .clientRequest)

/-- `cmd_close_stream`. -/
def cmdCloseStream (id : CStr) : Prog Op Unit := do
  let some s ← requireStream id | return
  removeVita s.vitaToken
  when (s.state = .streaming) stopReading
  perform (.modify Session.closeStream)
  cpRxRelease
  sendOk id .closed
  when (s.state = .streaming) (sendEvent (.streamState s.streamId false .clientRequest))

end SlcRtld.Control
