import SlcRtld.Control.Session

/-!
# What a message can do

Everything that the handling of one message can do to the daemon, said once: `Outcome` has a
constructor for each way through a handler that changes something, with the state it ends in as a
composition of the atomic operations, and the facts that the handler has established on the way.
`handleMessage_outcome` proves that there is no other way. What holds of every request is then shown
by cases on the outcome, and no proof about the daemon has to look into a handler again.

Replies that refuse a request or only report something are all alike here (`answered`), but for what
they tell about a request that sets the receiver (`Unmoved`).
-/

namespace SlcRtld.Control

open Libc Rtl Auth Vita Json Effect
open Effect.Prog (perform when Post)

/-! ## The facts a handler establishes -/

/-- A response that reports neither the state of the receiver, nor a new stream, nor an event. -/
def Frame.plain : Frame → Bool
  | .ok _ (.status _) => false
  | .ok _ (.opened _) => false
  | .event _ => false
  | _ => true

/-- The values of the receiver that a status reports. -/
structure Status.Describes (s : Status) (r : Radio) : Prop where
  frequencyHz : s.frequencyHz = r.freqHz
  sampleRateSps : s.sampleRateSps = r.rateRequestedSps
  actualSampleRateSps : s.actualSampleRateSps = r.rateSps
  gainTenthDb : s.gainTenthDb = r.gainTenthDb
  agc : s.agc = r.agcEnabled
  biasTeeVolts : s.biasTeeVolts = r.biasTeeVolts
  ppmCorrection : s.ppmCorrection = r.ppmCorrection
  directSampling : s.directSampling = dsName r.samplingMode

/-- The values of the receiver that the reply to `open_stream` reports. -/
structure OpenedStream.Describes (o : OpenedStream) (r : Radio) : Prop where
  sampleRateSps : o.sampleRateSps = r.rateSps
  signalType : o.signalType = samplingModeSignalType r.samplingMode

/-- The message has parameters that name the function `rx`, which `require_function` accepts. -/
def NamesRx (m : Msg) : Prop :=
  ∃ p f, m.tokFindKey 0 (bytes "params") = some (some p) ∧
    m.tokFindKey p (bytes "function") = some (some f) ∧ m.tokEq f (bytes "rx") = some true

/-- The message offers the daemon's protocol version, which `cmd_hello` accepts. -/
def OffersVersion (m : Msg) : Prop :=
  ∃ p v release, m.tokFindKey 0 (bytes "params") = some (some p) ∧
    m.tokFindKey p (bytes "supported_protocol_versions") = some (some v) ∧
    m.tokType v = some .array ∧ m.offeredVersions v = some (true, release)

/-- The message has the parameters that `cmd_authenticate` asks for, with these values. -/
def AuthRequest (m : Msg) (method keyId response : CStr) : Prop :=
  ∃ p mi ri ki, m.tokFindKey 0 (bytes "params") = some (some p) ∧
    m.tokFindKey p (bytes "method") = some (some mi) ∧ m.tokStr mi 48 = some method ∧
    m.tokFindKey p (bytes "response") = some (some ri) ∧ m.tokStr ri 80 = some response ∧
    m.tokFindKey p (bytes "key_id") = some ki ∧
    (match ki with
      | some ki => m.tokStr ki authKeyIdMax = some keyId
      | none => keyId = bytes "default")

/-- The message has a parameter. -/
def HasParam (m : Msg) (key : String) (vi : ℕ) : Prop :=
  ∃ p, m.tokFindKey 0 (bytes "params") = some (some p) ∧ m.tokFindKey p (bytes key) = some (some vi)

/-- The message names a control. -/
def NamesControl (m : Msg) (c : ControlName) : Prop :=
  ∃ ni, HasParam m "name" ni ∧ m.tokStr ni 32 = some c.text

/-- The message has a value for a control, with a text. -/
def HasValue (m : Msg) (vi : ℕ) (text : CStr) : Prop :=
  HasParam m "value" vi ∧ m.tokStr vi 64 = some text

/-- A token that the numeric controls take for a number. -/
def LooksNumeric (m : Msg) (vi : ℕ) : Prop :=
  m.tokType vi = some .primitive ∧ m.tokIsPrimitive vi (bytes "true") = some false ∧
    m.tokIsPrimitive vi (bytes "false") = some false

/-- The message asks for a frequency. -/
def AsksFrequency (m : Msg) (freq : ℕ) : Prop :=
  ∃ vi text, HasParam m "frequency_hz" vi ∧ m.tokStr vi 32 = some text ∧
    strtoull text = (freq, false) ∧ 1 ≤ freq

/-- The message asks for a sample rate. -/
def AsksRate (m : Msg) (rate : ℕ) : Prop :=
  ∃ vi text, HasParam m "sample_rate_sps" vi ∧ m.tokStr vi 16 = some text ∧
    (strtoull text).1 % 2 ^ 32 = rate

/-- The message has a value for a numeric control, with a text that is read in some way. -/
def AsksControl (m : Msg) (c : ControlName) (read : CStr → Prop) : Prop :=
  NamesControl m c ∧ ∃ vi text, HasValue m vi text ∧ LooksNumeric m vi ∧ read text

/-- The message asks for the bias tee to be on, or off. -/
def AsksBiasTee (m : Msg) (en : Bool) : Prop :=
  AsksControl m .biasTee fun text => strtod text = .finite (if en then rtlBiasTeeVolts else 0 : ℕ)

/-- The message names a destination for a stream, which `cmd_open_stream` accepts. -/
def NamesDestination (m : Msg) (addr : List ℕ) (port : ℕ) : Prop :=
  ∃ vi dest ipI portI ip text, HasParam m "vita" vi ∧ m.tokType vi = some .object ∧
    m.tokFindKey vi (bytes "destination") = some (some dest) ∧ m.tokType dest = some .object ∧
    m.tokFindKey dest (bytes "ip") = some (some ipI) ∧ m.tokStr ipI 16 = some ip ∧
    inetPton ip = some addr ∧ m.tokFindKey dest (bytes "port") = some (some portI) ∧
    m.tokStr portI 8 = some text ∧ (strtoull text).1 = port ∧ 1 ≤ port ∧ port ≤ 65535

/-- Why a reply is all there is to a request: it is an error, the command neither sets anything nor
opens a stream, or what the control asks for is not set, as the automatic gain is on or the mode is
the one in force. -/
inductive Unmoved (m : Msg) (r : Radio) : Option Command → Frame → Prop where
  | error (c : Option Command) (id : CStr) (code : ErrorCode) (message : CStr) :
      Unmoved m r c (.error id code message)
  | reports {c : Option Command} (f : Frame)
      (hc : c ∉ [some .setFrequency, some .setSampleRate, some .setControl, some .openStream]) :
      Unmoved m r c f
  | automatic (f : Frame) (hname : NamesControl m .rfGain) (hagc : r.agcEnabled = true) :
      Unmoved m r (some .setControl) f
  | sameMode (f : Frame) (hname : NamesControl m .directSampling) : Unmoved m r (some .setControl) f

/-- The session may address the receiver: no authentication is required, or it has succeeded. -/
def Daemon.Unlocked (opts : Options) (d : Daemon) (i : SessId) : Prop :=
  opts.rxAuth = true → (d.sessions i).rxUnlocked = true

/-! ## Compositions of operations -/

namespace Daemon

/-- `cp_rx_release`. -/
def rxRelease (i : SessId) (d : Daemon) : Daemon :=
  if (d.rxReleaseLocked i).1 then
    (d.rxReleaseLocked i).2.broadcast (some i) (.controlRevoked .free)
  else (d.rxReleaseLocked i).2

/-- `rtl_bridge_stop` and `rtl_reset_adc_level`. -/
def stopReading (d : Daemon) : Daemon :=
  let d₁ := d.bridgeStopLocked.2
  { d₁ with
    bridge := if d.bridgeStopLocked.1 then pthreadJoin d₁.bridge else d₁.bridge
    adc := rtlResetAdcLevel d₁.adc }

/-- The removal of a session's VITA slot, if it has one. -/
def removeVita (i : SessId) (d : Daemon) : Daemon :=
  if 0 ≤ (d.sessions i).vitaToken then
    (d.vitaApply (.remove (d.sessions i).vitaToken)).modify i (Session.setToken (-1))
  else d

/-- A frequency that the daemon sets on its own, and says so when it has. -/
def moveFrequency (dev : Device) (freqHz : ℕ) (d : Daemon) : Daemon :=
  if (d.set dev (.frequency freqHz)).1 ≠ 0 then
    (d.set dev (.frequency freqHz)).2.broadcast none
      (.frequencyChanged (d.set dev (.frequency freqHz)).1)
  else (d.set dev (.frequency freqHz)).2

/-- A sample rate that the daemon sets on its own, and says so when it has. -/
def moveSampleRate (dev : Device) (rateSps : ℕ) (d : Daemon) : Daemon :=
  if (d.set dev (.sampleRate rateSps)).1 ≠ 0 then
    (d.set dev (.sampleRate rateSps)).2.broadcast none
      (.sampleRateChanged rateSps (d.set dev (.sampleRate rateSps)).1)
  else (d.set dev (.sampleRate rateSps)).2

/-- The frequency part of `apply_mode_change_side_effects`. -/
def retuneForMode (dev : Device) (d : Daemon) : Daemon :=
  let r := d.radio
  if r.freqHz < rtlFreqMin r.samplingMode ∨ rtlFreqMax r.samplingMode < r.freqHz then
    d.moveFrequency dev (if r.freqHz < rtlFreqMin r.samplingMode then rtlFreqMin r.samplingMode
      else rtlFreqMax r.samplingMode)
  else d

/-- The sample rate part of `apply_mode_change_side_effects`. -/
def resampleForMode (dev : Device) (d : Daemon) : Daemon :=
  let r := d.radio
  if r.rateRequestedSps ∉ rtlRateList r.samplingMode then
    d.moveSampleRate dev (rtlPreferredRate r.samplingMode)
  else d

/-- `apply_mode_change_side_effects`. -/
def applyModeChangeSideEffects (dev : Device) (d : Daemon) : Daemon :=
  let d₁ := (d.retuneForMode dev).resampleForMode dev
  let d₂ := d₁.vitaApply (.updatePayloadFormat (samplingModePayloadFmt d₁.radio.samplingMode))
  d₂.vitaApply (.contextAll d₂.radio.gainTenthDb)

/-- The end of a session's stream in `session_destroy`. -/
def endStream (i : SessId) (d : Daemon) : Daemon :=
  if (d.sessions i).state = .streaming then
    (d.removeVita i).stopReading.broadcast (some i)
      (.streamState (d.sessions i).streamId false .controlLost)
  else d.removeVita i

/-- The bias tee's fallback in `session_destroy`. -/
def biasTeeFallback (opts : Options) (dev : Device) (d : Daemon) : Daemon :=
  if d.radio.biasTeeEnabled && !opts.biasTeePersist then (d.set dev (.biasTee false)).2 else d

/-- `session_destroy`. -/
def destroy (opts : Options) (dev : Device) (i : SessId) (d : Daemon) : Daemon :=
  (((d.endStream i).rxRelease i).biasTeeFallback opts dev).freeSession i

end Daemon

/-! ## Outcomes -/

section
variable (opts : Options) (env : Env) (m : Msg) (i : SessId) (d : Daemon)

/-- What an accepted `hello` and a complete `authenticate` do. -/
inductive AuthOutcome : Command → Daemon → Prop where
  | hello (hm : OffersVersion m) (hauth : opts.rxAuth = false) (name id : CStr) :
      AuthOutcome .hello ((d.modify i (Session.accept name)).send i (.ok id (.hello none)))
  | challenged (hm : OffersVersion m) (hauth : opts.rxAuth = true) (name id hex : CStr)
      (made : Bool) (d₁ : Daemon)
      (hmade : (d.modify i (Session.accept name)).makeNonce env.random i = some (made, d₁)) :
      AuthOutcome .hello
        ((d₁.modify i (Session.challenge made)).send i (.ok id (.hello (some hex))))
  | unlocked (method keyId response id : CStr) (hm : AuthRequest m method keyId response)
      (hauth : opts.rxAuth = true) (d₁ : Daemon)
      (hok : (d.modify i (Session.refreshWindow env.monoNs)).checkResponse opts i method keyId
        response = (true, d₁)) :
      AuthOutcome .authenticate
        ((d₁.modify i Session.unlock).send i (.ok id (.authenticated true)))
  | rejected (method keyId response id : CStr) (hm : AuthRequest m method keyId response)
      (hauth : opts.rxAuth = true) (hex : Option CStr) (made : Bool) (d₁ d₂ : Daemon)
      (hok : (d.modify i (Session.refreshWindow env.monoNs)).checkResponse opts i method keyId
        response = (false, d₁))
      (hmade : (d₁.modify i Session.countFailure).makeNonce env.random i = some (made, d₂)) :
      AuthOutcome .authenticate
        (((d₂.modify i fun s => { s with nonceValid := made }).send i
          (.authFailed id hex)).modify i Session.limitFailures)

/-- What a request that sets the receiver does. -/
inductive ConfigOutcome : Command → Daemon → Prop where
  | frequency (freq : ℕ) (id : CStr)
      (hmin : rtlFreqMin d.radio.samplingMode ≤ freq)
      (hmax : freq ≤ rtlFreqMax d.radio.samplingMode)
      (happlied : (d.set env.device (.frequency freq)).1 ≠ 0) (hasked : AsksFrequency m freq) :
      ConfigOutcome .setFrequency (((d.set env.device (.frequency freq)).2.send i
        (.ok id (.appliedFrequency (d.set env.device (.frequency freq)).1))).broadcast none
        (.frequencyChanged (d.set env.device (.frequency freq)).1))
  | frequencyFailed (freq : ℕ) (id message : CStr)
      (happlied : (d.set env.device (.frequency freq)).1 = 0) (hasked : AsksFrequency m freq)
      (hmin : rtlFreqMin d.radio.samplingMode ≤ freq) (hmax : freq ≤ rtlFreqMax d.radio.samplingMode) :
      ConfigOutcome .setFrequency ((d.set env.device (.frequency freq)).2.send i
        (.error id .deviceError message))
  | sampleRate (rate : ℕ) (id : CStr) (hstate : (d.sessions i).state ≠ .streaming)
      (hstate' : (d.sessions i).state ≠ .streamOpen)
      (hlist : rate ∈ rtlRateList d.radio.samplingMode)
      (happlied : (d.set env.device (.sampleRate rate)).1 ≠ 0) (hasked : AsksRate m rate) :
      ConfigOutcome .setSampleRate (((d.set env.device (.sampleRate rate)).2.send i
        (.ok id (.appliedSampleRate rate))).broadcast none
        (.sampleRateChanged rate (d.set env.device (.sampleRate rate)).1))
  | sampleRateFailed (rate : ℕ) (id message : CStr)
      (hlist : rate ∈ rtlRateList d.radio.samplingMode)
      (happlied : (d.set env.device (.sampleRate rate)).1 = 0) (hasked : AsksRate m rate) :
      ConfigOutcome .setSampleRate ((d.set env.device (.sampleRate rate)).2.send i
        (.error id .deviceError message))
  | rfGain (val : Double) (id : CStr) (hagc : d.radio.agcEnabled = false)
      (hlist : onGainList opts val = true) (d₁ : Daemon)
      (hd₁ : d₁ = (d.set env.device (.gain val)).2.send i (.ok id
        (.appliedControl .rfGain (.tenths (d.set env.device (.gain val)).1))))
      (hasked : AsksControl m .rfGain fun text => strtod text = val) :
      ConfigOutcome .setControl ((d₁.vitaApply (.contextAll d₁.radio.gainTenthDb)).broadcast none
        (.controlChanged .rfGain (.tenths (d.set env.device (.gain val)).1)))
  | agc (en : Bool) (id : CStr) (d₁ : Daemon)
      (hd₁ : d₁ = (d.set env.device (.agc en)).2.send i
        (.ok id (.appliedControl .agc (.boolean en)))) (hasked : NamesControl m .agc) :
      ConfigOutcome .setControl ((d₁.vitaApply (.contextAll d₁.radio.gainTenthDb)).broadcast none
        (.controlChanged .agc (.boolean en)))
  | biasTee (en : Bool) (id : CStr) (d₁ : Daemon)
      (hd₁ : d.set env.device (.biasTee en) = (0, d₁)) (hasked : AsksBiasTee m en) :
      ConfigOutcome .setControl ((d₁.send i (.ok id (.appliedControl .biasTee
        (.tenths (10 * d₁.radio.biasTeeVolts))))).broadcast none
        (.controlChanged .biasTee (.tenths (10 * d₁.radio.biasTeeVolts))))
  | biasTeeFailed (en : Bool) (id message : CStr)
      (hrc : (d.set env.device (.biasTee en)).1 ≠ 0) (hasked : AsksBiasTee m en) :
      ConfigOutcome .setControl ((d.set env.device (.biasTee en)).2.send i
        (.error id .notSupported message))
  | ppm (value : ℤ) (id : CStr) (d₁ : Daemon)
      (hd₁ : d₁ = (d.set env.device (.ppm value)).2)
      (hasked : AsksControl m .ppmCorrection fun text => toInt32 (strtol text) = value)
      (hrange : -100 ≤ value ∧ value ≤ 100) :
      ConfigOutcome .setControl ((d₁.send i (.ok id (.appliedControl .ppmCorrection
        (.integer d₁.radio.ppmCorrection)))).broadcast none
        (.controlChanged .ppmCorrection (.integer d₁.radio.ppmCorrection)))
  | directSampling (mode : SamplingMode) (id : CStr) (hmode : mode ≠ d.radio.samplingMode)
      (hopen : (d.sessions i).streamOpen = false) (d₁ : Daemon)
      (hd₁ : d.set env.device (.directSampling mode) = (0, d₁))
      (hasked : NamesControl m .directSampling) :
      ConfigOutcome .setControl (((((d₁.send i (.ok id (.appliedControl .directSampling
        (.word (dsName mode))))).broadcast none (.controlChanged .directSampling
        (.word (dsName mode)))).applyModeChangeSideEffects env.device)).broadcast none
        .capabilitiesChanged)
  | directSamplingFailed (mode : SamplingMode) (id message : CStr)
      (hrc : (d.set env.device (.directSampling mode)).1 ≠ 0)
      (hasked : NamesControl m .directSampling) :
      ConfigOutcome .setControl ((d.set env.device (.directSampling mode)).2.send i
        (.error id .deviceError message))

/-- What the stream commands do. -/
inductive StreamOutcome : Command → Daemon → Prop where
  | refused (hopen : (d.sessions i).streamOpen = false) (d₁ : Daemon)
      (hclaim : d.rxClaim i = (true, d₁)) (id : CStr) (code : ErrorCode) (message : CStr) :
      StreamOutcome .openStream ((d₁.rxRelease i).send i (.error id code message))
  | opened (hopen : (d.sessions i).streamOpen = false) (d₁ : Daemon)
      (hclaim : d.rxClaim i = (true, d₁)) (addr : List ℕ) (port : ℕ) (id : CStr)
      (o : OpenedStream) (ho : o.Describes d.radio) (hdest : NamesDestination m addr port) :
      StreamOutcome .openStream (((d₁.allocStreamId.2.modify i
        (Session.openStream d₁.allocStreamId.1 addr port)).send i (.ok id (.opened o))).broadcast
        (some i) (.controlRevoked .ownedByOther))
  | startBusy (hopen : (d.sessions i).streamOpen = true)
      (hstate : (d.sessions i).state ≠ .streaming) (p : StreamParams)
      (htoken : (vitaSessionAdd p d.vita).1 < 0) (id message : CStr) :
      StreamOutcome .startRx (((d.vitaApply (.add p)).modify i
        (Session.setToken (vitaSessionAdd p d.vita).1)).send i (.error id .busy message))
  | startFailed (hopen : (d.sessions i).streamOpen = true)
      (hstate : (d.sessions i).state ≠ .streaming) (p : StreamParams)
      (htoken : 0 ≤ (vitaSessionAdd p d.vita).1) (d₁ : Daemon)
      (hstart : ((d.vitaApply (.add p)).modify i
        (Session.setToken (vitaSessionAdd p d.vita).1)).bridgeStart env.pthreadCreate =
          (false, d₁)) (id message : CStr) :
      StreamOutcome .startRx (((d₁.vitaApply (.remove (vitaSessionAdd p d.vita).1)).modify i
        (Session.setToken (-1))).send i (.error id .deviceError message))
  | started (hopen : (d.sessions i).streamOpen = true)
      (hstate : (d.sessions i).state ≠ .streaming) (p : StreamParams)
      (hp : p = d.streamParams env.time (d.sessions i)
        (samplingModePayloadFmt d.radio.samplingMode))
      (htoken : 0 ≤ (vitaSessionAdd p d.vita).1) (d₁ : Daemon)
      (hstart : ((d.vitaApply (.add p)).modify i
        (Session.setToken (vitaSessionAdd p d.vita).1)).bridgeStart env.pthreadCreate =
          (true, d₁)) (id : CStr) :
      StreamOutcome .startRx (((d₁.modify i (Session.setState .streaming)).send i
        (.ok id (.streaming true))).send i
        (.event (.streamState (d.sessions i).streamId true .clientRequest)))
  | stopped (hopen : (d.sessions i).streamOpen = true)
      (hstate : (d.sessions i).state = .streaming) (id : CStr) :
      StreamOutcome .stopRx (((((d.removeVita i).stopReading).modify i
        (Session.setState .streamOpen)).send i (.ok id (.streaming false))).send i
        (.event (.streamState (d.sessions i).streamId false .clientRequest)))
  | closed (hopen : (d.sessions i).streamOpen = true)
      (hstate : (d.sessions i).state ≠ .streaming) (id : CStr) :
      StreamOutcome .closeStream ((((d.removeVita i).modify i Session.closeStream).rxRelease
        i).send i (.ok id .closed))
  | closedStreaming (hopen : (d.sessions i).streamOpen = true)
      (hstate : (d.sessions i).state = .streaming) (id : CStr) :
      StreamOutcome .closeStream ((((((d.removeVita i).stopReading).modify i
        Session.closeStream).rxRelease i).send i (.ok id .closed)).send i
        (.event (.streamState (d.sessions i).streamId false .clientRequest)))

/-- What a message does, by the command it is dispatched to, if it is. -/
inductive Outcome : Option Command → Daemon → Prop where
  | ignored : Outcome none d
  | answered (c : Option Command) (f : Frame) (hf : f.plain = true) (hun : Unmoved m d.radio c f) :
      Outcome c (d.send i f)
  | status (id : CStr) (s : Status) (hs : s.Describes d.radio)
      (hstate : (d.sessions i).state ≠ .awaitHello) :
      Outcome (some .getStatus) (d.send i (.ok id (.status s)))
  | auth {c : Command} {d' : Daemon} (h : AuthOutcome opts env m i d c d') : Outcome (some c) d'
  | config {c : Command} {d' : Daemon} (hrx : d.Unlocked opts i)
      (hown : d.rxOwnedByOther i = false) (h : ConfigOutcome opts env m i d c d') :
      Outcome (some c) d'
  | stream {c : Command} {d' : Daemon} (hrx : d.Unlocked opts i)
      (h : StreamOutcome env m i d c d') : Outcome (some c) d'

variable {opts env m i d}

/-- A request that is refused. -/
theorem Outcome.refused (c : Option Command) (id : CStr) (code : ErrorCode) (message : CStr) :
    Outcome opts env m i d c (d.send i (.error id code message)) :=
  .answered c _ rfl (.error ..)

end

end SlcRtld.Control
