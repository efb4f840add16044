import SlcRtld.Control.Reply
import SlcRtld.Json.Message
import SlcRtld.Rtl.Bridge
import SlcRtld.Vita.Table

/-!
# The daemon's state and its atomic operations

The state that the threads of the daemon share, and the operations on it that hold a mutex from
beginning to end, or touch one variable. A request is a sequence of these (`Control.Commands`); they
are the steps that requests of different sessions can interleave at. What the daemon does to the
outside world is kept in a trace, the last event first.
-/

namespace SlcRtld.Control

open Libc Rtl Auth Vita Json

/-! ## Sessions -/

/-- `SessionState`. -/
inductive SessionState where
  | awaitHello
  | idle
  | streamOpen
  | streaming
deriving DecidableEq

/-- `Session`, without the radio parameters and the client's address, which nothing reads. -/
structure Session where
  /-- The socket; zero marks a free slot. -/
  fd : ℕ
  state : SessionState
  ownsRx : Bool
  clientName : CStr
  nonce : List UInt8
  nonceHex : CStr
  nonceValid : Bool
  rxUnlocked : Bool
  authFailures : UInt32
  authWindowNs : UInt64
  closeAfterReply : Bool
  streamOpen : Bool
  streamId : CStr
  vitaStreamId : UInt32
  destIp : List ℕ
  destPort : ℕ
  iqFmt : IqFormat
  vitaToken : ℤ
deriving DecidableEq

/-- A session after `memset`. -/
def Session.zero : Session :=
  { fd := 0, state := .awaitHello, ownsRx := false, clientName := [],
    nonce := List.replicate authNonceBytes 0, nonceHex := [], nonceValid := false,
    rxUnlocked := false, authFailures := 0, authWindowNs := 0, closeAfterReply := false,
    streamOpen := false, streamId := [], vitaStreamId := 0, destIp := [0, 0, 0, 0], destPort := 0,
    iqFmt := .int16, vitaToken := 0 }

/-- A session as `session_create` sets it up. -/
def Session.new (fd : ℕ) : Session := { Session.zero with fd := fd, vitaToken := -1 }

/-- The slot is taken by a connection. -/
def Session.live (s : Session) : Bool := 0 < s.fd

/-- A session that has been given the channel. -/
def Session.own (s : Session) : Session := { s with ownsRx := true }

/-- A session that has given the channel up. -/
def Session.disown (s : Session) : Session := { s with ownsRx := false }

/-- A session whose buffers `auth_make_nonce` has written to. -/
def Session.storeNonce (made : Bool) (raw : List UInt8) (s : Session) : Session :=
  { s with nonce := raw, nonceHex := if made then authHex raw else s.nonceHex }

/-! ## The trace -/

/-- The response to a challenge. -/
structure Attempt where
  method : CStr
  keyId : CStr
  /-- The nonce that the response is checked against. -/
  nonce : List UInt8
  response : CStr
deriving DecidableEq

/-- What can be observed of the daemon. -/
inductive Obs where
  /-- A connection has been given a slot. -/
  | connected (i : SessId)
  /-- The connection in a slot has ended. -/
  | closed (i : SessId)
  /-- A librtlsdr call that sets hardware. -/
  | hardware (c : HwCall)
  /-- A message handed to `send_framed`. -/
  | sent (i : SessId) (f : Frame)
  /-- `auth_make_nonce` was called for a session, and the nonce it made, if any. -/
  | nonce (i : SessId) (n : Option (List UInt8))
  /-- A response was checked against a valid nonce, and the outcome. -/
  | verify (i : SessId) (a : Attempt) (ok : Bool)
  /-- A packet handed to the UDP socket. -/
  | datagram (g : Datagram)
deriving DecidableEq

/-! ## Settings of the receiver -/

/-- The setters of `rtl_bridge.c`, by the type of what they return. -/
inductive Setting : Type → Type where
  | frequency (freqHz : ℕ) : Setting ℕ
  | sampleRate (rateSps : ℕ) : Setting ℕ
  | gain (gainDb : Double) : Setting ℤ
  | agc (enable : Bool) : Setting Unit
  | biasTee (enable : Bool) : Setting ℤ
  | ppm (value : ℤ) : Setting ℤ
  | directSampling (mode : SamplingMode) : Setting ℤ

/-- The setter's effect. -/
def Setting.apply {β : Type} (dev : Device) : Setting β → Radio → β × Radio × List HwCall
  | .frequency freqHz => rtlSetFrequency dev freqHz
  | .sampleRate rateSps => rtlSetSampleRate dev rateSps
  | .gain gainDb => rtlSetGain dev gainDb
  | .agc enable => rtlSetAgc enable
  | .biasTee enable => rtlSetBiasTee dev enable
  | .ppm value => rtlSetPpm dev value
  | .directSampling mode => rtlSetDirectSampling dev mode

/-! ## The state -/

/-- The state shared by the threads. -/
structure Daemon where
  /-- `s_sessions` of `cp_session.c`. -/
  sessions : SessId → Session
  /-- `s_rx_owner`. -/
  rxOwner : Option SessId
  /-- `s_stream_counter`. -/
  streamCounter : UInt32
  radio : Radio
  bridge : Bridge
  adc : Adc
  vita : Table
  /-- `msg_buf`, up to the last byte written since the start; the rest of it is zero. -/
  msgBuf : List UInt8
  /-- The `tokens` on each session thread's stack. -/
  tokens : SessId → List Tok
  /-- What has been observed, the last event first. -/
  trace : List Obs

/-- The state when `main` has started the server. -/
def Daemon.init (dev : Device) (o : Startup) (contextPackets : Bool) : Daemon where
  sessions := fun _ => Session.zero
  rxOwner := none
  streamCounter := 0
  radio := rtlBridgeInit dev o
  bridge := ⟨0, false, 0, []⟩
  adc := ⟨0, 0, false, false, 0⟩
  vita := ⟨fun _ => Slot.zero, true, contextPackets⟩
  msgBuf := []
  tokens := fun _ => []
  trace := []

/-- What the operating system and the device answer during one request. -/
structure Env where
  device : Device
  /-- Whether `pthread_create` succeeds. -/
  pthreadCreate : Bool
  /-- The outcomes of `getrandom`. -/
  random : List GetRandom
  /-- `mono_ns`. -/
  monoNs : UInt64
  /-- `time(NULL)`. -/
  time : UInt32
  /-- The text and the seconds that `utc_now` gives. -/
  utcNow : CStr × ℤ
  /-- The texts of the board temperature and of the supply voltage. -/
  sensors : CStr × CStr
  /-- The address that `getsockname` gives. -/
  srcIp : CStr
  /-- The memory before and after `msg_buf`. -/
  outside : ℤ → Option UInt8
  /-- The stack above `tokens`. -/
  stack : List Tok

namespace Daemon

/-- Observed events, the last one first. -/
def log (os : List Obs) (d : Daemon) : Daemon := { d with trace := os ++ d.trace }

/-- A change to one session's record. -/
def modify (i : SessId) (f : Session → Session) (d : Daemon) : Daemon :=
  { d with sessions := Function.update d.sessions i (f (d.sessions i)) }

/-- `send_framed`. -/
def send (i : SessId) (f : Frame) (d : Daemon) : Daemon :=
  d.log (if (d.sessions i).live then [.sent i f] else [])

/-- The sessions that an event goes to. -/
def listeners (skip : Option SessId) (d : Daemon) : List SessId :=
  (List.finRange maxSessions).filter fun j =>
    (d.sessions j).live && some j ≠ skip && (d.sessions j).state ≠ .awaitHello

/-- `broadcast`. -/
def broadcast (skip : Option SessId) (e : Event) (d : Daemon) : Daemon :=
  d.log ((d.listeners skip).reverse.map fun j => .sent j (.event e))

/-- `cp_rx_claim`. -/
def rxClaim (i : SessId) (d : Daemon) : Bool × Daemon :=
  if d.rxOwner = none ∨ d.rxOwner = some i then
    (true, { d with rxOwner := some i }.modify i Session.own)
  else (false, d)

/-- The part of `cp_rx_release` that holds the mutex: whether the channel was released. -/
def rxReleaseLocked (i : SessId) (d : Daemon) : Bool × Daemon :=
  (d.rxOwner = some i,
    { d with rxOwner := if d.rxOwner = some i then none else d.rxOwner }.modify i Session.disown)

/-- `cp_rx_owned_by_other`. -/
def rxOwnedByOther (i : SessId) (d : Daemon) : Bool := d.rxOwner ≠ none ∧ d.rxOwner ≠ some i

/-- `cp_rx_control_state`. -/
def rxControlState (i : SessId) (d : Daemon) : ControlState :=
  if d.rxOwner = none then .free else if d.rxOwner = some i then .ownedByMe else .ownedByOther

/-- The counter part of `alloc_stream_id`. -/
def allocStreamId (d : Daemon) : UInt32 × Daemon :=
  (d.streamCounter + 1, { d with streamCounter := d.streamCounter + 1 })

/-- A setter of `rtl_bridge.c`. -/
def set (dev : Device) {β : Type} (x : Setting β) (d : Daemon) : β × Daemon :=
  ((x.apply dev d.radio).1,
    { d with radio := (x.apply dev d.radio).2.1 }.log
      ((x.apply dev d.radio).2.2.map .hardware))

/-- An operation on the VITA table, which sends its packets. -/
def vitaApply (o : VitaOp) (d : Daemon) : Daemon :=
  { d with vita := (d.vita.apply o).1 }.log ((d.vita.apply o).2.reverse.map .datagram)

/-- What `vita_session_add` is given for a session, and reads besides. -/
def streamParams (time : UInt32) (s : Session) (payloadFmtWord0 : UInt32) (d : Daemon) :
    StreamParams where
  vitaStreamId := s.vitaStreamId
  destIp := s.destIp
  destPort := s.destPort
  fmt := s.iqFmt
  payloadFmtWord0 := payloadFmtWord0
  time := time
  rateSps := d.radio.rateSps.toUInt64
  gainTenthDb := d.radio.gainTenthDb

/-- `rtl_bridge_start`: whether it succeeded. -/
def bridgeStart (created : Bool) (d : Daemon) : Bool × Daemon :=
  let (ok, reset, b) := rtlBridgeStart created d.bridge
  (ok, { d with bridge := b, adc := if reset then rtlResetAdcLevel d.adc else d.adc }.log
    (if reset then [.hardware .resetBuffer] else []))

/-- `rtl_bridge_stop` up to its `pthread_join`: whether the reader is to be joined. -/
def bridgeStopLocked (d : Daemon) : Bool × Daemon :=
  let (join, b) := rtlBridgeStopLocked d.bridge
  (join, { d with bridge := b }.log (if join then [.hardware .cancelAsync] else []))

/-- `auth_make_nonce` on a session's buffers, and what it observes. -/
def makeNonce (os : List GetRandom) (i : SessId) (d : Daemon) : Option (Bool × Daemon) :=
  (authMakeNonce os (d.sessions i).nonce).map fun (made, raw) =>
    (made, (d.modify i (Session.storeNonce made raw)).log
      [.nonce i (if made then some raw else none)])

/-- The check of a response in `cmd_authenticate`. A response that is checked against a valid nonce
is observed, whatever the reason that it fails. -/
def checkResponse (opts : Options) (i : SessId) (method keyId response : CStr) (d : Daemon) :
    Bool × Daemon :=
  let s := d.sessions i
  let ok := s.nonceValid && method = authMethodPsk && !opts.keys.isEmpty &&
    authVerify opts.keys keyId s.nonce response
  (ok, d.log (if s.nonceValid then [.verify i ⟨method, keyId, s.nonce, response⟩ ok] else []))

/-- The end of `session_destroy`: the slot is cleared and the socket closed. -/
def freeSession (i : SessId) (d : Daemon) : Daemon :=
  (d.modify i fun _ => Session.zero).log [.closed i]

/-- `session_create` on an accepted socket. The thread's stack holds whatever it holds. -/
def sessionCreate (fd : ℕ) (stack : List Tok) (d : Daemon) : Daemon :=
  match (List.finRange maxSessions).find? fun i => (d.sessions i).fd = 0 with
  | none => d
  | some i =>
    ({ d with tokens := Function.update d.tokens i stack }.modify i fun _ => Session.new fd).log
      [.connected i]

/-- The stream that `cp_on_adc_overload` names: the first one that is streaming. -/
def overloadStream (d : Daemon) : CStr :=
  match (List.finRange maxSessions).find? fun i =>
      (d.sessions i).live && (d.sessions i).state = .streaming with
  | none => []
  | some i => (d.sessions i).streamId

/-- `rtl_callback` on a USB buffer. -/
def rtlCallback (buf : List UInt8) (nowMs : UInt64) (d : Daemon) : Daemon :=
  if d.bridge.running then
    let (level, adc) := measureAdcLevel buf nowMs d.adc
    let d' := { d with adc := adc }
    (match level with
      | none => d'
      | some l => d'.broadcast none (.adcOverload d'.overloadStream l)).vitaApply (.callback buf)
  else d

/-- A payload and its NUL, written over the start of `msg_buf`. -/
def receive (frame : List UInt8) (d : Daemon) : Daemon :=
  { d with msgBuf := frame ++ [0] ++ d.msgBuf.drop (frame.length + 1) }

/-- The memory that a session's thread reads its message from. -/
def message (i : SessId) (env : Env) (d : Daemon) : Msg where
  js := fun pos =>
    if 0 ≤ pos ∧ pos < maxMsgBytes + 1 then some (d.msgBuf.getD pos.toNat 0) else env.outside pos
  toks := d.tokens i ++ env.stack

end Daemon

end SlcRtld.Control
