import SlcRtld.Control.Commands
import SlcRtld.Effect.Run

/-!
# Session threads

The dispatch table, the body of the loop of `cp_session_thread` after a frame has been read, and
`session_destroy`; and the daemon as a state machine that handles one request at a time. A step is a
connection that arrives, a whole request, a connection that ends, or a USB buffer. A step is not
possible when its session is not connected, and has no next state when the handler reads memory that
is not mapped.

Frames arrive whole here. A frame that its client does not finish, whose first bytes are
nevertheless in `msg_buf`, and frames of several sessions that arrive at the same time are only in
`Control.Intake`.
-/

namespace SlcRtld.Control

open Libc Rtl Auth Vita Json Effect
open Effect.Prog (perform when)

/-! ## Dispatch -/

/-- The entries of `s_dispatch`. -/
inductive Command where
  | hello
  | authenticate
  | getCapabilities
  | setFrequency
  | setSampleRate
  | setControl
  | openStream
  | startRx
  | stopRx
  | closeStream
  | ping
  | getStatus
  | getControl
  | getClockStatus
deriving DecidableEq

/-- The name of an entry. -/
def Command.name : Command → CStr
  | .hello => bytes "hello"
  | .authenticate => bytes "authenticate"
  | .getCapabilities => bytes "get_capabilities"
  | .setFrequency => bytes "set_frequency"
  | .setSampleRate => bytes "set_sample_rate"
  | .setControl => bytes "set_control"
  | .openStream => bytes "open_stream"
  | .startRx => bytes "start_rx"
  | .stopRx => bytes "stop_rx"
  | .closeStream => bytes "close_stream"
  | .ping => bytes "ping"
  | .getStatus => bytes "get_status"
  | .getControl => bytes "get_control"
  | .getClockStatus => bytes "get_clock_status"

/-- `s_dispatch`, in order. -/
def dispatchTable : List Command :=
  [.hello, .authenticate, .getCapabilities, .setFrequency, .setSampleRate, .setControl, .openStream,
    .startRx, .stopRx, .closeStream, .ping, .getStatus, .getControl, .getClockStatus]

variable (opts : Options)

/-- The handler of an entry. -/
def Command.fn (id : CStr) : Command → Prog Op Unit
  | .hello => cmdHello opts id
  | .authenticate => cmdAuthenticate opts id
  | .getCapabilities => cmdGetCapabilities id
  | .setFrequency => cmdSetFrequency id
  | .setSampleRate => cmdSetSampleRate id
  | .setControl => cmdSetControl opts id
  | .openStream => cmdOpenStream id
  | .startRx => cmdStartRx id
  | .stopRx => cmdStopRx id
  | .closeStream => cmdCloseStream id
  | .ping => cmdPing id
  | .getStatus => cmdGetStatus id
  | .getControl => cmdGetControl id
  | .getClockStatus => cmdGetClockStatus id

/-! ## One message -/

/-- The reply to a command that is refused until the session has authenticated. -/
def sendUnauthorized (id : CStr) : Prog Op Unit :=
  if opts.keys.isEmpty then
    sendError id .unauthorized ("the rx function requires authentication and "
      ++ "this device has no pre-shared key configured, "
      ++ "so rx is locked (SDR-SLC-CP-1.0 26.3). On the "
      ++ "device, run: sudo sdr-slc-rtld keygen")
  else
    sendError id .unauthorized ("the rx function requires authentication "
      ++ "(psk-hmac-sha256); send authenticate with the "
      ++ "nonce from hello before addressing rx")

/-- The end of the checks on a message, once it is known whether the gate is closed to its command:
the search of the dispatch table. -/
def envelope.dispatch (id cmd : CStr) (gated : Bool) : Prog Op (Option (Command × CStr)) := do
  let answered (p : Prog Op Unit) : Prog Op (Option (Command × CStr)) := do p; return none
  if gated then
    return ← answered (sendUnauthorized opts id)
  match dispatchTable.find? (·.name = cmd) with
  | some c => return some (c, id)
  | none => answered (sendError id .unknownCommand "Unrecognised command")

/-- The checks between the tokens of a message and its dispatch: the request to dispatch, or none
when the message has been answered or is to be ignored. -/
def envelope (ntok : ℤ) : Prog Op (Option (Command × CStr)) := do
  let answered (p : Prog Op Unit) : Prog Op (Option (Command × CStr)) := do p; return none
  if ntok < 1 then
    return ← answered (sendError (bytes "?") .invalidRequest "Malformed JSON envelope")
  if (← perform (.tokType 0)) ≠ .object then
    return ← answered (sendError (bytes "?") .invalidRequest "Malformed JSON envelope")
  let idxType ← perform (.tokFindKey 0 "type")
  let idxId ← perform (.tokFindKey 0 "id")
  let idxCommand ← perform (.tokFindKey 0 "command")
  match idxType, idxId, idxCommand with
  | some idxType, some idxId, some idxCommand =>
    if !(← perform (.tokEq idxType "request")) then return none
    let id ← perform (.tokStr idxId 128)
    let cmd ← perform (.tokStr idxCommand 64)
    let s ← perform .self
    if s.state = .awaitHello ∧ cmd ≠ bytes "hello" then
      return ← answered (sendError id .invalidRequest "hello must be the first command")
    let gated ← if opts.rxAuth ∧ !s.rxUnlocked then cmdAddressesRx cmd else pure false
    envelope.dispatch opts id cmd gated
  | _, _, _ => answered (sendError (bytes "?") .invalidRequest "Missing type/id/command")

/-- `session_destroy`. -/
def sessionDestroy : Prog Op Unit := do
  let s ← perform .self
  removeVita s.vitaToken
  when (s.state = .streaming) do
    stopReading
    cpBroadcastEventExcept (.streamState s.streamId false .controlLost)
  cpRxRelease
  let r ← perform .radio
  when (r.biasTeeEnabled && !opts.biasTeePersist) do
    let _ ← perform (.set (.biasTee false))
  perform .freeSession

/-- The handling of a message in `cp_session_thread`, without the end of the session that may
follow. -/
def handleMessage (ntok : ℤ) : Prog Op Unit := do
  let some (c, id) ← envelope opts ntok | return
  c.fn opts id

/-- A round of the loop of `cp_session_thread` after the frame has been read and tokenised. -/
def sessionRound (ntok : ℤ) : Prog Op Unit := do
  handleMessage opts ntok
  let s ← perform .self
  when s.closeAfterReply (sessionDestroy opts)

/-! ## The daemon, one request at a time -/

/-- The steps of the daemon. -/
inductive Action where
  /-- A connection arrives on a socket; the thread's stack holds some tokens. -/
  | connect (fd : ℕ) (stack : List Tok)
  /-- A session has received a frame. -/
  | request (i : SessId) (frame : List UInt8) (env : Env)
  /-- A connection ends, or its next frame has an impossible length. -/
  | disconnect (i : SessId) (env : Env)
  /-- A USB buffer arrives at a time. -/
  | usb (buf : List UInt8) (nowMs : UInt64)

/-- The state in which a session's thread handles a frame: it is in `msg_buf`, and tokenised. -/
def Daemon.tokenise (i : SessId) (frame : List UInt8) (d : Daemon) : Daemon :=
  { d.receive frame with
    tokens := Function.update d.tokens i (jsmnParse frame (d.tokens i)).2 }

/-- The handling of a whole frame. -/
def Daemon.request (i : SessId) (frame : List UInt8) (env : Env) (d : Daemon) : Option Daemon :=
  let d' := d.tokenise i frame
  ((sessionRound opts (jsmnParse frame (d.tokens i)).1).run
    (exec opts env (d'.message i env) i) d').map (·.2)

/-- The end of a connection. -/
def Daemon.disconnect (i : SessId) (env : Env) (d : Daemon) : Option Daemon :=
  ((sessionDestroy opts).run (exec opts env (d.message i env) i) d).map (·.2)

/-- One step. -/
def step (d : Daemon) : Action → Option Daemon
  | .connect fd stack =>
    if 0 < fd ∧ stack.length = maxJsonTokens then some (d.sessionCreate fd stack) else none
  | .request i frame env =>
    if (d.sessions i).live ∧ 1 ≤ frame.length ∧ frame.length ≤ maxMsgBytes then
      d.request opts i frame env
    else none
  | .disconnect i env => if (d.sessions i).live then d.disconnect opts i env else none
  | .usb buf nowMs => some (d.rtlCallback buf nowMs)

end SlcRtld.Control
