import SlcRtld.Control.State
import SlcRtld.Effect.Prog

/-!
# The operations of a session thread

The steps that the handlers of `cp_commands.c` and `cp_session.c` are made of: reads of the message
and of the environment, reads and writes of the thread's own session record, and the operations on
the shared state. `exec` says what each does on the thread of session `i`, when the message is in
the memory `m`. A read of the message that leaves the mapped memory has no result.

The lemmas on `Post` say the same as rules for postconditions, one for each operation.
-/

namespace SlcRtld.Control

open Libc Rtl Auth Vita Json Effect
open Effect.Prog (perform Post)

/-- The operations, by what they answer. -/
inductive Op : Type → Type 1 where
  -- reads of the message
  | tokFindKey (obj : ℕ) (key : String) : Op (Option ℕ)
  | tokEq (i : ℕ) (s : String) : Op Bool
  | tokStr (i cap : ℕ) : Op CStr
  | tokType (i : ℕ) : Op TokType
  | tokIsPrimitive (i : ℕ) (s : String) : Op Bool
  | offeredVersions (i : ℕ) : Op (Bool × Bool)
  -- reads of the environment
  | monoNs : Op UInt64
  | utcNow : Op (CStr × ℤ)
  | sensors : Op (CStr × CStr)
  | srcIp : Op CStr
  -- reads of the shared state
  | self : Op Session
  | radio : Op Radio
  | adcLevel : Op (Option (ℕ × ℕ))
  | adcOverload : Op Bool
  | rxOwnedByOther : Op Bool
  | rxControlState : Op ControlState
  -- messages to clients
  | send (f : Frame) : Op Unit
  | broadcast (skipSelf : Bool) (e : Event) : Op Unit
  -- the thread's own session record
  | modify (f : Session → Session) : Op Unit
  | makeNonce : Op Bool
  | checkResponse (method keyId response : CStr) : Op Bool
  | freeSession : Op Unit
  -- the channel and the stream counter
  | rxClaim : Op Bool
  | rxReleaseLocked : Op Bool
  | allocStreamId : Op UInt32
  -- the receiver, the VITA table and the reader
  | set {β : Type} (x : Setting β) : Op β
  | vitaSessionAdd (payloadFmtWord0 : UInt32) : Op ℤ
  | vitaSessionRemove (token : ℤ) : Op Unit
  | vitaUpdatePayloadFormat (w : UInt32) : Op Unit
  | vitaSendContextAll : Op Unit
  | bridgeStart : Op Bool
  | bridgeStopLocked : Op Bool
  | pthreadJoin : Op Unit
  | resetAdcLevel : Op Unit

variable (opts : Options) (env : Env) (m : Msg) (i : SessId)

/-- What an operation does on the thread of session `i`. -/
def exec : Exec Op Daemon
  | _, .tokFindKey obj key, d => (m.tokFindKey obj (bytes key)).map (·, d)
  | _, .tokEq t s, d => (m.tokEq t (bytes s)).map (·, d)
  | _, .tokStr t cap, d => (m.tokStr t cap).map (·, d)
  | _, .tokType t, d => (m.tokType t).map (·, d)
  | _, .tokIsPrimitive t s, d => (m.tokIsPrimitive t (bytes s)).map (·, d)
  | _, .offeredVersions t, d => (m.offeredVersions t).map (·, d)
  | _, .monoNs, d => some (env.monoNs, d)
  | _, .utcNow, d => some (env.utcNow, d)
  | _, .sensors, d => some (env.sensors, d)
  | _, .srcIp, d => some (env.srcIp, d)
  | _, .self, d => some (d.sessions i, d)
  | _, .radio, d => some (d.radio, d)
  | _, .adcLevel, d => some (rtlGetAdcLevel d.adc, d)
  | _, .adcOverload, d => some (d.adc.overload, d)
  | _, .rxOwnedByOther, d => some (d.rxOwnedByOther i, d)
  | _, .rxControlState, d => some (d.rxControlState i, d)
  | _, .send f, d => some ((), d.send i f)
  | _, .broadcast skipSelf e, d => some ((), d.broadcast (if skipSelf then some i else none) e)
  | _, .modify f, d => some ((), d.modify i f)
  | _, .makeNonce, d => d.makeNonce env.random i
  | _, .checkResponse method keyId response, d =>
    some (d.checkResponse opts i method keyId response)
  | _, .freeSession, d => some ((), d.freeSession i)
  | _, .rxClaim, d => some (d.rxClaim i)
  | _, .rxReleaseLocked, d => some (d.rxReleaseLocked i)
  | _, .allocStreamId, d => some d.allocStreamId
  | _, .set x, d => some (d.set env.device x)
  | _, .vitaSessionAdd w, d =>
    let p := d.streamParams env.time (d.sessions i) w
    some ((vitaSessionAdd p d.vita).1, d.vitaApply (.add p))
  | _, .vitaSessionRemove token, d => some ((), d.vitaApply (.remove token))
  | _, .vitaUpdatePayloadFormat w, d => some ((), d.vitaApply (.updatePayloadFormat w))
  | _, .vitaSendContextAll, d => some ((), d.vitaApply (.contextAll d.radio.gainTenthDb))
  | _, .bridgeStart, d => some (d.bridgeStart env.pthreadCreate)
  | _, .bridgeStopLocked, d => some d.bridgeStopLocked
  | _, .pthreadJoin, d => some ((), { d with bridge := pthreadJoin d.bridge })
  | _, .resetAdcLevel, d => some ((), { d with adc := rtlResetAdcLevel d.adc })

/-- An operation that only looks. -/
def Op.Reads : {β : Type} → Op β → Prop
  | _, .tokFindKey _ _ | _, .tokEq _ _ | _, .tokStr _ _ | _, .tokType _ | _, .tokIsPrimitive _ _
  | _, .offeredVersions _ | _, .monoNs | _, .utcNow | _, .sensors | _, .srcIp | _, .self
  | _, .radio | _, .adcLevel | _, .adcOverload | _, .rxOwnedByOther | _, .rxControlState => True
  | _, _ => False

variable {opts env m i}

/-- An operation that only looks leaves the state as it is. -/
theorem exec_reads {β : Type} {o : Op β} (ho : o.Reads) {d d' : Daemon} {b : β}
    (h : exec opts env m i β o d = some (b, d')) : d' = d := by
  cases o with
  | tokFindKey | tokEq | tokStr | tokType | tokIsPrimitive | offeredVersions =>
    obtain ⟨_, -, hpair⟩ := Option.map_eq_some_iff.mp h
    exact (Prod.mk.inj hpair).2.symm
  | monoNs | utcNow | sensors | srcIp | self | radio | adcLevel | adcOverload | rxOwnedByOther
  | rxControlState => exact (Prod.mk.inj (Option.some.inj h)).2.symm
  | _ => exact absurd ho id

/-- A read of the message that has an answer. -/
theorem exec_read {β : Type} {o : Op β} {x : Option β} {a : β} {d : Daemon}
    (ho : exec opts env m i β o d = x.map (·, d)) (hx : x = some a) :
    exec opts env m i β o d = some (a, d) := by
  rw [ho, hx, Option.map_some]

/-! ## Rules -/

section
variable {β : Type} {Q : β → Daemon → Prop} {d : Daemon}

/-- An operation with one answer. -/
theorem post_of_some {o : Op β} {a : β} {d' : Daemon}
    (h : exec opts env m i β o d = some (a, d')) :
    Post (exec opts env m i) (perform o) Q d ↔ Q a d' := by
  rw [Prog.post_perform, h]
  constructor
  · intro hQ
    exact hQ a d' rfl
  · intro hQ b d'' heq
    cases Option.some.inj heq
    exact hQ

/-- An operation that reads the message. -/
theorem post_of_map {o : Op β} {x : Option β} (h : exec opts env m i β o d = x.map (·, d)) :
    Post (exec opts env m i) (perform o) Q d ↔ ∀ a, x = some a → Q a d := by
  rw [Prog.post_perform, h]
  constructor
  · intro hQ a ha
    exact hQ a d (by rw [ha]; rfl)
  · intro hQ a d' heq
    obtain ⟨a', ha', hpair⟩ := Option.map_eq_some_iff.mp heq
    cases hpair
    exact hQ a ha'

/-- A program that only looks may answer anything, in the same state. -/
theorem post_of_reads {p : Prog Op β} (hp : p.Uses fun _ o => o.Reads) (h : ∀ a, Q a d) :
    Post (exec opts env m i) p Q d := by
  refine (Prog.post_of_uses (fun d d' => d' = d) (fun _ => rfl)
    (fun _ _ _ h₁ h₂ => h₂.trans h₁) (fun _ _ _ _ _ ho he => exec_reads ho he) hp d).mono ?_
  rintro a _ rfl
  exact h a

end

section
variable {d : Daemon}

/-- A key of an object in the message. -/
@[simp] theorem post_tokFindKey {Q : Option ℕ → Daemon → Prop} {obj : ℕ} {key : String} :
    Post (exec opts env m i) (perform (.tokFindKey obj key)) Q d ↔
      ∀ a, m.tokFindKey obj (bytes key) = some a → Q a d :=
  post_of_map rfl

/-- A token is compared with a string. -/
@[simp] theorem post_tokEq {Q : Bool → Daemon → Prop} {t : ℕ} {s : String} :
    Post (exec opts env m i) (perform (.tokEq t s)) Q d ↔
      ∀ a, m.tokEq t (bytes s) = some a → Q a d :=
  post_of_map rfl

/-- The text of a token, cut to the buffer. -/
@[simp] theorem post_tokStr {Q : CStr → Daemon → Prop} {t cap : ℕ} :
    Post (exec opts env m i) (perform (.tokStr t cap)) Q d ↔
      ∀ a, m.tokStr t cap = some a → Q a d :=
  post_of_map rfl

/-- The type of a token. -/
@[simp] theorem post_tokType {Q : TokType → Daemon → Prop} {t : ℕ} :
    Post (exec opts env m i) (perform (.tokType t)) Q d ↔ ∀ a, m.tokType t = some a → Q a d :=
  post_of_map rfl

/-- A token is compared with a primitive. -/
@[simp] theorem post_tokIsPrimitive {Q : Bool → Daemon → Prop} {t : ℕ} {s : String} :
    Post (exec opts env m i) (perform (.tokIsPrimitive t s)) Q d ↔
      ∀ a, m.tokIsPrimitive t (bytes s) = some a → Q a d :=
  post_of_map rfl

/-- The versions that a `hello` offers. -/
@[simp] theorem post_offeredVersions {Q : Bool × Bool → Daemon → Prop} {t : ℕ} :
    Post (exec opts env m i) (perform (.offeredVersions t)) Q d ↔
      ∀ a, m.offeredVersions t = some a → Q a d :=
  post_of_map rfl

/-- The monotonic clock. -/
@[simp] theorem post_monoNs {Q : UInt64 → Daemon → Prop} :
    Post (exec opts env m i) (perform .monoNs) Q d ↔ Q env.monoNs d :=
  post_of_some rfl

/-- The time of day. -/
@[simp] theorem post_utcNow {Q : CStr × ℤ → Daemon → Prop} :
    Post (exec opts env m i) (perform .utcNow) Q d ↔ Q env.utcNow d :=
  post_of_some rfl

/-- The sensors. -/
@[simp] theorem post_sensors {Q : CStr × CStr → Daemon → Prop} :
    Post (exec opts env m i) (perform .sensors) Q d ↔ Q env.sensors d :=
  post_of_some rfl

/-- The address that the daemon is reached at. -/
@[simp] theorem post_srcIp {Q : CStr → Daemon → Prop} :
    Post (exec opts env m i) (perform .srcIp) Q d ↔ Q env.srcIp d :=
  post_of_some rfl

/-- The session's record. -/
@[simp] theorem post_self {Q : Session → Daemon → Prop} :
    Post (exec opts env m i) (perform .self) Q d ↔ Q (d.sessions i) d :=
  post_of_some rfl

/-- The receiver. -/
@[simp] theorem post_radio {Q : Radio → Daemon → Prop} :
    Post (exec opts env m i) (perform .radio) Q d ↔ Q d.radio d :=
  post_of_some rfl

/-- The last level of the converter. -/
@[simp] theorem post_adcLevel {Q : Option (ℕ × ℕ) → Daemon → Prop} :
    Post (exec opts env m i) (perform .adcLevel) Q d ↔ Q (rtlGetAdcLevel d.adc) d :=
  post_of_some rfl

/-- Whether the converter is overloaded. -/
@[simp] theorem post_adcOverload {Q : Bool → Daemon → Prop} :
    Post (exec opts env m i) (perform .adcOverload) Q d ↔ Q d.adc.overload d :=
  post_of_some rfl

/-- Whether another session owns the channel. -/
@[simp] theorem post_rxOwnedByOther {Q : Bool → Daemon → Prop} :
    Post (exec opts env m i) (perform .rxOwnedByOther) Q d ↔ Q (d.rxOwnedByOther i) d :=
  post_of_some rfl

/-- The channel as the session sees it. -/
@[simp] theorem post_rxControlState {Q : ControlState → Daemon → Prop} :
    Post (exec opts env m i) (perform .rxControlState) Q d ↔ Q (d.rxControlState i) d :=
  post_of_some rfl

/-- A frame to the session. -/
@[simp] theorem post_send {Q : Unit → Daemon → Prop} {f : Frame} :
    Post (exec opts env m i) (perform (.send f)) Q d ↔ Q () (d.send i f) :=
  post_of_some rfl

/-- An event to the sessions, with or without this one. -/
@[simp] theorem post_broadcast {Q : Unit → Daemon → Prop} {skipSelf : Bool} {e : Event} :
    Post (exec opts env m i) (perform (.broadcast skipSelf e)) Q d ↔
      Q () (d.broadcast (if skipSelf then some i else none) e) :=
  post_of_some rfl

/-- A change to the session's record. -/
@[simp] theorem post_modify {Q : Unit → Daemon → Prop} {f : Session → Session} :
    Post (exec opts env m i) (perform (.modify f)) Q d ↔ Q () (d.modify i f) :=
  post_of_some rfl

/-- A new nonce. -/
@[simp] theorem post_makeNonce {Q : Bool → Daemon → Prop} :
    Post (exec opts env m i) (perform .makeNonce) Q d ↔
      ∀ a d', d.makeNonce env.random i = some (a, d') → Q a d' :=
  Prog.post_perform _ _ _

/-- The verification of a response. -/
@[simp] theorem post_checkResponse {Q : Bool → Daemon → Prop} {method keyId response : CStr} :
    Post (exec opts env m i) (perform (.checkResponse method keyId response)) Q d ↔
      Q (d.checkResponse opts i method keyId response).1
        (d.checkResponse opts i method keyId response).2 :=
  post_of_some rfl

/-- The slot is freed. -/
@[simp] theorem post_freeSession {Q : Unit → Daemon → Prop} :
    Post (exec opts env m i) (perform .freeSession) Q d ↔ Q () (d.freeSession i) :=
  post_of_some rfl

/-- The channel is claimed. -/
@[simp] theorem post_rxClaim {Q : Bool → Daemon → Prop} :
    Post (exec opts env m i) (perform .rxClaim) Q d ↔ Q (d.rxClaim i).1 (d.rxClaim i).2 :=
  post_of_some rfl

/-- The channel is released. -/
@[simp] theorem post_rxReleaseLocked {Q : Bool → Daemon → Prop} :
    Post (exec opts env m i) (perform .rxReleaseLocked) Q d ↔
      Q (d.rxReleaseLocked i).1 (d.rxReleaseLocked i).2 :=
  post_of_some rfl

/-- The next stream id. -/
@[simp] theorem post_allocStreamId {Q : UInt32 → Daemon → Prop} :
    Post (exec opts env m i) (perform .allocStreamId) Q d ↔
      Q d.allocStreamId.1 d.allocStreamId.2 :=
  post_of_some rfl

/-- A setter of the receiver. -/
@[simp] theorem post_set {β : Type} {Q : β → Daemon → Prop} {x : Setting β} :
    Post (exec opts env m i) (perform (.set x)) Q d ↔
      Q (d.set env.device x).1 (d.set env.device x).2 :=
  post_of_some rfl

/-- A slot in the table of streams. -/
@[simp] theorem post_vitaSessionAdd {Q : ℤ → Daemon → Prop} {w : UInt32} :
    Post (exec opts env m i) (perform (.vitaSessionAdd w)) Q d ↔
      Q (vitaSessionAdd (d.streamParams env.time (d.sessions i) w) d.vita).1
        (d.vitaApply (.add (d.streamParams env.time (d.sessions i) w))) :=
  post_of_some rfl

/-- A slot is given back. -/
@[simp] theorem post_vitaSessionRemove {Q : Unit → Daemon → Prop} {token : ℤ} :
    Post (exec opts env m i) (perform (.vitaSessionRemove token)) Q d ↔
      Q () (d.vitaApply (.remove token)) :=
  post_of_some rfl

/-- The payload format of the streams. -/
@[simp] theorem post_vitaUpdatePayloadFormat {Q : Unit → Daemon → Prop} {w : UInt32} :
    Post (exec opts env m i) (perform (.vitaUpdatePayloadFormat w)) Q d ↔
      Q () (d.vitaApply (.updatePayloadFormat w)) :=
  post_of_some rfl

/-- A context packet on every stream. -/
@[simp] theorem post_vitaSendContextAll {Q : Unit → Daemon → Prop} :
    Post (exec opts env m i) (perform .vitaSendContextAll) Q d ↔
      Q () (d.vitaApply (.contextAll d.radio.gainTenthDb)) :=
  post_of_some rfl

/-- The reader is started, or counts one stream more. -/
@[simp] theorem post_bridgeStart {Q : Bool → Daemon → Prop} :
    Post (exec opts env m i) (perform .bridgeStart) Q d ↔
      Q (d.bridgeStart env.pthreadCreate).1 (d.bridgeStart env.pthreadCreate).2 :=
  post_of_some rfl

/-- The reader counts one stream less, and is told to stop after the last. -/
@[simp] theorem post_bridgeStopLocked {Q : Bool → Daemon → Prop} :
    Post (exec opts env m i) (perform .bridgeStopLocked) Q d ↔
      Q d.bridgeStopLocked.1 d.bridgeStopLocked.2 :=
  post_of_some rfl

/-- The reader's thread is joined. -/
@[simp] theorem post_pthreadJoin {Q : Unit → Daemon → Prop} :
    Post (exec opts env m i) (perform .pthreadJoin) Q d ↔
      Q () { d with bridge := pthreadJoin d.bridge } :=
  post_of_some rfl

/-- The level of the converter is measured anew. -/
@[simp] theorem post_resetAdcLevel {Q : Unit → Daemon → Prop} :
    Post (exec opts env m i) (perform .resetAdcLevel) Q d ↔
      Q () { d with adc := rtlResetAdcLevel d.adc } :=
  post_of_some rfl

end

end SlcRtld.Control
