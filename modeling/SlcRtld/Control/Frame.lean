import SlcRtld.Control.Handlers

/-!
# What outcomes leave alone

Most outcomes touch little. A reply, an accepted `hello` and an `authenticate` concern the session
alone (`Private`); a request that sets the receiver leaves the sessions, the channel and the streams
where they are (`Configures`). Both are closed under composition, so they are shown operation by
operation.
-/

namespace SlcRtld.Control

open Libc Rtl Auth Vita Json Effect

/-! ## Changes to one session -/

/-- The part of a session's record that the stream commands work on. -/
structure StreamFields where
  fd : ℕ
  ownsRx : Bool
  streamOpen : Bool
  streamId : CStr
  vitaStreamId : UInt32
  destIp : List ℕ
  destPort : ℕ
  iqFmt : IqFormat
  vitaToken : ℤ
deriving DecidableEq

/-- The stream part of a session. -/
def Session.streamFields (s : Session) : StreamFields :=
  ⟨s.fd, s.ownsRx, s.streamOpen, s.streamId, s.vitaStreamId, s.destIp, s.destPort, s.iqFmt,
    s.vitaToken⟩

/-- The part of a session's record that authentication works on. -/
structure AuthFields where
  nonce : List UInt8
  nonceValid : Bool
  rxUnlocked : Bool
  authFailures : UInt32
  authWindowNs : UInt64
  closeAfterReply : Bool
deriving DecidableEq

/-- The authentication part of a session. -/
def Session.authFields (s : Session) : AuthFields :=
  ⟨s.nonce, s.nonceValid, s.rxUnlocked, s.authFailures, s.authWindowNs, s.closeAfterReply⟩

/-- The observation is about one session only. -/
def Obs.about (i : SessId) : Obs → Prop
  | .sent j _ | .nonce j _ | .verify j _ _ => j = i
  | _ => False

/-- The session that is changed. -/
@[simp] theorem Daemon.modify_self (i : SessId) (f : Session → Session) (d : Daemon) :
    (d.modify i f).sessions i = f (d.sessions i) :=
  Function.update_self ..

/-- The others stay. -/
theorem Daemon.modify_of_ne {i j : SessId} (h : j ≠ i) (f : Session → Session) (d : Daemon) :
    (d.modify i f).sessions j = d.sessions j :=
  Function.update_of_ne h ..

/-- A change that concerns one session alone: nothing else changes, the session's stream stays as it
is, and only its own client can see that something happened. -/
structure Private (i : SessId) (d d' : Daemon) : Prop where
  others : ∀ j, j ≠ i → d'.sessions j = d.sessions j
  streamFields : (d'.sessions i).streamFields = (d.sessions i).streamFields
  state : (d'.sessions i).state = (d.sessions i).state ∨ (d'.sessions i).state = .idle
  rxOwner : d'.rxOwner = d.rxOwner
  streamCounter : d'.streamCounter = d.streamCounter
  radio : d'.radio = d.radio
  bridge : d'.bridge = d.bridge
  adc : d'.adc = d.adc
  vita : d'.vita = d.vita
  msgBuf : d'.msgBuf = d.msgBuf
  tokens : d'.tokens = d.tokens
  trace : ∃ new, d'.trace = new ++ d.trace ∧ ∀ o ∈ new, o.about i

/-- Nothing has happened. -/
theorem Private.refl (i : SessId) (d : Daemon) : Private i d d where
  others := fun _ _ => rfl
  streamFields := rfl
  state := .inl rfl
  rxOwner := rfl
  streamCounter := rfl
  radio := rfl
  bridge := rfl
  adc := rfl
  vita := rfl
  msgBuf := rfl
  tokens := rfl
  trace := ⟨[], rfl, by simp⟩

/-- Two changes, one after the other. -/
theorem Private.trans {i : SessId} {d d₁ d₂ : Daemon} (h : Private i d d₁) (h' : Private i d₁ d₂) :
    Private i d d₂ where
  others := fun j hj => (h'.others j hj).trans (h.others j hj)
  streamFields := h'.streamFields.trans h.streamFields
  state := by
    rcases h'.state with hs' | hs'
    · rw [hs']
      exact h.state
    · exact .inr hs'
  rxOwner := h'.rxOwner.trans h.rxOwner
  streamCounter := h'.streamCounter.trans h.streamCounter
  radio := h'.radio.trans h.radio
  bridge := h'.bridge.trans h.bridge
  adc := h'.adc.trans h.adc
  vita := h'.vita.trans h.vita
  msgBuf := h'.msgBuf.trans h.msgBuf
  tokens := h'.tokens.trans h.tokens
  trace := by
    obtain ⟨new, hnew, habout⟩ := h.trace
    obtain ⟨new', hnew', habout'⟩ := h'.trace
    refine ⟨new' ++ new, by rw [hnew', hnew, List.append_assoc], fun o ho => ?_⟩
    rcases List.mem_append.mp ho with ho | ho
    · exact habout' o ho
    · exact habout o ho

/-- Observations about the session. -/
theorem Private.log {i : SessId} {os : List Obs} (h : ∀ o ∈ os, o.about i) (d : Daemon) :
    Private i d (d.log os) :=
  { Private.refl i d with trace := ⟨os, rfl, h⟩ }

/-- A change to the record that keeps the fields of the stream, and the state or makes it idle. -/
theorem Private.modify {i : SessId} {f : Session → Session}
    (hstream : ∀ s, (f s).streamFields = s.streamFields)
    (hstate : ∀ s, (f s).state = s.state ∨ (f s).state = .idle) (d : Daemon) :
    Private i d (d.modify i f) :=
  { Private.refl i d with
    others := fun j hj => Daemon.modify_of_ne hj f d
    streamFields := by rw [Daemon.modify_self, hstream]
    state := by
      rw [Daemon.modify_self]
      exact hstate _
    trace := ⟨[], rfl, by simp⟩ }

/-- A frame to the session. -/
theorem Private.send (i : SessId) (f : Frame) (d : Daemon) : Private i d (d.send i f) := by
  refine Private.log (fun o ho => ?_) d
  split_ifs at ho
  · rw [List.mem_singleton.mp ho]
    rfl
  · simp at ho

/-- The verification of a response. -/
theorem Private.checkResponse {opts : Options} {i : SessId} {method keyId response : CStr}
    {ok : Bool} {d d₁ : Daemon}
    (h : d.checkResponse opts i method keyId response = (ok, d₁)) : Private i d d₁ := by
  obtain ⟨-, rfl⟩ := Prod.mk.inj h
  refine Private.log (fun o ho => ?_) d
  split_ifs at ho
  · rw [List.mem_singleton.mp ho]
    rfl
  · simp at ho

/-- What `auth_make_nonce` returns is stored in the session and observed. -/
theorem makeNonce_eq {os : List GetRandom} {i : SessId} {made : Bool} {d d₁ : Daemon}
    (h : d.makeNonce os i = some (made, d₁)) :
    ∃ raw, authMakeNonce os (d.sessions i).nonce = some (made, raw) ∧
      d₁ = (d.modify i (Session.storeNonce made raw)).log
        [.nonce i (if made then some raw else none)] := by
  obtain ⟨⟨made', raw⟩, hraw, hpair⟩ := Option.map_eq_some_iff.mp h
  obtain ⟨rfl, rfl⟩ := Prod.mk.inj hpair
  exact ⟨raw, hraw, rfl⟩

/-- A new nonce. -/
theorem Private.makeNonce {os : List GetRandom} {i : SessId} {made : Bool} {d d₁ : Daemon}
    (h : d.makeNonce os i = some (made, d₁)) : Private i d d₁ := by
  obtain ⟨raw, -, rfl⟩ := makeNonce_eq h
  refine (Private.modify (f := Session.storeNonce made raw) (fun _ => rfl) (fun _ => .inl rfl)
    d).trans (Private.log (fun o ho => ?_) _)
  rw [List.mem_singleton.mp ho]
  rfl

/-! The updates of `hello` and `authenticate`. -/

section
variable {i : SessId} (d : Daemon)

/-- An accepted `hello`. -/
theorem private_accept (name : CStr) : Private i d (d.modify i (Session.accept name)) :=
  Private.modify (f := Session.accept name) (fun _ => rfl) (fun _ => .inr rfl) d

/-- A nonce becomes valid, or invalid. -/
theorem private_nonceValid (valid : Bool) :
    Private i d (d.modify i fun s => { s with nonceValid := valid }) :=
  Private.modify (f := fun s => { s with nonceValid := valid }) (fun _ => rfl) (fun _ => .inl rfl) d

/-- The session is unlocked. -/
theorem private_unlock : Private i d (d.modify i Session.unlock) :=
  Private.modify (f := Session.unlock) (fun _ => rfl) (fun _ => .inl rfl) d

/-- A failed response is counted. -/
theorem private_countFailure : Private i d (d.modify i Session.countFailure) :=
  Private.modify (f := Session.countFailure) (fun _ => rfl) (fun _ => .inl rfl) d

/-- A challenge is put to the session, or there is no nonce for one. -/
theorem private_challenge (made : Bool) : Private i d (d.modify i (Session.challenge made)) := by
  refine Private.modify (fun s => ?_) (fun s => .inl ?_) d
  · cases made <;> rfl
  · cases made <;> rfl

/-- The window of the failures begins anew once it is over. -/
theorem private_refreshWindow (now : UInt64) :
    Private i d (d.modify i (Session.refreshWindow now)) := by
  refine Private.modify (fun s => ?_) (fun s => .inl ?_) d
  · unfold Session.refreshWindow
    split_ifs <;> rfl
  · unfold Session.refreshWindow
    split_ifs <;> rfl

/-- After too many failures the session has to wait. -/
theorem private_limitFailures : Private i d (d.modify i Session.limitFailures) := by
  refine Private.modify (fun s => ?_) (fun s => .inl ?_) d
  · unfold Session.limitFailures
    split_ifs <;> rfl
  · unfold Session.limitFailures
    split_ifs <;> rfl

end

/-- `hello` and `authenticate` concern the session alone. -/
theorem AuthOutcome.isPrivate {opts : Options} {env : Env} {m : Msg} {i : SessId} {d d' : Daemon}
    {c : Command} (h : AuthOutcome opts env m i d c d') : Private i d d' := by
  cases h with
  | hello _ _ name id => exact (private_accept d name).trans (Private.send ..)
  | challenged _ _ name id hex made d₁ hmade =>
    exact (((private_accept d name).trans (Private.makeNonce hmade)).trans
      (private_challenge ..)).trans (Private.send ..)
  | unlocked method keyId response id _ _ d₁ hok =>
    exact (((private_refreshWindow d _).trans (Private.checkResponse hok)).trans
      (private_unlock d₁)).trans (Private.send ..)
  | rejected method keyId response id _ _ hex made d₁ d₂ hok hmade =>
    exact ((((((private_refreshWindow d _).trans (Private.checkResponse hok)).trans
      (private_countFailure d₁)).trans (Private.makeNonce hmade)).trans
      (private_nonceValid d₂ made)).trans (Private.send ..)).trans (private_limitFailures ..)

/-- The verification only looks at the sessions. -/
theorem checkResponse_sessions {opts : Options} {i : SessId} {method keyId response : CStr} {ok : Bool}
    {d d₁ : Daemon} (h : d.checkResponse opts i method keyId response = (ok, d₁)) :
    d₁.sessions = d.sessions := by
  obtain ⟨-, rfl⟩ := Prod.mk.inj h
  rfl

/-- The session whose nonce is made has it. -/
theorem makeNonce_self {os : List GetRandom} {i : SessId} {made : Bool} {d d₁ : Daemon}
    (h : d.makeNonce os i = some (made, d₁)) :
    ∃ raw, d₁.sessions i = (d.sessions i).storeNonce made raw := by
  obtain ⟨raw, -, rfl⟩ := makeNonce_eq h
  exact ⟨raw, Daemon.modify_self ..⟩

/-- The window of the failures has no part in the state. -/
theorem Session.refreshWindow_state (now : UInt64) (s : Session) :
    (s.refreshWindow now).state = s.state := by
  unfold Session.refreshWindow
  split_ifs <;> rfl

/-- Nor has the limit of the failures. -/
theorem Session.limitFailures_state (s : Session) : s.limitFailures.state = s.state := by
  unfold Session.limitFailures
  split_ifs <;> rfl

/-- Only an accepted `hello` moves a session to another state. -/
theorem AuthOutcome.state {opts : Options} {env : Env} {m : Msg} {i : SessId} {d d' : Daemon}
    {c : Command} (h : AuthOutcome opts env m i d c d') :
    (c = .hello ∧ OffersVersion m) ∨ (d'.sessions i).state = (d.sessions i).state := by
  cases h with
  | hello hm | challenged hm => exact .inl ⟨rfl, hm⟩
  | unlocked method keyId response id _ _ d₁ hok =>
    -- the response is checked, and the session unlocked
    refine .inr ?_
    have hself := congrFun (checkResponse_sessions hok) i
    rw [Daemon.modify_self] at hself
    show ((d₁.modify i Session.unlock).sessions i).state = _
    rw [Daemon.modify_self, hself]
    exact Session.refreshWindow_state ..
  | rejected method keyId response id _ _ hex made d₁ d₂ hok hmade =>
    -- the failure is counted, a new nonce made, and the session may have to wait
    refine .inr ?_
    have hself := congrFun (checkResponse_sessions hok) i
    rw [Daemon.modify_self] at hself
    obtain ⟨raw, hraw⟩ := makeNonce_self hmade
    rw [Daemon.modify_self, hself] at hraw
    rw [Daemon.modify_self, Session.limitFailures_state]
    show ((d₂.modify i fun s => { s with nonceValid := made }).sessions i).state = _
    rw [Daemon.modify_self, hraw]
    exact Session.refreshWindow_state ..

/-! ## Changes to the receiver -/

/-- A change to the receiver and to what is said of it, that leaves the sessions, the channel and
the streams where they are. -/
structure Configures (d d' : Daemon) : Prop where
  sessions : d'.sessions = d.sessions
  rxOwner : d'.rxOwner = d.rxOwner
  streamCounter : d'.streamCounter = d.streamCounter
  bridge : d'.bridge = d.bridge
  adc : d'.adc = d.adc
  msgBuf : d'.msgBuf = d.msgBuf
  tokens : d'.tokens = d.tokens
  identity : ∀ j, (d'.vita.slots j).active = (d.vita.slots j).active ∧
    (d'.vita.slots j).vitaStreamId = (d.vita.slots j).vitaStreamId

/-- Two changes, one after the other. -/
theorem Configures.trans {d d₁ d₂ : Daemon} (h : Configures d d₁) (h' : Configures d₁ d₂) :
    Configures d d₂ where
  sessions := h'.sessions.trans h.sessions
  rxOwner := h'.rxOwner.trans h.rxOwner
  streamCounter := h'.streamCounter.trans h.streamCounter
  bridge := h'.bridge.trans h.bridge
  adc := h'.adc.trans h.adc
  msgBuf := h'.msgBuf.trans h.msgBuf
  tokens := h'.tokens.trans h.tokens
  identity := fun j =>
    ⟨(h'.identity j).1.trans (h.identity j).1, (h'.identity j).2.trans (h.identity j).2⟩

/-- Observations are no change to a session or to the table of streams. -/
theorem Configures.log (os : List Obs) (d : Daemon) : Configures d (d.log os) :=
  ⟨rfl, rfl, rfl, rfl, rfl, rfl, rfl, fun _ => ⟨rfl, rfl⟩⟩

/-- A setter. -/
theorem Configures.set (dev : Device) {β : Type} (x : Setting β) (d : Daemon) :
    Configures d (d.set dev x).2 :=
  ⟨rfl, rfl, rfl, rfl, rfl, rfl, rfl, fun _ => ⟨rfl, rfl⟩⟩

/-- A frame to a session. -/
theorem Configures.send (i : SessId) (f : Frame) (d : Daemon) : Configures d (d.send i f) :=
  Configures.log _ d

/-- An event to the sessions. -/
theorem Configures.broadcast (skip : Option SessId) (e : Event) (d : Daemon) :
    Configures d (d.broadcast skip e) :=
  Configures.log _ d

/-- An operation on the VITA table that neither adds nor removes a stream. -/
theorem Configures.vitaApply {o : VitaOp} (ho : o.Local) (d : Daemon) :
    Configures d (d.vitaApply o) :=
  ⟨rfl, rfl, rfl, rfl, rfl, rfl, rfl, fun j => apply_identity ho j⟩

/-- A context packet on every stream. -/
theorem Configures.contextAll (gain : ℤ) (d : Daemon) :
    Configures d (d.vitaApply (.contextAll gain)) :=
  Configures.vitaApply (o := .contextAll gain) trivial d

/-- The format of the streams follows the mode. -/
theorem Configures.updatePayloadFormat (w : UInt32) (d : Daemon) :
    Configures d (d.vitaApply (.updatePayloadFormat w)) :=
  Configures.vitaApply (o := .updatePayloadFormat w) trivial d

/-- Another frequency, and its context packets and events. -/
theorem Configures.moveFrequency (dev : Device) (freqHz : ℕ) (d : Daemon) :
    Configures d (d.moveFrequency dev freqHz) := by
  unfold Daemon.moveFrequency
  split_ifs
  · exact (Configures.set ..).trans (Configures.broadcast ..)
  · exact Configures.set ..

/-- Another rate, and its context packets and events. -/
theorem Configures.moveSampleRate (dev : Device) (rateSps : ℕ) (d : Daemon) :
    Configures d (d.moveSampleRate dev rateSps) := by
  unfold Daemon.moveSampleRate
  split_ifs
  · exact (Configures.set ..).trans (Configures.broadcast ..)
  · exact Configures.set ..

/-- The frequency is moved into the range of the mode. -/
theorem Configures.retuneForMode (dev : Device) (d : Daemon) :
    Configures d (d.retuneForMode dev) := by
  unfold Daemon.retuneForMode
  by_cases h : d.radio.freqHz < rtlFreqMin d.radio.samplingMode ∨
    rtlFreqMax d.radio.samplingMode < d.radio.freqHz
  · rw [if_pos h]
    exact Configures.moveFrequency ..
  · rw [if_neg h]
    exact Configures.log [] d

/-- The rate is moved to one that the mode has. -/
theorem Configures.resampleForMode (dev : Device) (d : Daemon) :
    Configures d (d.resampleForMode dev) := by
  unfold Daemon.resampleForMode
  by_cases h : d.radio.rateRequestedSps ∉ rtlRateList d.radio.samplingMode
  · rw [if_pos h]
    exact Configures.moveSampleRate ..
  · rw [if_neg h]
    exact Configures.log [] d

/-- Both, and the payload format. -/
theorem Configures.applyModeChangeSideEffects (dev : Device) (d : Daemon) :
    Configures d (d.applyModeChangeSideEffects dev) :=
  ((Configures.retuneForMode dev d).trans (Configures.resampleForMode dev _)).trans
    ((Configures.updatePayloadFormat ..).trans (Configures.contextAll ..))

/-- A request that sets the receiver does nothing else. -/
theorem ConfigOutcome.configures {opts : Options} {env : Env} {m : Msg} {i : SessId} {d d' : Daemon}
    {c : Command} (h : ConfigOutcome opts env m i d c d') : Configures d d' := by
  cases h with
  | frequency | sampleRate =>
    exact ((Configures.set ..).trans (Configures.send ..)).trans (Configures.broadcast ..)
  | frequencyFailed | sampleRateFailed | biasTeeFailed | directSamplingFailed =>
    exact (Configures.set ..).trans (Configures.send ..)
  | rfGain _ _ _ _ d₁ hd₁ | agc _ _ d₁ hd₁ =>
    subst hd₁
    exact ((Configures.set ..).trans (Configures.send ..)).trans
      ((Configures.contextAll ..).trans (Configures.broadcast ..))
  | ppm _ _ d₁ hd₁ =>
    subst hd₁
    exact ((Configures.set ..).trans (Configures.send ..)).trans (Configures.broadcast ..)
  | biasTee en _ d₁ hd₁ =>
    obtain ⟨-, rfl⟩ := Prod.mk.inj hd₁
    exact ((Configures.set ..).trans (Configures.send ..)).trans (Configures.broadcast ..)
  | directSampling mode _ _ _ d₁ hd₁ =>
    obtain ⟨-, rfl⟩ := Prod.mk.inj hd₁
    exact ((((Configures.set ..).trans (Configures.send ..)).trans (Configures.broadcast ..)).trans
      (Configures.applyModeChangeSideEffects ..)).trans (Configures.broadcast ..)

/-- A USB buffer changes no session, and moves no stream. -/
theorem rtlCallback_frame (buf : List UInt8) (nowMs : UInt64) (d : Daemon) :
    (d.rtlCallback buf nowMs).sessions = d.sessions ∧
      (d.rtlCallback buf nowMs).rxOwner = d.rxOwner ∧
      (d.rtlCallback buf nowMs).radio = d.radio ∧
      (d.rtlCallback buf nowMs).bridge = d.bridge ∧
      ∀ j, ((d.rtlCallback buf nowMs).vita.slots j).active = (d.vita.slots j).active ∧
        ((d.rtlCallback buf nowMs).vita.slots j).vitaStreamId = (d.vita.slots j).vitaStreamId := by
  unfold Daemon.rtlCallback
  split_ifs
  · rcases measureAdcLevel buf nowMs d.adc with ⟨_ | level, adc⟩
    · exact ⟨rfl, rfl, rfl, rfl, fun j => apply_identity (o := .callback buf) trivial j⟩
    · exact ⟨rfl, rfl, rfl, rfl, fun j => apply_identity (o := .callback buf) trivial j⟩
  · exact ⟨rfl, rfl, rfl, rfl, fun _ => ⟨rfl, rfl⟩⟩

/-! ## Streams -/

section
variable {i : SessId} {d d₁ : Daemon}

/-- A claim that succeeds found the channel free or owned by the session, and makes it the owner. -/
theorem rxClaim_eq (h : d.rxClaim i = (true, d₁)) :
    (d.rxOwner = none ∨ d.rxOwner = some i) ∧
      d₁ = { d with rxOwner := some i }.modify i Session.own := by
  unfold Daemon.rxClaim at h
  split_ifs at h with hfree
  · exact ⟨hfree, (Prod.mk.inj h).2.symm⟩
  · exact absurd (Prod.mk.inj h).1 (by decide)

/-- Releasing the channel is one change to the state, and notices to other sessions. -/
theorem rxRelease_eq (i : SessId) (d : Daemon) :
    ∃ js : List SessId, i ∉ js ∧
      d.rxRelease i = (d.rxReleaseLocked i).2.log
        (js.map fun j => .sent j (.event (.controlRevoked .free))) := by
  unfold Daemon.rxRelease
  split_ifs
  · refine ⟨((d.rxReleaseLocked i).2.listeners (some i)).reverse, ?_, rfl⟩
    simp [Daemon.listeners]
  · exact ⟨[], by simp, rfl⟩

/-- The session does not own the channel any more. -/
theorem rxRelease_sessions : (d.rxRelease i).sessions = (d.modify i Session.disown).sessions := by
  obtain ⟨js, -, hd⟩ := rxRelease_eq i d
  rw [hd]
  rfl

/-- The channel is free if it was the session's. -/
theorem rxRelease_rxOwner :
    (d.rxRelease i).rxOwner = if d.rxOwner = some i then none else d.rxOwner := by
  obtain ⟨js, -, hd⟩ := rxRelease_eq i d
  rw [hd]
  rfl

/-- The table of streams stays. -/
theorem rxRelease_vita : (d.rxRelease i).vita = d.vita := by
  obtain ⟨js, -, hd⟩ := rxRelease_eq i d
  rw [hd]
  rfl

/-- The reader goes on. -/
theorem rxRelease_bridge : (d.rxRelease i).bridge = d.bridge := by
  obtain ⟨js, -, hd⟩ := rxRelease_eq i d
  rw [hd]
  rfl

/-- The other sessions stay. -/
theorem removeVita_of_ne {j : SessId} (hj : j ≠ i) :
    (d.removeVita i).sessions j = d.sessions j := by
  unfold Daemon.removeVita
  split_ifs
  · exact Daemon.modify_of_ne hj _ _
  · rfl

/-- Removing a session's slot leaves the rest of its record alone. -/
theorem removeVita_self : ∃ token, (d.removeVita i).sessions i =
    { d.sessions i with vitaToken := token } := by
  unfold Daemon.removeVita
  split_ifs
  · exact ⟨-1, Daemon.modify_self ..⟩
  · exact ⟨_, rfl⟩

/-- The channel keeps its owner. -/
theorem removeVita_rxOwner : (d.removeVita i).rxOwner = d.rxOwner := by
  unfold Daemon.removeVita
  split_ifs <;> rfl

/-- The end of a stream touches no other session, and of its own only the VITA slot. -/
theorem endStream_sessions (i : SessId) (d : Daemon) :
    (d.endStream i).sessions = (d.removeVita i).sessions := by
  unfold Daemon.endStream
  split_ifs <;> rfl

/-- The channel keeps its owner, until it is released. -/
theorem endStream_rxOwner : (d.endStream i).rxOwner = d.rxOwner := by
  unfold Daemon.endStream
  split_ifs
  · exact removeVita_rxOwner
  · exact removeVita_rxOwner

/-- Switching the antenna's supply off, where nobody is left to use it. -/
theorem Configures.biasTeeFallback (opts : Options) (dev : Device) (d : Daemon) :
    Configures d (d.biasTeeFallback opts dev) := by
  unfold Daemon.biasTeeFallback
  split_ifs
  · exact Configures.set ..
  · exact Configures.log [] d

/-- The slot is free. -/
theorem freeSession_self : (d.freeSession i).sessions i = Session.zero :=
  Daemon.modify_self i (fun _ => Session.zero) d

/-- The others stay. -/
theorem freeSession_of_ne {j : SessId} (hj : j ≠ i) :
    (d.freeSession i).sessions j = d.sessions j :=
  Daemon.modify_of_ne hj (fun _ => Session.zero) d

/-- A connection finds every slot taken, or takes a free one. -/
theorem sessionCreate_cases (fd : ℕ) (stack : List Tok) (d : Daemon) :
    d.sessionCreate fd stack = d ∨ ∃ i, (d.sessions i).fd = 0 ∧
      d.sessionCreate fd stack = ({ d with tokens := Function.update d.tokens i stack }.modify i
        fun _ => Session.new fd).log [.connected i] := by
  unfold Daemon.sessionCreate
  split
  · exact .inl rfl
  · rename_i i hfind
    exact .inr ⟨i, by simpa using List.find?_some hfind, rfl⟩

variable (opts : Options) (dev : Device)

/-- The slot is free. -/
theorem destroy_self : (d.destroy opts dev i).sessions i = Session.zero := freeSession_self

/-- The others stay. -/
theorem destroy_of_ne {j : SessId} (hj : j ≠ i) :
    (d.destroy opts dev i).sessions j = d.sessions j := by
  unfold Daemon.destroy
  rw [freeSession_of_ne hj, (Configures.biasTeeFallback ..).sessions, rxRelease_sessions,
    Daemon.modify_of_ne hj, endStream_sessions, removeVita_of_ne hj]

/-- The channel is free if it was the session's. -/
theorem destroy_rxOwner :
    (d.destroy opts dev i).rxOwner = if d.rxOwner = some i then none else d.rxOwner := by
  unfold Daemon.destroy
  refine (Configures.biasTeeFallback ..).rxOwner.trans ?_
  rw [rxRelease_rxOwner, endStream_rxOwner]

/-- The supply of the antenna has no part in the streams. -/
theorem biasTeeFallback_vita : (d.biasTeeFallback opts dev).vita = d.vita := by
  unfold Daemon.biasTeeFallback
  split_ifs <;> rfl

/-- Of the table of streams, the end of a session ends its own stream. -/
theorem destroy_vita : (d.destroy opts dev i).vita = (d.endStream i).vita :=
  (biasTeeFallback_vita opts dev).trans rxRelease_vita

/-- Of the reader, too. -/
theorem destroy_bridge : (d.destroy opts dev i).bridge = (d.endStream i).bridge :=
  (Configures.biasTeeFallback opts dev _).bridge.trans rxRelease_bridge

end

/-! ## What is said on the way -/

/-- Between two states only observations with `P` have been made. -/
def Emits (P : Obs → Prop) (d d' : Daemon) : Prop :=
  ∃ new, d'.trace = new ++ d.trace ∧ ∀ o ∈ new, P o

/-- An observation has been made between two states. -/
def Observed (d d' : Daemon) (o : Obs) : Prop := ∃ new, d'.trace = new ++ d.trace ∧ o ∈ new

/-- The observation is a message, a packet or a hardware call. -/
def Obs.output : Obs → Bool
  | .hardware _ | .sent _ _ | .datagram _ => true
  | _ => false

/-- Between two states there have been outputs, and nothing else was observed. -/
def Outputs (d d' : Daemon) : Prop := Emits (·.output = true) d d'

/-- `P` holds of everything that is not a reply: hardware calls, packets and events. -/
structure Chatter (P : Obs → Prop) : Prop where
  hardware : ∀ c, P (.hardware c)
  datagram : ∀ g, P (.datagram g)
  event : ∀ j e, P (.sent j (.event e))

/-- Every output is chatter. -/
theorem chatter_output : Chatter fun o => o.output = true :=
  ⟨fun _ => rfl, fun _ => rfl, fun _ _ => rfl⟩

section
variable {P : Obs → Prop} {i : SessId} {d d₁ d₂ : Daemon}

/-- What is observed in a first part is observed in the whole. -/
theorem Observed.trans {o : Obs} (h : Observed d d₁ o) (h' : Emits P d₁ d₂) : Observed d d₂ o := by
  obtain ⟨new, hnew, ho⟩ := h
  obtain ⟨new', hnew', -⟩ := h'
  exact ⟨new' ++ new, by rw [hnew', hnew, List.append_assoc], List.mem_append_right _ ho⟩

/-- What is said on the way has the property. -/
theorem Emits.observed {o : Obs} (h : Emits P d d₁) (ho : Observed d d₁ o) : P o := by
  obtain ⟨new, hnew, hP⟩ := h
  obtain ⟨new', hnew', hmem⟩ := ho
  obtain rfl : new' = new := List.append_cancel_right (hnew'.symm.trans hnew)
  exact hP o hmem

/-- A change that leaves the trace as it is. -/
theorem Emits.of_eq (h : d₁.trace = d.trace) : Emits P d d₁ := ⟨[], h, by simp⟩

/-- What is said satisfies whatever follows. -/
theorem Emits.mono {Q : Obs → Prop} (h : Emits P d d₁) (hPQ : ∀ o, P o → Q o) : Emits Q d d₁ := by
  obtain ⟨new, hnew, hP⟩ := h
  exact ⟨new, hnew, fun o ho => hPQ o (hP o ho)⟩

/-- Two changes, one after the other. -/
theorem Emits.trans (h : Emits P d d₁) (h' : Emits P d₁ d₂) : Emits P d d₂ := by
  obtain ⟨new, hnew, hout⟩ := h
  obtain ⟨new', hnew', hout'⟩ := h'
  refine ⟨new' ++ new, by rw [hnew', hnew, List.append_assoc], fun o ho => ?_⟩
  rcases List.mem_append.mp ho with ho | ho
  · exact hout' o ho
  · exact hout o ho

/-- The record of a session is not observed. -/
theorem Emits.modify (i : SessId) (f : Session → Session) (d : Daemon) :
    Emits P d (d.modify i f) :=
  Emits.of_eq rfl

/-- Observations. -/
theorem Emits.log {os : List Obs} (h : ∀ o ∈ os, P o) (d : Daemon) : Emits P d (d.log os) :=
  ⟨os, rfl, h⟩

/-- One observation, under a condition. -/
theorem forall_mem_ite {c : Prop} [Decidable c] {o : Obs} (ho : P o) :
    ∀ x ∈ (if c then [o] else []), P x := by
  intro x hx
  split_ifs at hx
  · rwa [List.mem_singleton.mp hx]
  · cases hx

/-- One observation for each member of a list. -/
theorem forall_mem_map_obs {α : Type} {f : α → Obs} (hf : ∀ a, P (f a)) (l : List α) :
    ∀ x ∈ l.map f, P x := by
  intro x hx
  obtain ⟨a, -, rfl⟩ := List.mem_map.mp hx
  exact hf a

/-- A frame. -/
theorem Emits.send {f : Frame} (hf : P (.sent i f)) (d : Daemon) : Emits P d (d.send i f) :=
  Emits.log (forall_mem_ite hf) d

/-- A nonce is made. -/
theorem Emits.makeNonce {os : List GetRandom} {made : Bool} (hP : ∀ n, P (.nonce i n))
    (h : d.makeNonce os i = some (made, d₁)) : Emits P d d₁ := by
  obtain ⟨raw, -, rfl⟩ := makeNonce_eq h
  refine (Emits.modify ..).trans (Emits.log (fun o ho => ?_) _)
  rw [List.mem_singleton.mp ho]
  exact hP _

/-- A response is checked. -/
theorem Emits.checkResponse {opts : Options} {method keyId response : CStr} {ok : Bool}
    (hP : ∀ a ok, P (.verify i a ok)) (h : d.checkResponse opts i method keyId response = (ok, d₁)) :
    Emits P d d₁ := by
  obtain ⟨-, rfl⟩ := Prod.mk.inj h
  exact Emits.log (forall_mem_ite (hP _ _)) d

/-- A claim is silent. -/
theorem Emits.rxClaim (h : d.rxClaim i = (true, d₁)) : Emits P d d₁ := by
  obtain ⟨-, rfl⟩ := rxClaim_eq h
  exact Emits.of_eq rfl

/-- What a session's operation can be observed by. -/
def Op.Observes (i : SessId) : {β : Type} → Op β → Obs → Prop
  | _, .send f, x => x = .sent i f
  | _, .broadcast _ e, x => ∃ j, x = .sent j (.event e)
  | _, .makeNonce, x => ∃ n, x = .nonce i n
  | _, .checkResponse _ _ _, x => ∃ a ok, x = .verify i a ok
  | _, .freeSession, x => x = .closed i
  | _, .set _, x | _, .bridgeStart, x | _, .bridgeStopLocked, x => ∃ c, x = .hardware c
  | _, .vitaSessionAdd _, x | _, .vitaSessionRemove _, x | _, .vitaUpdatePayloadFormat _, x
  | _, .vitaSendContextAll, x => ∃ g, x = .datagram g
  | _, _, _ => False

/-- An operation is observed by nothing else. -/
theorem exec_observes {opts : Options} {env : Env} {m : Msg} {d' : Daemon} {β : Type} {o : Op β}
    {b : β} (h : exec opts env m i β o d = some (b, d')) : Emits (o.Observes i) d d' := by
  by_cases hreads : o.Reads
  · rw [exec_reads hreads h]
    exact .of_eq rfl
  cases o with
  | send f =>
    cases h
    refine .send ?_ d
    rfl
  | broadcast =>
    cases h
    exact .log (forall_mem_map_obs (fun j => ⟨j, rfl⟩) _) d
  | makeNonce => exact .makeNonce (fun n => ⟨n, rfl⟩) h
  | checkResponse =>
    cases h
    exact .log (forall_mem_ite ⟨_, _, rfl⟩) d
  | freeSession =>
    cases h
    refine (Emits.modify ..).trans (.log (List.forall_mem_singleton.mpr ?_) _)
    rfl
  | rxClaim =>
    obtain rfl : (d.rxClaim i).2 = d' := congrArg Prod.snd (Option.some.inj h)
    unfold Daemon.rxClaim
    split_ifs
    · exact .of_eq rfl
    · exact .of_eq rfl
  | set =>
    cases h
    exact ⟨_, rfl, forall_mem_map_obs (fun c => ⟨c, rfl⟩) _⟩
  | vitaSessionAdd | vitaSessionRemove | vitaUpdatePayloadFormat | vitaSendContextAll =>
    cases h
    exact ⟨_, rfl, forall_mem_map_obs (fun g => ⟨g, rfl⟩) _⟩
  | bridgeStart | bridgeStopLocked =>
    cases h
    exact ⟨_, rfl, forall_mem_ite ⟨_, rfl⟩⟩
  | modify | rxReleaseLocked | allocStreamId | pthreadJoin | resetAdcLevel =>
    cases h
    exact .of_eq rfl
  | _ => exact absurd trivial hreads

namespace Chatter

variable (hP : Chatter P)
include hP

/-- An event to the sessions. -/
theorem broadcast (skip : Option SessId) (e : Event) (d : Daemon) :
    Emits P d (d.broadcast skip e) :=
  Emits.log (forall_mem_map_obs (fun j => hP.event j e) _) d

/-- A setter and its call of the device. -/
theorem set (dev : Device) {β : Type} (x : Setting β) (d : Daemon) : Emits P d (d.set dev x).2 :=
  ⟨_, rfl, forall_mem_map_obs hP.hardware _⟩

/-- The table of streams and the packets that are sent. -/
theorem vitaApply (o : VitaOp) (d : Daemon) : Emits P d (d.vitaApply o) :=
  ⟨_, rfl, forall_mem_map_obs hP.datagram _⟩

/-- The reader is started. -/
theorem bridgeStart {created ok : Bool} (h : d.bridgeStart created = (ok, d₁)) : Emits P d d₁ := by
  obtain ⟨-, rfl⟩ := Prod.mk.inj h
  exact ⟨_, rfl, forall_mem_ite (hP.hardware _)⟩

/-- The reader is stopped. -/
theorem stopReading (d : Daemon) : Emits P d d.stopReading :=
  ⟨_, rfl, forall_mem_ite (hP.hardware _)⟩

/-- A stream is taken out of the table. -/
theorem removeVita (i : SessId) (d : Daemon) : Emits P d (d.removeVita i) := by
  unfold Daemon.removeVita
  split_ifs
  · exact (hP.vitaApply ..).trans (Emits.modify ..)
  · exact Emits.of_eq rfl

/-- The release of the channel tells the others. -/
theorem rxRelease (i : SessId) (d : Daemon) : Emits P d (d.rxRelease i) := by
  obtain ⟨js, -, hd⟩ := rxRelease_eq i d
  rw [hd]
  exact ⟨_, rfl, forall_mem_map_obs (fun j => hP.event j _) _⟩

/-- The end of a stream. -/
theorem endStream (i : SessId) (d : Daemon) : Emits P d (d.endStream i) := by
  unfold Daemon.endStream
  split_ifs
  · exact ((hP.removeVita i d).trans (hP.stopReading _)).trans (hP.broadcast ..)
  · exact hP.removeVita i d

/-- The supply of the antenna is switched off. -/
theorem biasTeeFallback (opts : Options) (dev : Device) (d : Daemon) :
    Emits P d (d.biasTeeFallback opts dev) := by
  unfold Daemon.biasTeeFallback
  split_ifs
  · exact hP.set ..
  · exact Emits.of_eq rfl

/-- Another frequency. -/
theorem moveFrequency (dev : Device) (freqHz : ℕ) (d : Daemon) :
    Emits P d (d.moveFrequency dev freqHz) := by
  unfold Daemon.moveFrequency
  split_ifs
  · exact (hP.set ..).trans (hP.broadcast ..)
  · exact hP.set ..

/-- Another rate. -/
theorem moveSampleRate (dev : Device) (rateSps : ℕ) (d : Daemon) :
    Emits P d (d.moveSampleRate dev rateSps) := by
  unfold Daemon.moveSampleRate
  split_ifs
  · exact (hP.set ..).trans (hP.broadcast ..)
  · exact hP.set ..

/-- The frequency, the rate and the format follow the mode. -/
theorem applyModeChangeSideEffects (dev : Device) (d : Daemon) :
    Emits P d (d.applyModeChangeSideEffects dev) := by
  have hretune : Emits P d (d.retuneForMode dev) := by
    unfold Daemon.retuneForMode
    by_cases h : d.radio.freqHz < rtlFreqMin d.radio.samplingMode ∨
        rtlFreqMax d.radio.samplingMode < d.radio.freqHz
    · rw [if_pos h]
      exact hP.moveFrequency ..
    · rw [if_neg h]
      exact Emits.of_eq rfl
  have hresample : ∀ d₁ : Daemon, Emits P d₁ (d₁.resampleForMode dev) := by
    intro d₁
    unfold Daemon.resampleForMode
    by_cases h : d₁.radio.rateRequestedSps ∉ rtlRateList d₁.radio.samplingMode
    · rw [if_pos h]
      exact hP.moveSampleRate ..
    · rw [if_neg h]
      exact Emits.of_eq rfl
  exact (hretune.trans (hresample _)).trans ((hP.vitaApply ..).trans (hP.vitaApply ..))

end Chatter

end

/-- The device does not do what a setter asks it for. -/
def Setting.Fails {β : Type} (dev : Device) : Setting β → Prop
  | .frequency freqHz => dev.centerFreq freqHz.toUInt32 = 0
  | .sampleRate rateSps => dev.sampleRate rateSps.toUInt32 = 0
  | .biasTee _ => dev.setBiasTee ≠ 0
  | .directSampling _ => dev.setDirectSampling ≠ 0
  | _ => False

/-- The command that uses a setter on the client's behalf. -/
def Setting.command {β : Type} : Setting β → Command
  | .frequency _ => .setFrequency
  | .sampleRate _ => .setSampleRate
  | _ => .setControl

/-- A stream command that has got past its checks and fails all the same. -/
inductive StreamFailed (env : Env) (i : SessId) (d : Daemon) : Command → Daemon → Prop where
  | refused (hopen : (d.sessions i).streamOpen = false) (d₁ : Daemon)
      (hclaim : d.rxClaim i = (true, d₁)) (f : Frame) :
      StreamFailed env i d .openStream ((d₁.rxRelease i).send i f)
  | startBusy (p : StreamParams) (htoken : (vitaSessionAdd p d.vita).1 < 0) (id message : CStr)
      (hstate : (d.sessions i).state ≠ .streaming) :
      StreamFailed env i d .startRx (((d.vitaApply (.add p)).modify i
        (Session.setToken (vitaSessionAdd p d.vita).1)).send i (.error id .busy message))
  | startFailed (p : StreamParams) (htoken : 0 ≤ (vitaSessionAdd p d.vita).1) (d₁ : Daemon)
      (hstart : ((d.vitaApply (.add p)).modify i
        (Session.setToken (vitaSessionAdd p d.vita).1)).bridgeStart env.pthreadCreate =
          (false, d₁)) (id message : CStr) (hstate : (d.sessions i).state ≠ .streaming) :
      StreamFailed env i d .startRx (((d₁.vitaApply (.remove (vitaSessionAdd p d.vita).1)).modify i
        (Session.setToken (-1))).send i (.error id .deviceError message))

section
variable {P : Obs → Prop} {opts : Options} {env : Env} {m : Msg} {i : SessId} {d d' : Daemon}
  {c : Command}

/-- What `hello` and `authenticate` say, and what is noted of the nonces on the way. -/
theorem AuthOutcome.emits (h : AuthOutcome opts env m i d c d') (hnonce : ∀ n, P (.nonce i n))
    (hverify : ∀ a ok, P (.verify i a ok)) (hok : ∀ id r, (∀ o, r ≠ .opened o) → P (.sent i (.ok id r)))
    (hfailed : ∀ id hex, P (.sent i (.authFailed id hex))) : Emits P d d' := by
  cases h with
  | hello =>
    exact (Emits.modify ..).trans (Emits.send (hok _ _ fun _ => Result.noConfusion) _)
  | challenged _ _ name id hex made d₁ hmade =>
    exact (((Emits.modify ..).trans (Emits.makeNonce hnonce hmade)).trans (Emits.modify ..)).trans
      (Emits.send (hok _ _ fun _ => Result.noConfusion) _)
  | unlocked _ _ _ _ _ _ d₁ hchecked =>
    exact (((Emits.modify ..).trans (Emits.checkResponse hverify hchecked)).trans (Emits.modify ..)).trans
      (Emits.send (hok _ _ fun _ => Result.noConfusion) _)
  | rejected _ _ _ _ _ _ hex made d₁ d₂ hchecked hmade =>
    exact ((((((Emits.modify ..).trans (Emits.checkResponse hverify hchecked)).trans
      (Emits.modify ..)).trans (Emits.makeNonce hnonce hmade)).trans (Emits.modify ..)).trans
      (Emits.send (hfailed ..) _)).trans (Emits.modify ..)

/-- What a request that sets the receiver says: a good reply, or an error if the device fails. -/
theorem ConfigOutcome.emits (h : ConfigOutcome opts env m i d c d') (hP : Chatter P)
    (hok : ∀ id r, (∀ o, r ≠ .opened o) → P (.sent i (.ok id r)))
    (hfailed : ∀ (β : Type) (x : Setting β) (id : CStr) (code : ErrorCode) (message : CStr),
      x.Fails env.device → x.command = c →
      d' = (d.set env.device x).2.send i (.error id code message) →
      P (.sent i (.error id code message))) : Emits P d d' := by
  cases h with
  -- the reply, and then the notice to the others
  | frequency | sampleRate =>
    exact ((hP.set ..).trans (Emits.send (hok _ _ fun _ => Result.noConfusion) _)).trans
      (hP.broadcast ..)
  -- a setting that the device refuses is answered with an error only
  | frequencyFailed freq id message happlied =>
    refine (hP.set ..).trans (Emits.send (hfailed _ (.frequency freq) id _ message ?_ rfl rfl) _)
    exact UInt32.toNat_inj.mp happlied
  | sampleRateFailed rate id message _ happlied =>
    refine (hP.set ..).trans (Emits.send (hfailed _ (.sampleRate rate) id _ message ?_ rfl rfl) _)
    exact UInt32.toNat_inj.mp happlied
  | biasTeeFailed en id message hrc =>
    exact (hP.set ..).trans (Emits.send (hfailed _ (.biasTee en) id _ message hrc rfl rfl) _)
  | directSamplingFailed mode id message hrc =>
    exact (hP.set ..).trans
      (Emits.send (hfailed _ (.directSampling mode) id _ message hrc rfl rfl) _)
  | rfGain _ _ _ _ d₁ hd₁ | agc _ _ d₁ hd₁ =>
    subst hd₁
    exact ((hP.set ..).trans (Emits.send (hok _ _ fun _ => Result.noConfusion) _)).trans
      ((hP.vitaApply ..).trans (hP.broadcast ..))
  | ppm _ _ d₁ hd₁ =>
    subst hd₁
    exact ((hP.set ..).trans (Emits.send (hok _ _ fun _ => Result.noConfusion) _)).trans
      (hP.broadcast ..)
  | biasTee en _ d₁ hd₁ =>
    obtain ⟨-, rfl⟩ := Prod.mk.inj hd₁
    exact ((hP.set ..).trans (Emits.send (hok _ _ fun _ => Result.noConfusion) _)).trans
      (hP.broadcast ..)
  -- a change of the mode retunes the receiver, which is announced as well
  | directSampling mode _ _ _ d₁ hd₁ =>
    obtain ⟨-, rfl⟩ := Prod.mk.inj hd₁
    exact ((((hP.set ..).trans (Emits.send (hok _ _ fun _ => Result.noConfusion) _)).trans
      (hP.broadcast ..)).trans (hP.applyModeChangeSideEffects ..)).trans (hP.broadcast ..)

/-- What a stream command says: a good reply, or an error if it fails. -/
theorem StreamOutcome.emits (h : StreamOutcome env m i d c d') (hP : Chatter P)
    (hok : ∀ id r, (∀ o, r = .opened o → o.Describes d.radio) → P (.sent i (.ok id r)))
    (hfailed : ∀ id code message, StreamFailed env i d c d' →
      P (.sent i (.error id code message))) : Emits P d d' := by
  cases h with
  -- a claim that is given back, and the error
  | refused hopen d₁ hclaim =>
    exact ((Emits.rxClaim hclaim).trans (hP.rxRelease i d₁)).trans
      (Emits.send (hfailed _ _ _ (.refused hopen d₁ hclaim _)) _)
  | opened _ d₁ hclaim addr port id o ho =>
    have halloc : Emits P d₁ d₁.allocStreamId.2 := Emits.of_eq rfl
    have htold : P (.sent i (.ok id (.opened o))) := hok _ _ fun _ hsame => Result.opened.inj hsame ▸ ho
    exact ((((Emits.rxClaim hclaim).trans halloc).trans (Emits.modify ..)).trans
      (Emits.send htold _)).trans (hP.broadcast ..)
  -- each failure undoes what the start has done up to there
  | startBusy _ hstate p htoken id message =>
    exact ((hP.vitaApply (.add p) d).trans (Emits.modify ..)).trans
      (Emits.send (hfailed _ _ _ (.startBusy p htoken id message hstate)) _)
  | startFailed _ hstate p htoken d₁ hstart id message =>
    exact (((((hP.vitaApply (.add p) d).trans (Emits.modify ..)).trans
      (hP.bridgeStart hstart)).trans (hP.vitaApply ..)).trans (Emits.modify ..)).trans
      (Emits.send (hfailed _ _ _ (.startFailed p htoken d₁ hstart id message hstate)) _)
  | started _ _ p _ _ d₁ hstart =>
    exact (((((hP.vitaApply (.add p) d).trans (Emits.modify ..)).trans
      (hP.bridgeStart hstart)).trans (Emits.modify ..)).trans
      (Emits.send (hok _ _ fun _ => Result.noConfusion) _)).trans (Emits.send (hP.event ..) _)
  -- the stream ends with the reply, and its owner is told once more
  | stopped =>
    exact ((((hP.removeVita i d).trans (hP.stopReading _)).trans (Emits.modify ..)).trans
      (Emits.send (hok _ _ fun _ => Result.noConfusion) _)).trans (Emits.send (hP.event ..) _)
  | closed =>
    exact (((hP.removeVita i d).trans (Emits.modify ..)).trans (hP.rxRelease i _)).trans
      (Emits.send (hok _ _ fun _ => Result.noConfusion) _)
  | closedStreaming =>
    exact (((((hP.removeVita i d).trans (hP.stopReading _)).trans (Emits.modify ..)).trans
      (hP.rxRelease i _)).trans (Emits.send (hok _ _ fun _ => Result.noConfusion) _)).trans
      (Emits.send (hP.event ..) _)

/-- A request that sets the receiver only causes outputs. -/
theorem ConfigOutcome.outputs (h : ConfigOutcome opts env m i d c d') : Outputs d d' :=
  h.emits chatter_output (fun _ _ _ => rfl) fun _ _ _ _ _ _ _ _ => rfl

/-- A stream command only causes outputs. -/
theorem StreamOutcome.outputs (h : StreamOutcome env m i d c d') : Outputs d d' :=
  h.emits chatter_output (fun _ _ _ => rfl) fun _ _ _ _ => rfl

/-- A USB buffer is no request, and so there is no reply to it. -/
theorem Chatter.rtlCallback (hP : Chatter P) (buf : List UInt8) (nowMs : UInt64) (d : Daemon) :
    Emits P d (d.rtlCallback buf nowMs) := by
  unfold Daemon.rtlCallback
  split_ifs
  · rcases measureAdcLevel buf nowMs d.adc with ⟨_ | level, adc⟩
    · have hadc : Emits P d { d with adc := adc } := Emits.of_eq rfl
      exact hadc.trans (hP.vitaApply ..)
    · have hadc : Emits P d { d with adc := adc } := Emits.of_eq rfl
      exact (hadc.trans (hP.broadcast ..)).trans (hP.vitaApply ..)
  · exact Emits.of_eq rfl

/-- A USB buffer only causes outputs. -/
theorem rtlCallback_outputs (buf : List UInt8) (nowMs : UInt64) (d : Daemon) :
    Outputs d (d.rtlCallback buf nowMs) :=
  chatter_output.rtlCallback buf nowMs d

/-- The end of a session: outputs, and then the slot is free. -/
theorem destroy_trace (opts : Options) (dev : Device) (i : SessId) (d : Daemon) :
    ∃ d₁, Outputs d d₁ ∧ (d.destroy opts dev i).trace = .closed i :: d₁.trace :=
  ⟨((d.endStream i).rxRelease i).biasTeeFallback opts dev,
    ((chatter_output.endStream i d).trans (chatter_output.rxRelease i _)).trans
      (chatter_output.biasTeeFallback opts dev _), rfl⟩

end

end SlcRtld.Control
