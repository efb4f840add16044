import SlcRtld.Property.Unlock

/-!
# The authentication gate

A session that has not authenticated leaves no trace in what the others see. `SameButFor L` relates
two states of the daemon that differ in nothing but what concerns the client of session `L` alone.
Every operation that another session's thread performs keeps the relation, with the same answer
(`exec_same`), so the same request, the same end of a connection and the same USB buffer do; and a
request of `L` itself, while it is locked, leads from a state to a related one. A run therefore
reaches the same state, but for `L`, when the requests of `L` are left out
(`gate_noninterference`).

All sessions receive into one buffer, and `tok_find_key` goes past the last token of a malformed
message, to tokens that an earlier message of the session has left on its stack. Such a token may
point behind the message, at what remains there of another session's. A request is `Contained` when
it is handled within its own bytes and tokens; the result is about runs where the requests of the
other sessions are.
-/

namespace SlcRtld.Property

open Control Effect Json
open Effect.Prog (perform Post)

/-! ## What a session's client alone can see -/

/-- Whether an observation is about a session. -/
instance (i : SessId) : DecidablePred (Obs.about i)
  | .sent j _ | .nonce j _ | .verify j _ _ => inferInstanceAs (Decidable (j = i))
  | .connected _ | .closed _ | .hardware _ | .datagram _ => isFalse id

/-- The observations that are not about session `L` alone. -/
def besides (L : SessId) (os : List Obs) : List Obs := os.filter fun o => ¬ o.about L

/-- What is left of a trace, part by part. -/
theorem besides_append (L : SessId) (os os' : List Obs) :
    besides L (os ++ os') = besides L os ++ besides L os' :=
  List.filter_append ..

/-- Nothing is left of what is about the session. -/
theorem besides_of_about {L : SessId} {os : List Obs} (h : ∀ o ∈ os, o.about L) :
    besides L os = [] :=
  List.filter_eq_nil_iff.mpr fun o ho => by simpa using h o ho

/-- Events are sent to the other sessions in the same order, whoever else is told. -/
theorem besides_events {L : SessId} (l : List SessId) (f : Frame) :
    besides L (l.map fun j => .sent j f) = (l.filter fun j => j ≠ L).map fun j => .sent j f := by
  rw [besides, List.filter_map]
  rfl

/-- Two states that agree on everything but what concerns session `L` alone. The connection of `L`
is open in both or in neither, and `L` is not streaming. -/
structure SameButFor (L : SessId) (d d' : Daemon) : Prop where
  others : ∀ j, j ≠ L → d'.sessions j = d.sessions j
  fd : (d'.sessions L).fd = (d.sessions L).fd
  silent : (d.sessions L).state ≠ .streaming
  silent' : (d'.sessions L).state ≠ .streaming
  rxOwner : d'.rxOwner = d.rxOwner
  streamCounter : d'.streamCounter = d.streamCounter
  radio : d'.radio = d.radio
  bridge : d'.bridge = d.bridge
  adc : d'.adc = d.adc
  vita : d'.vita = d.vita
  tokens : ∀ j, j ≠ L → d'.tokens j = d.tokens j
  trace : besides L d'.trace = besides L d.trace

namespace SameButFor

variable {L i : SessId} {d d' d₁ : Daemon}

/-- A daemon is the same as itself, as long as the session does not stream. -/
theorem refl (h : (d.sessions L).state ≠ .streaming) : SameButFor L d d where
  others := fun _ _ => rfl
  fd := rfl
  silent := h
  silent' := h
  rxOwner := rfl
  streamCounter := rfl
  radio := rfl
  bridge := rfl
  adc := rfl
  vita := rfl
  tokens := fun _ _ => rfl
  trace := rfl

/-- Observations that are the same but for the session's. -/
theorem log (h : SameButFor L d d') {os os' : List Obs} (hos : besides L os' = besides L os) :
    SameButFor L (d.log os) (d'.log os') :=
  { h with
    trace := by
      show besides L (os' ++ d'.trace) = besides L (os ++ d.trace)
      rw [besides_append, besides_append, hos, h.trace] }

/-- A change to the record of another session. -/
theorem modify (h : SameButFor L d d') (hi : i ≠ L) (f : Session → Session) :
    SameButFor L (d.modify i f) (d'.modify i f) :=
  { h with
    others := by
      intro j hj
      by_cases hji : j = i
      · subst hji
        rw [Daemon.modify_self, Daemon.modify_self, h.others j hj]
      · rw [Daemon.modify_of_ne hji, Daemon.modify_of_ne hji, h.others j hj]
    fd := by rw [Daemon.modify_of_ne hi.symm, Daemon.modify_of_ne hi.symm, h.fd]
    silent := by
      rw [Daemon.modify_of_ne hi.symm]
      exact h.silent
    silent' := by
      rw [Daemon.modify_of_ne hi.symm]
      exact h.silent' }

/-- A frame to another session. -/
theorem send (h : SameButFor L d d') (hi : i ≠ L) (f : Frame) :
    SameButFor L (d.send i f) (d'.send i f) := by
  unfold Daemon.send
  rw [h.others i hi]
  exact h.log rfl

/-- The same sessions are told of an event, `L` apart. -/
theorem broadcast (h : SameButFor L d d') (skip : Option SessId) (e : Event) :
    SameButFor L (d.broadcast skip e) (d'.broadcast skip e) := by
  refine h.log ?_
  rw [besides_events, besides_events, List.filter_reverse, List.filter_reverse,
    Daemon.listeners, Daemon.listeners, List.filter_filter, List.filter_filter]
  congr 2
  refine List.filter_congr fun j _ => ?_
  by_cases hj : j = L
  · simp [hj]
  · rw [h.others j hj]

/-- The table of streams. -/
theorem vitaApply (h : SameButFor L d d') (o : Vita.VitaOp) :
    SameButFor L (d.vitaApply o) (d'.vitaApply o) := by
  unfold Daemon.vitaApply
  rw [h.vita]
  refine SameButFor.log ?_ rfl
  exact { h with vita := rfl }

/-- A setter has the same effect, and returns the same. -/
theorem set (h : SameButFor L d d') (dev : Rtl.Device) {β : Type} (x : Setting β) :
    (d'.set dev x).1 = (d.set dev x).1 ∧ SameButFor L (d.set dev x).2 (d'.set dev x).2 := by
  unfold Daemon.set
  rw [h.radio]
  refine ⟨rfl, SameButFor.log ?_ rfl⟩
  exact { h with radio := rfl }

/-- A claim of another session succeeds in both, or in neither. -/
theorem rxClaim (h : SameButFor L d d') (hi : i ≠ L) :
    (d'.rxClaim i).1 = (d.rxClaim i).1 ∧ SameButFor L (d.rxClaim i).2 (d'.rxClaim i).2 := by
  unfold Daemon.rxClaim
  rw [h.rxOwner]
  split_ifs
  · refine ⟨rfl, SameButFor.modify ?_ hi _⟩
    exact { h with rxOwner := rfl }
  · exact ⟨rfl, h⟩

/-- A release of another session frees the channel in both, or in neither. -/
theorem rxReleaseLocked (h : SameButFor L d d') (hi : i ≠ L) :
    (d'.rxReleaseLocked i).1 = (d.rxReleaseLocked i).1 ∧
      SameButFor L (d.rxReleaseLocked i).2 (d'.rxReleaseLocked i).2 := by
  unfold Daemon.rxReleaseLocked
  rw [h.rxOwner]
  refine ⟨rfl, SameButFor.modify ?_ hi _⟩
  exact { h with rxOwner := rfl }

/-- The reader is started in both, or in neither. -/
theorem bridgeStart (h : SameButFor L d d') (created : Bool) :
    (d'.bridgeStart created).1 = (d.bridgeStart created).1 ∧
      SameButFor L (d.bridgeStart created).2 (d'.bridgeStart created).2 := by
  unfold Daemon.bridgeStart
  rw [h.bridge, h.adc]
  refine ⟨rfl, SameButFor.log ?_ rfl⟩
  exact { h with bridge := rfl, adc := rfl }

/-- The reader is stopped in both, or in neither. -/
theorem bridgeStopLocked (h : SameButFor L d d') :
    d'.bridgeStopLocked.1 = d.bridgeStopLocked.1 ∧
      SameButFor L d.bridgeStopLocked.2 d'.bridgeStopLocked.2 := by
  unfold Daemon.bridgeStopLocked
  rw [h.bridge]
  refine ⟨rfl, SameButFor.log ?_ rfl⟩
  exact { h with bridge := rfl }

/-- A nonce of another session is made in both, or in neither. -/
theorem makeNonce (h : SameButFor L d d') (hi : i ≠ L) {os : List Auth.GetRandom} {made : Bool}
    (hmade : d.makeNonce os i = some (made, d₁)) :
    ∃ d₁', d'.makeNonce os i = some (made, d₁') ∧ SameButFor L d₁ d₁' := by
  obtain ⟨⟨b, raw⟩, hraw, hpair⟩ := Option.map_eq_some_iff.mp hmade
  obtain ⟨rfl, rfl⟩ := Prod.mk.inj hpair
  refine ⟨_, ?_, (h.modify hi _).log rfl⟩
  unfold Daemon.makeNonce
  rw [h.others i hi, hraw]
  rfl

end SameButFor

/-! ## The other sessions' steps -/

section
variable {L i : SessId} {opts : Options} {env : Env} {m m' : Msg} {d d' : Daemon}

/-- An operation that cannot fail does the same in both states if its answers and its ends agree. -/
theorem same_of_some {β : Type} {o : Op β} {r r' : β × Daemon} {b : β} {d₁ : Daemon}
    (ho : exec opts env m i β o d = some (b, d₁)) (hr : exec opts env m i β o d = some r)
    (hr' : exec opts env m i β o d' = some r') (hanswer : r'.1 = r.1)
    (hend : SameButFor L r.2 r'.2) :
    ∃ d₁', exec opts env m i β o d' = some (b, d₁') ∧ SameButFor L d₁ d₁' := by
  obtain rfl := Option.some.inj (hr.symm.trans ho)
  exact ⟨r'.2, hr'.trans (congrArg some (Prod.ext hanswer rfl)), hend⟩

/-- An operation of another session's thread does the same in both states, with the same answer. -/
theorem exec_same (hi : i ≠ L) (h : SameButFor L d d') {β : Type} {o : Op β} {b : β} {d₁ : Daemon}
    (ho : exec opts env m i β o d = some (b, d₁)) :
    ∃ d₁', exec opts env m i β o d' = some (b, d₁') ∧ SameButFor L d₁ d₁' := by
  have hself := h.others i hi
  cases o with
  -- what is read of the message is the same for both
  | tokFindKey | tokEq | tokStr | tokType | tokIsPrimitive | offeredVersions =>
    obtain ⟨_, hanswer, hpair⟩ := Option.map_eq_some_iff.mp ho
    cases hpair
    exact ⟨d', Option.map_eq_some_iff.mpr ⟨_, hanswer, rfl⟩, h⟩
  | monoNs | utcNow | sensors | srcIp => exact same_of_some ho rfl rfl rfl h
  | self => exact same_of_some ho rfl rfl hself h
  | radio => exact same_of_some ho rfl rfl h.radio h
  | adcLevel | adcOverload => exact same_of_some ho rfl rfl (by rw [h.adc]) h
  -- the owner is the same, and it is not the locked session that asks
  | rxOwnedByOther =>
    exact same_of_some ho rfl rfl (by simp only [Daemon.rxOwnedByOther, h.rxOwner]) h
  | rxControlState =>
    exact same_of_some ho rfl rfl (by simp only [Daemon.rxControlState, h.rxOwner]) h
  | send f => exact same_of_some ho rfl rfl rfl (h.send hi f)
  | broadcast skipSelf e => exact same_of_some ho rfl rfl rfl (h.broadcast _ e)
  | modify f => exact same_of_some ho rfl rfl rfl (h.modify hi f)
  | makeNonce => exact h.makeNonce hi ho
  | checkResponse method keyId response =>
    refine same_of_some ho rfl rfl ?_ ?_
    · simp only [Daemon.checkResponse, hself]
    · unfold Daemon.checkResponse
      rw [hself]
      exact h.log rfl
  | freeSession => exact same_of_some ho rfl rfl rfl ((h.modify hi _).log rfl)
  | rxClaim => exact same_of_some ho rfl rfl (h.rxClaim hi).1 (h.rxClaim hi).2
  | rxReleaseLocked =>
    exact same_of_some ho rfl rfl (h.rxReleaseLocked hi).1 (h.rxReleaseLocked hi).2
  | allocStreamId =>
    have hnext := congrArg (· + 1) h.streamCounter
    exact same_of_some ho rfl rfl hnext { h with streamCounter := hnext }
  | set x => exact same_of_some ho rfl rfl (h.set env.device x).1 (h.set env.device x).2
  -- the parameters of a stream come from the session's own record and from the receiver
  | vitaSessionAdd w =>
    have hparams : d'.streamParams env.time (d'.sessions i) w =
        d.streamParams env.time (d.sessions i) w := by
      unfold Daemon.streamParams
      rw [hself, h.radio]
    refine same_of_some ho rfl rfl ?_ ?_
    · rw [hparams, h.vita]
    · rw [hparams]
      exact h.vitaApply _
  | vitaSessionRemove token => exact same_of_some ho rfl rfl rfl (h.vitaApply _)
  | vitaUpdatePayloadFormat w => exact same_of_some ho rfl rfl rfl (h.vitaApply _)
  | vitaSendContextAll =>
    refine same_of_some ho rfl rfl rfl ?_
    rw [h.radio]
    exact h.vitaApply _
  | bridgeStart => exact same_of_some ho rfl rfl (h.bridgeStart _).1 (h.bridgeStart _).2
  | bridgeStopLocked => exact same_of_some ho rfl rfl h.bridgeStopLocked.1 h.bridgeStopLocked.2
  | pthreadJoin =>
    exact same_of_some ho rfl rfl rfl { h with bridge := congrArg Rtl.pthreadJoin h.bridge }
  | resetAdcLevel =>
    exact same_of_some ho rfl rfl rfl { h with adc := congrArg Rtl.rtlResetAdcLevel h.adc }

/-- A program of another session's thread does the same in both states. -/
theorem run_same (hi : i ≠ L) (h : SameButFor L d d') {α : Type} {p : Prog Op α} {a : α}
    {d₁ : Daemon} (hp : p.run (exec opts env m i) d = some (a, d₁)) :
    ∃ d₁', p.run (exec opts env m i) d' = some (a, d₁') ∧ SameButFor L d₁ d₁' :=
  Prog.run_sim (P := fun _ _ => True) (SameButFor L)
    (fun _ _ _ _ _ _ _ hsame ho => exec_same hi hsame ho) (Prog.uses_true p) h hp

/-- An operation that succeeds on part of the memory does the same on all of it. -/
theorem exec_le (hm : m.Le m') {β : Type} {o : Op β} {r : β × Daemon}
    (ho : exec opts env m i β o d = some r) : exec opts env m' i β o d = some r := by
  cases o with
  | tokFindKey =>
    obtain ⟨a, ha, rfl⟩ := Option.map_eq_some_iff.mp ho
    exact Option.map_eq_some_iff.mpr ⟨a, Msg.tokFindKey_le hm ha, rfl⟩
  | tokEq =>
    obtain ⟨a, ha, rfl⟩ := Option.map_eq_some_iff.mp ho
    exact Option.map_eq_some_iff.mpr ⟨a, Msg.tokEq_le hm ha, rfl⟩
  | tokStr =>
    obtain ⟨a, ha, rfl⟩ := Option.map_eq_some_iff.mp ho
    exact Option.map_eq_some_iff.mpr ⟨a, Msg.tokStr_le hm ha, rfl⟩
  | tokType =>
    obtain ⟨a, ha, rfl⟩ := Option.map_eq_some_iff.mp ho
    exact Option.map_eq_some_iff.mpr ⟨a, Msg.tokType_le hm ha, rfl⟩
  | tokIsPrimitive =>
    obtain ⟨a, ha, rfl⟩ := Option.map_eq_some_iff.mp ho
    exact Option.map_eq_some_iff.mpr ⟨a, Msg.tokIsPrimitive_le hm ha, rfl⟩
  | offeredVersions =>
    obtain ⟨a, ha, rfl⟩ := Option.map_eq_some_iff.mp ho
    exact Option.map_eq_some_iff.mpr ⟨a, Msg.offeredVersions_le hm ha, rfl⟩
  | _ => exact ho

/-- A program that is done within part of the memory does the same on all of it. -/
theorem run_le (hm : m.Le m') {α : Type} {p : Prog Op α} {r : α × Daemon}
    (hp : p.run (exec opts env m i) d = some r) : p.run (exec opts env m' i) d = some r := by
  obtain ⟨d₁, hd₁, rfl⟩ : ∃ d₁, p.run (exec opts env m' i) d = some (r.1, d₁) ∧ d₁ = r.2 :=
    Prog.run_sim (P := fun _ _ => True) (fun s t => t = s)
      (fun _ _ _ _ _ s' _ heq ho => ⟨s', heq ▸ exec_le hm ho, rfl⟩) (Prog.uses_true p) rfl hp
  exact hd₁

end

/-! ## Requests that stay within their own message -/

/-- A message as its own frame gives it: the bytes of the frame with their NUL, and the tokens that
`jsmn_parse` has found. -/
def ownMessage (i : SessId) (frame : List UInt8) (d : Daemon) : Msg where
  js := fun pos => if 0 ≤ pos then (frame ++ [0])[pos.toNat]? else none
  toks := (jsmnParse frame (d.tokens i)).2.take (jsmnParse frame (d.tokens i)).1.toNat

/-- A request that is handled to its end within its own message. -/
def Contained (opts : Options) (i : SessId) (frame : List UInt8) (env : Env) (d : Daemon) : Prop :=
  ((sessionRound opts (jsmnParse frame (d.tokens i)).1).run
    (exec opts env (ownMessage i frame d) i) (d.tokenise i frame)).isSome = true

/-- Whether a request stays within its message can be computed. -/
instance (opts : Options) (i : SessId) (frame : List UInt8) (env : Env) (d : Daemon) :
    Decidable (Contained opts i frame env d) :=
  inferInstanceAs (Decidable (_ = _))

section
variable {L i : SessId} {opts : Options} {env : Env} {frame : List UInt8} {d d' d₁ : Daemon}

/-- A session's own message is part of what its thread reads. -/
theorem ownMessage_le (hlen : frame.length ≤ maxMsgBytes) :
    (ownMessage i frame d).Le (d.received i frame env) where
  js := by
    intro pos b hb
    have hpos : 0 ≤ pos := by
      by_contra hneg
      simp [ownMessage, hneg] at hb
    simp only [ownMessage, hpos, if_true] at hb
    have hlt : pos.toNat < (frame ++ [0]).length := (List.getElem?_eq_some_iff.mp hb).1
    have hin : pos < maxMsgBytes + 1 := by
      rw [List.length_append, List.length_singleton] at hlt
      omega
    show (if 0 ≤ pos ∧ pos < maxMsgBytes + 1 then
      some ((frame ++ [0] ++ d.msgBuf.drop (frame.length + 1)).getD pos.toNat 0)
      else env.outside pos) = some b
    rw [if_pos ⟨hpos, hin⟩, List.getD_eq_getElem?_getD, List.getElem?_append_left hlt, hb]
    rfl
  toks := by
    refine ⟨(jsmnParse frame (d.tokens i)).2.drop (jsmnParse frame (d.tokens i)).1.toNat ++
      env.stack, ?_⟩
    show Function.update d.tokens i (jsmnParse frame (d.tokens i)).2 i ++ env.stack = _
    rw [Function.update_self, ownMessage, ← List.append_assoc, List.take_append_drop]

/-- The tokens of a frame of another session. -/
theorem SameButFor.tokenise (h : SameButFor L d d') (frame : List UInt8) (hi : i ≠ L) :
    SameButFor L (d.tokenise i frame) (d'.tokenise i frame) :=
  { h with
    tokens := by
      intro j hj
      show Function.update d'.tokens i _ j = Function.update d.tokens i _ j
      by_cases hji : j = i
      · subst hji
        rw [Function.update_self, Function.update_self, h.tokens j hj]
      · rw [Function.update_of_ne hji, Function.update_of_ne hji, h.tokens j hj] }

/-- A contained request of another session does the same in both states. -/
theorem request_same (hi : i ≠ L) (h : SameButFor L d d') (hlen : frame.length ≤ maxMsgBytes)
    (hc : Contained opts i frame env d) (hreq : d.request opts i frame env = some d₁) :
    ∃ d₁', d'.request opts i frame env = some d₁' ∧ SameButFor L d₁ d₁' := by
  obtain ⟨⟨u, e⟩, hown⟩ := Option.isSome_iff_exists.mp hc
  obtain rfl : e = d₁ := by
    have hle : (ownMessage i frame d).Le (d.received i frame env) := ownMessage_le hlen
    have hfull := congrArg (Option.map Prod.snd) (run_le hle hown)
    exact Option.some.inj (hfull.symm.trans hreq)
  -- the message alone is the same in the other state, and enough there as well
  have hle : (ownMessage i frame d').Le (d'.received i frame env) := ownMessage_le hlen
  obtain ⟨e', hown', hsame⟩ := run_same hi (h.tokenise frame hi) hown
  rw [ownMessage, ← h.tokens i hi] at hown'
  exact ⟨e', congrArg (Option.map Prod.snd) (run_le hle hown'), hsame⟩

/-- The end of another session's connection does the same in both states. -/
theorem disconnect_same (hi : i ≠ L) (h : SameButFor L d d') :
    SameButFor L (d.destroy opts env.device i) (d'.destroy opts env.device i) := by
  have hrun : ∀ e : Daemon, (sessionDestroy opts).run
      (exec opts env (d.message i env) i) e = some ((), e.destroy opts env.device i) :=
    fun e => Prog.run_of_post fun Q => post_sessionDestroy
  obtain ⟨e', he', hsame⟩ := run_same hi h (hrun d)
  obtain rfl : d'.destroy opts env.device i = e' :=
    (Prod.mk.inj (Option.some.inj ((hrun d').symm.trans he'))).2
  exact hsame

/-- The slots that are taken are the same. -/
theorem SameButFor.fd_eq (h : SameButFor L d d') (j : SessId) :
    (d'.sessions j).fd = (d.sessions j).fd := by
  by_cases hj : j = L
  · rw [hj, h.fd]
  · rw [h.others j hj]

/-- A connection is given the same slot, which is not that of `L`. -/
theorem connect_same (h : SameButFor L d d') (hlive : (d.sessions L).live = true) (fd : ℕ)
    (stack : List Tok) : SameButFor L (d.sessionCreate fd stack) (d'.sessionCreate fd stack) := by
  unfold Daemon.sessionCreate
  simp only [h.fd_eq]
  cases hfind : (List.finRange maxSessions).find? fun j => (d.sessions j).fd = 0 with
  | none => exact h
  | some j =>
    have hfree : (d.sessions j).fd = 0 := by simpa using List.find?_some hfind
    have hj : j ≠ L := by
      rintro rfl
      simp [Session.live, hfree] at hlive
    refine SameButFor.log (SameButFor.modify ?_ hj _) rfl
    refine { h with tokens := fun k hk => ?_ }
    show Function.update d'.tokens j stack k = Function.update d.tokens j stack k
    by_cases hkj : k = j
    · rw [hkj, Function.update_self, Function.update_self]
    · rw [Function.update_of_ne hkj, Function.update_of_ne hkj, h.tokens k hk]

/-- The stream that an overload is reported for is not one of `L`. -/
theorem overloadStream_same (h : SameButFor L d d') : d'.overloadStream = d.overloadStream := by
  have hstreaming : ∀ j, ((d'.sessions j).live && decide ((d'.sessions j).state = .streaming)) =
      ((d.sessions j).live && decide ((d.sessions j).state = .streaming)) := by
    intro j
    by_cases hj : j = L
    · simp [hj, h.silent, h.silent']
    · rw [h.others j hj]
  unfold Daemon.overloadStream
  simp only [hstreaming]
  cases hfind : (List.finRange maxSessions).find? fun j =>
      (d.sessions j).live && decide ((d.sessions j).state = .streaming) with
  | none => rfl
  | some j =>
    have hj : j ≠ L := by
      rintro rfl
      have hfound := List.find?_some hfind
      simp [h.silent] at hfound
    show (d'.sessions j).streamId = (d.sessions j).streamId
    rw [h.others j hj]

/-- A USB buffer does the same in both states. -/
theorem usb_same (h : SameButFor L d d') (buf : List UInt8) (nowMs : UInt64) :
    SameButFor L (d.rtlCallback buf nowMs) (d'.rtlCallback buf nowMs) := by
  unfold Daemon.rtlCallback
  rw [h.bridge, h.adc]
  split_ifs
  · generalize Rtl.measureAdcLevel buf nowMs d.adc = measured
    obtain ⟨level, adc⟩ := measured
    have hadc : SameButFor L { d with adc := adc } { d' with bridge := d.bridge, adc := adc } :=
      { h with bridge := rfl, adc := rfl }
    cases level with
    | none => exact hadc.vitaApply _
    | some l =>
      refine SameButFor.vitaApply ?_ _
      simp only [overloadStream_same hadc]
      exact hadc.broadcast _ _
  · exact h

/-! ## The locked session's steps -/

/-- The session is connected and has not authenticated. -/
def LockedAt (L : SessId) (d : Daemon) : Prop :=
  (d.sessions L).live = true ∧ (d.sessions L).rxUnlocked = false

/-- What concerns session `L` alone leads to a state that is the same but for `L`. -/
theorem SameButFor.of_private (h : SameButFor L d d') (hp : Private L d d₁) :
    SameButFor L d₁ d' where
  others := fun j hj => (h.others j hj).trans (hp.others j hj).symm
  fd := h.fd.trans (congrArg StreamFields.fd hp.streamFields).symm
  silent := by
    rcases hp.state with hstate | hstate
    · exact hstate.trans_ne h.silent
    · rw [hstate]
      decide
  silent' := h.silent'
  rxOwner := h.rxOwner.trans hp.rxOwner.symm
  streamCounter := h.streamCounter.trans hp.streamCounter.symm
  radio := h.radio.trans hp.radio.symm
  bridge := h.bridge.trans hp.bridge.symm
  adc := h.adc.trans hp.adc.symm
  vita := h.vita.trans hp.vita.symm
  tokens := fun j hj => (h.tokens j hj).trans (congrFun hp.tokens j).symm
  trace := by
    obtain ⟨new, hnew, habout⟩ := hp.trace
    rw [hnew, besides_append, besides_of_about habout]
    exact h.trace

/-- A message of a locked session concerns that session alone. -/
theorem locked_private {m : Msg} {c : Option Command} (hout : Outcome opts env m L d c d₁)
    (hauth : opts.rxAuth = true) (hlocked : (d.sessions L).rxUnlocked = false) :
    Private L d d₁ := by
  have hgate : ¬ d.Unlocked opts L := fun hrx => by
    rw [hrx hauth] at hlocked
    cases hlocked
  cases hout with
  | ignored => exact Private.refl L d
  | answered _ f => exact Private.send L f d
  | status id s => exact Private.send L _ d
  | auth h => exact h.isPrivate
  | config hrx => exact absurd hrx hgate
  | stream hrx => exact absurd hrx hgate

/-- A request of a locked session that stays connected leads to a state that is the same but for
that session. -/
theorem locked_request (hauth : opts.rxAuth = true) (h : SameButFor L d d')
    (hlocked : (d.sessions L).rxUnlocked = false) (hreq : d.request opts L frame env = some d₁)
    (hlive : (d₁.sessions L).live = true) : SameButFor L d₁ d' := by
  obtain ⟨c, e, -, hout, rfl⟩ := request_outcome hreq
  have hreceived : SameButFor L (d.tokenise L frame) d' :=
    { h with
      tokens := fun j hj =>
        (h.tokens j hj).trans (Function.update_of_ne (f := d.tokens) hj ..).symm }
  split_ifs at hlive ⊢
  · -- the end of the session would have closed the connection
    rw [destroy_self] at hlive
    cases hlive
  · exact hreceived.of_private (locked_private hout hauth hlocked)

/-- A message leaves the session's state, or takes it back to idle, or its session is unlocked. -/
theorem outcome_state {m : Msg} {c : Option Command} (hout : Outcome opts env m i d c d₁)
    (hauth : opts.rxAuth = true) :
    (d.sessions i).rxUnlocked = true ∨ (d₁.sessions i).state = (d.sessions i).state ∨
      (d₁.sessions i).state = .idle := by
  by_cases hlocked : (d.sessions i).rxUnlocked = true
  · exact .inl hlocked
  · exact .inr (locked_private hout hauth (by simpa using hlocked)).state

/-- A session that is streaming has authenticated. -/
def StreamingUnlocked (d : Daemon) : Prop :=
  ∀ j, (d.sessions j).state = .streaming → (d.sessions j).rxUnlocked = true

/-- A session that streams is still unlocked. -/
theorem StreamingUnlocked.next {a : Action} (h : StreamingUnlocked d) (hauth : opts.rxAuth = true)
    (hown : Owned d) (hstep : step opts d a = some d₁) : StreamingUnlocked d₁ := by
  intro j hj
  by_cases htouched : d₁.sessions j = d.sessions j
  · rw [htouched] at hj ⊢
    exact h j hj
  rcases touched_cases hown hstep htouched with ⟨fd, -, hnew⟩ |
    ⟨frame, env, c, e, rfl, hlive, -, hout, -, rfl⟩ | ⟨env, rfl, rfl⟩
  · rw [hnew] at hj
    cases hj
  · split_ifs at hj ⊢
    · rw [destroy_self] at hj
      cases hj
    · -- the lock is never closed again, and only an unlocked session comes to stream
      have hbefore : (d.sessions j).rxUnlocked = true := by
        rcases outcome_state hout hauth with hunlocked | hsame | hidle
        · exact hunlocked
        · exact h j (hsame.symm.trans hj)
        · rw [hidle] at hj
          cases hj
      have hown' : Owned (d.tokenise j frame) := hown.congr rfl rfl
      rcases outcome_rxUnlocked hout hown' hlive with hsame | ⟨-, hunlocked, -⟩
      · exact hsame.trans hbefore
      · exact hunlocked
  · rw [destroy_self] at hj
    cases hj

end

/-! ## Runs -/

/-- The action is a request of session `L`. -/
def isRequestOf (L : SessId) : Action → Bool
  | .request i _ _ => i = L
  | _ => false

/-- The actions without the requests of session `L`. -/
def withoutRequests (L : SessId) (acts : List Action) : List Action :=
  acts.filter fun a => !isRequestOf L a

/-- If the action is a request of a session other than `L`, it stays within its own message. -/
def OthersContained (opts : Options) (L : SessId) (d : Daemon) : Action → Prop
  | .request i frame env => i ≠ L → Contained opts i frame env d
  | _ => True

/-- Whether a step stays within its message can be computed. -/
instance (opts : Options) (L : SessId) (d : Daemon) : DecidablePred (OthersContained opts L d)
  | .request i frame env => inferInstanceAs (Decidable (i ≠ L → Contained opts i frame env d))
  | .connect _ _ | .disconnect _ _ | .usb _ _ => isTrue trivial

section
variable {L : SessId} {opts : Options} {d d' d₁ : Daemon}

/-- A step of the daemon that is no request of `L` does the same in both states. -/
theorem step_same {a : Action} (h : SameButFor L d d') (hlive : (d.sessions L).live = true)
    (hstep : step opts d a = some d₁) (hafter : (d₁.sessions L).live = true)
    (hc : OthersContained opts L d a) (hother : isRequestOf L a = false) :
    ∃ d₁', step opts d' a = some d₁' ∧ SameButFor L d₁ d₁' := by
  have hlive' : ∀ j, (d'.sessions j).live = (d.sessions j).live := fun j => by
    rw [Session.live, h.fd_eq j, Session.live]
  cases a with
  | connect fd stack =>
    obtain ⟨hfd, hd⟩ := Option.ite_none_right_eq_some.mp hstep
    obtain rfl := Option.some.inj hd
    exact ⟨_, if_pos hfd, connect_same h hlive fd stack⟩
  | request i frame env =>
    obtain ⟨⟨hi, hlen⟩, hreq⟩ := Option.ite_none_right_eq_some.mp hstep
    have hne : i ≠ L := by simpa [isRequestOf] using hother
    obtain ⟨d₁', hd₁', hsame⟩ := request_same hne h hlen.2 (hc hne) hreq
    exact ⟨d₁', (if_pos ⟨(hlive' i).trans hi, hlen⟩).trans hd₁', hsame⟩
  | disconnect i env =>
    obtain ⟨hi, hd⟩ := Option.ite_none_right_eq_some.mp hstep
    rw [disconnect_eq] at hd
    obtain rfl := Option.some.inj hd
    have hne : i ≠ L := by
      rintro rfl
      rw [destroy_self] at hafter
      cases hafter
    exact ⟨_, (if_pos ((hlive' i).trans hi)).trans (disconnect_eq ..), disconnect_same hne h⟩
  | usb buf nowMs =>
    obtain rfl := Option.some.inj hstep
    exact ⟨_, rfl, usb_same h buf nowMs⟩

/-- Over a run in which `L` stays connected and locked, the requests of `L` make no difference to
anyone else. The induction is on the actions, from two states that are the same but for `L`. -/
theorem run_withoutRequests {acts : List Action} (hauth : opts.rxAuth = true)
    (h : SameButFor L d d') (hrun : runActs (step opts) d acts = some d₁)
    (hlocked : Always (step opts) (LockedAt L) d acts)
    (hc : Along (step opts) (fun d a _ => OthersContained opts L d a) d acts) :
    ∃ d₁', runActs (step opts) d' (withoutRequests L acts) = some d₁' ∧ SameButFor L d₁ d₁' := by
  induction acts generalizing d d' with
  | nil =>
    obtain rfl := Option.some.inj hrun
    exact ⟨d', rfl, h⟩
  | cons a as ih =>
    rw [runActs_cons, Option.bind_eq_some_iff] at hrun
    obtain ⟨e, he, hrest⟩ := hrun
    obtain ⟨hnow, halong⟩ := hlocked
    have hlocked' := halong e he
    obtain ⟨hcontained, hcs⟩ := hc e he
    cases hreq : isRequestOf L a with
    | true =>
      -- the other run does nothing here
      have hskip : withoutRequests L (a :: as) = withoutRequests L as := by
        simp [withoutRequests, hreq]
      rw [hskip]
      cases a with
      | request i frame env =>
        obtain rfl : i = L := by simpa [isRequestOf] using hreq
        obtain ⟨-, hd⟩ := Option.ite_none_right_eq_some.mp he
        exact ih (locked_request hauth h hnow.2 hd hlocked'.1.1) hrest hlocked' hcs
      | _ => cases hreq
    | false =>
      obtain ⟨e', he', hsame⟩ := step_same h hnow.1 he hlocked'.1.1 hcontained hreq
      obtain ⟨d₁', hd₁', hend⟩ := ih hsame hrest hlocked' hcs
      refine ⟨d₁', ?_, hend⟩
      have hkeep : withoutRequests L (a :: as) = a :: withoutRequests L as := by
        simp [withoutRequests, hreq]
      rw [hkeep, runActs_cons, he']
      exact hd₁'

end

/-! ## The commands behind the gate -/

/-- The handler gets past `require_function`, with which it begins. -/
def PassesFunction (opts : Options) (env : Env) (m : Msg) (i : SessId) (d : Daemon) (id : CStr)
    (c : Command) : Prop :=
  (∃ k, c.fn opts id = requireFunction id >>= k) ∧
    ∃ p d', (requireFunction id).run (exec opts env m i) d = some (some p, d')

/-- The handler begins with the look-up of a stream handle. -/
def TakesStream (opts : Options) (id : CStr) (c : Command) : Prop :=
  ∃ k, c.fn opts id = requireStream id >>= k

/-- The first member of the parameters that a handler looks up, if it begins with that. -/
def firstMember : Prog Op Unit → Option String
  | .op (.tokFindKey _ _) k =>
    match k (some 0) with
    | .op (.tokFindKey _ key) _ => some key
    | _ => none
  | _ => none

section
variable {opts : Options} {env : Env} {m : Msg} {i : SessId} {d : Daemon} {id : CStr} {c : Command}

/-- A handler that looks up the function, or a stream, is behind the gate, unless it is that of
`get_control`. -/
theorem addressesRx_of_firstMember (hc : c ≠ .getControl)
    (h : firstMember (c.fn opts id) = some "function" ∧ NamesRx m ∨
      firstMember (c.fn opts id) = some "stream_id") : c.AddressesRx m := by
  cases c with
  | setFrequency | setSampleRate | setControl | openStream =>
    rcases h with ⟨-, hrx⟩ | hstream
    · exact hrx
    · exact absurd (Option.some.inj hstream) (by decide)
  | startRx | stopRx | closeStream => trivial
  | getControl => exact absurd rfl hc
  | hello => rcases h with ⟨h, -⟩ | h <;> exact absurd (Option.some.inj h) (by decide)
  | authenticate =>
    simp only [Command.fn, cmdAuthenticate] at h
    split at h
    · rcases h with ⟨h, -⟩ | h <;> cases h
    · rcases h with ⟨h, -⟩ | h <;> exact absurd (Option.some.inj h) (by decide)
  | getCapabilities | ping | getStatus | getClockStatus => rcases h with ⟨h, -⟩ | h <;> cases h

/-- The gate answers yes for every message whose handler gets past `require_function` or looks up a
stream, apart from that of `get_control`. -/
theorem gate_covers (hc : c ≠ .getControl)
    (h : PassesFunction opts env m i d id c ∨ TakesStream opts id c) :
    (cmdAddressesRx c.name).run (exec opts env m i) d = some (true, d) := by
  suffices hmember : firstMember (c.fn opts id) = some "function" ∧ NamesRx m ∨
      firstMember (c.fn opts id) = some "stream_id" from
    cmdAddressesRx_run c (addressesRx_of_firstMember hc hmember)
  rcases h with ⟨⟨k, hk⟩, p, d', hrun⟩ | ⟨k, hk⟩
  · have hnames : Post (exec opts env m i) (requireFunction id)
        (fun p _ => p.isSome = true → NamesRx m) d :=
      post_requireFunction (fun _ _ hrx _ => hrx) (fun _ _ h => by cases h)
    exact .inl ⟨congrArg firstMember hk, hnames (some p) d' hrun rfl⟩
  · exact .inr (congrArg firstMember hk)

end

/-- With authentication required, a session that stays connected and locked does not interfere with
the others: without its requests, the daemon makes the same calls that set hardware, in the same
order, ends with the same receiver, the same owner of the channel, the same VITA table and stream
counter, and has sent the same packets and the same messages to every other session. The requests of
the other sessions are to stay within their own messages. The gate answers yes for every message
whose handler, other than that of `get_control`, would get past `require_function` or act on a
stream. -/
theorem gate_noninterference (opts : Options) (dev : Rtl.Device) (o : Rtl.Startup)
    (contextPackets : Bool) (L : SessId) (d₀ d : Daemon) (acts : List Action)
    (hauth : opts.rxAuth = true)
    (hreach : Reachable (step opts) (Daemon.init dev o contextPackets) d₀)
    (hrun : runActs (step opts) d₀ acts = some d)
    (hlocked : Always (step opts) (LockedAt L) d₀ acts)
    (hcontained : Along (step opts) (fun d a _ => OthersContained opts L d a) d₀ acts) :
    (∃ d', runActs (step opts) d₀ (withoutRequests L acts) = some d' ∧ SameButFor L d d') ∧
    (∀ (env : Env) (m : Msg) (i : SessId) (e : Daemon) (id : CStr) (c : Command),
      c ≠ .getControl → PassesFunction opts env m i e id c ∨ TakesStream opts id c →
      (cmdAddressesRx c.name).run (exec opts env m i) e = some (true, e)) := by
  refine ⟨?_, fun _ _ _ _ _ _ hc h => gate_covers hc h⟩
  have hboth : Owned d₀ ∧ StreamingUnlocked d₀ := by
    refine hreach.invariant (I := fun d => Owned d ∧ StreamingUnlocked d)
      ⟨owned_init dev o contextPackets, nofun⟩ fun _ _ _ h hs => ?_
    exact ⟨h.1.next hs, h.2.next hauth h.1 hs⟩
  have hsilent : (d₀.sessions L).state ≠ .streaming := fun hstate => by
    have hunlocked := hboth.2 L hstate
    rw [hlocked.1.2] at hunlocked
    cases hunlocked
  exact run_withoutRequests hauth (SameButFor.refl hsilent) hrun hlocked hcontained

/-! ## A client with the key and one without -/

/-- Whether a state has the session locked can be computed. -/
instance (L : SessId) : DecidablePred (LockedAt L) :=
  fun _ => inferInstanceAs (Decidable (_ ∧ _))

/-- The first client has authenticated, the second one has only connected. -/
def oneLocked : List Action :=
  [connect, .request 0 helloFrame (quiet 7), .request 0 answerFrame (quiet 7), connect]

/-- The first client tunes the receiver; the second one says `hello` and tries to. -/
def bothTune : List Action :=
  [.request 1 helloFrame (quiet 8), .request 0 (tuneFrame "100000000") (quiet 7),
    .request 1 (tuneFrame "200000000") (quiet 8)]

/-- The client without the key has no effect on the receiver. -/
theorem gate_noninterference_one_locked :
    ∃ d₀ d d', runActs (step keyedAccess) started oneLocked = some d₀ ∧
      runActs (step keyedAccess) d₀ bothTune = some d ∧
      runActs (step keyedAccess) d₀ [.request 0 (tuneFrame "100000000") (quiet 7)] = some d' ∧
      d.radio.freqHz = 100000000 ∧ SameButFor 1 d d' := by
  have hrun : ((runActs (step keyedAccess) started oneLocked).any fun d₀ =>
      decide (Always (step keyedAccess) (LockedAt 1) d₀ bothTune) &&
      decide (Along (step keyedAccess) (fun d a _ => OthersContained keyedAccess 1 d a) d₀
        bothTune) &&
      (runActs (step keyedAccess) d₀ bothTune).any fun d => d.radio.freqHz = 100000000) = true := by
    decide +kernel
  obtain ⟨d₀, hd₀, hchecks⟩ := (Option.any_eq_true ..).mp hrun
  simp only [Bool.and_eq_true, decide_eq_true_eq, and_assoc] at hchecks
  obtain ⟨hlocked, hcontained, hend⟩ := hchecks
  obtain ⟨d, hd, hfreq⟩ := (Option.any_eq_true ..).mp hend
  obtain ⟨⟨d', hd', hsame⟩, -⟩ := gate_noninterference keyedAccess obedient _ true 1 d₀ d bothTune rfl
    ⟨oneLocked, hd₀⟩ hd hlocked hcontained
  exact ⟨d₀, d, d', hd₀, hd, hd', of_decide_eq_true hfreq, hsame⟩

/-- A request with a number far behind the end of a short message. -/
def longFrame (hz : String) : List UInt8 :=
  requestFrame "ping" ("\"a\":\"0\",\"a name that takes up some more room\":\"" ++ hz ++ "\"")

/-- A request for a frequency that does not say which. -/
def tuneUnsaid : List UInt8 :=
  requestFrame "set_frequency" "\"function\":\"rx\",\"frequency_hz\""

/-- The first client's last request finds a token of its first one, which points at what the second
client has sent in between. -/
def leftover : List Action :=
  [.request 0 (longFrame "100000000") (quiet 7), .request 1 (longFrame "200000000") (quiet 8),
    .request 0 tuneUnsaid (quiet 7)]

/-- A read-only request that names the function. -/
def readFrame : List UInt8 :=
  requestFrame "get_control" "\"function\":\"rx\",\"name\":\"agc\""

/-- The gate is not asked for `get_control`, whose handler begins with `require_function`; and a
request of the client without the key decides on the frequency that another client's malformed
request sets. -/
theorem gate_misses :
    (∃ d, Reachable (step keyedAccess) started d ∧ LockedAt 1 d ∧
      PassesFunction keyedAccess (quiet 8) (d.received 1 readFrame (quiet 8)) 1
        (d.tokenise 1 readFrame) (bytes "1") .getControl ∧
      ((cmdAddressesRx Command.getControl.name).run (exec keyedAccess (quiet 8)
        (d.received 1 readFrame (quiet 8)) 1) (d.tokenise 1 readFrame)).map Prod.fst =
          some false) ∧
    (∃ d₀ d d', Reachable (step keyedAccess) started d₀ ∧
      Always (step keyedAccess) (LockedAt 1) d₀ leftover ∧
      runActs (step keyedAccess) d₀ leftover = some d ∧
      runActs (step keyedAccess) d₀ (withoutRequests 1 leftover) = some d' ∧
      d.radio.freqHz = 200000000 ∧ d'.radio.freqHz = 100000000) := by
  -- one run shows both: the gate and the handler disagree, and a request of the locked session
  -- counts
  have hrun : ((runActs (step keyedAccess) started oneLocked).any fun d₀ =>
      decide (LockedAt 1 d₀) &&
      ((requireFunction (bytes "1")).run (exec keyedAccess (quiet 8)
        (d₀.received 1 readFrame (quiet 8)) 1) (d₀.tokenise 1 readFrame)).any
          (fun r => r.1.isSome) &&
      ((cmdAddressesRx Command.getControl.name).run (exec keyedAccess (quiet 8)
        (d₀.received 1 readFrame (quiet 8)) 1) (d₀.tokenise 1 readFrame)).map Prod.fst =
          some false &&
      decide (Always (step keyedAccess) (LockedAt 1) d₀ leftover) &&
      (runActs (step keyedAccess) d₀ leftover).any (fun d => d.radio.freqHz = 200000000) &&
      (runActs (step keyedAccess) d₀ (withoutRequests 1 leftover)).any
        fun d' => d'.radio.freqHz = 100000000) = true := by
    decide +kernel
  obtain ⟨d₀, hd₀, hchecks⟩ := (Option.any_eq_true ..).mp hrun
  simp only [Bool.and_eq_true, decide_eq_true_eq, and_assoc] at hchecks
  obtain ⟨hlocked, hpasses, hgate, halways, hwith, hwithout⟩ := hchecks
  obtain ⟨⟨p, d₁⟩, hp, hsome⟩ := (Option.any_eq_true ..).mp hpasses
  obtain ⟨p, rfl⟩ := Option.isSome_iff_exists.mp hsome
  obtain ⟨d, hd, hfreq⟩ := (Option.any_eq_true ..).mp hwith
  obtain ⟨d', hd', hfreq'⟩ := (Option.any_eq_true ..).mp hwithout
  have hreach : Reachable (step keyedAccess) started d₀ := ⟨oneLocked, hd₀⟩
  exact ⟨⟨d₀, hreach, hlocked, ⟨⟨_, rfl⟩, p, d₁, hp⟩, hgate⟩, d₀, d, d', hreach, halways, hd, hd',
    of_decide_eq_true hfreq, of_decide_eq_true hfreq'⟩

end SlcRtld.Property
