import SlcRtld.Property.Accounting
import SlcRtld.Property.Observer

/-!
# Failed requests

A request that is answered with an error leaves the channel, the sessions' streams, the VITA table,
the reader and the receiver as they were (`failed_request_unchanged`). The handlers get there in
three ways: most errors come before anything has been changed; `open_stream` gives its claim back,
and `start_rx` its slot; a setter of the receiver stores nothing when the device refuses.

Giving a slot back restores the table because a free slot is always empty, and a reader that cannot
be created leaves the count of streams at zero with no reader marked as running. Both are invariants
of the single operations (`Sound`).

The tenth failed `authenticate` closes the session after its reply (`failed_request_closes`).
-/

namespace SlcRtld.Property

open Control Effect Rtl Vita

/-! ## Invariants of the operations -/

/-- Free slots are empty, and a reader runs for some stream only. -/
structure Sound (d : Daemon) : Prop where
  clear : ∀ k, (d.vita.slots k).Clear
  running : d.bridge.running = true → 0 < d.bridge.streamCount

section
variable {opts : Options} {env : Env} {m : Json.Msg} {i : SessId} {d d' : Daemon}

/-- The table of streams and the reader stay. -/
theorem Sound.congr (h : Sound d) (hvita : d'.vita = d.vita) (hbridge : d'.bridge = d.bridge) :
    Sound d' := by
  refine ⟨?_, ?_⟩
  · rw [hvita]
    exact h.clear
  · rw [hbridge]
    exact h.running

/-- The table of streams. -/
theorem Sound.vitaApply (h : Sound d) (o : VitaOp) : Sound (d.vitaApply o) :=
  ⟨fun k => apply_clear o h.clear k, h.running⟩

/-- A reader that is started counts a stream. -/
theorem rtlBridgeStart_running {created : Bool} {b : Bridge}
    (h : b.running = true → 0 < b.streamCount)
    (hafter : (rtlBridgeStart created b).2.2.running = true) :
    0 < (rtlBridgeStart created b).2.2.streamCount := by
  unfold rtlBridgeStart at hafter ⊢
  by_cases hfirst : b.streamCount + 1 = 1
  · cases created with
    | true =>
      rw [if_pos hfirst]
      show 0 < b.streamCount + 1
      omega
    | false =>
      rw [if_pos hfirst] at hafter
      cases hafter
  · rw [if_neg hfirst] at hafter ⊢
    have := h hafter
    show 0 < b.streamCount + 1
    omega

/-- A reader that goes on still counts a stream. -/
theorem rtlBridgeStopLocked_running {b : Bridge}
    (hafter : (rtlBridgeStopLocked b).2.running = true) :
    0 < (rtlBridgeStopLocked b).2.streamCount := by
  unfold rtlBridgeStopLocked at hafter ⊢
  by_cases hlast : (max (b.streamCount - 1) 0 = 0 && b.running) = true
  · rw [if_pos hlast] at hafter
    cases hafter
  · rw [if_neg hlast] at hafter ⊢
    -- the reader goes on, so this was not the last stream
    have hmore : max (b.streamCount - 1) 0 ≠ 0 := by
      intro hzero
      rw [hzero] at hlast
      exact hlast (by simpa using hafter)
    show 0 < max (b.streamCount - 1) 0
    omega

/-- Every operation keeps the two. -/
theorem exec_sound {β : Type} {o : Op β} {b : β} (ho : exec opts env m i β o d = some (b, d'))
    (h : Sound d) : Sound d' := by
  by_cases hreads : o.Reads
  · rw [exec_reads hreads ho]
    exact h
  cases o with
  | makeNonce =>
    obtain ⟨raw, -, rfl⟩ := makeNonce_eq ho
    exact h.congr rfl rfl
  | rxClaim =>
    obtain rfl : (d.rxClaim i).2 = d' := congrArg Prod.snd (Option.some.inj ho)
    unfold Daemon.rxClaim
    split_ifs
    · exact h.congr rfl rfl
    · exact h
  -- none of these touches the table of slots or the bridge
  | send | broadcast | modify | checkResponse | freeSession | rxReleaseLocked | allocStreamId | set
  | resetAdcLevel =>
    cases ho
    exact h.congr rfl rfl
  | vitaSessionAdd | vitaSessionRemove | vitaUpdatePayloadFormat | vitaSendContextAll =>
    cases ho
    exact h.vitaApply _
  | bridgeStart =>
    cases ho
    exact ⟨h.clear, rtlBridgeStart_running h.running⟩
  | bridgeStopLocked =>
    cases ho
    exact ⟨h.clear, rtlBridgeStopLocked_running⟩
  | pthreadJoin =>
    cases ho
    exact ⟨h.clear, h.running⟩
  | _ => exact absurd trivial hreads

/-- A handler keeps both, operation by operation. -/
theorem run_sound {α : Type} {p : Prog Op α} {a : α}
    (hp : p.run (exec opts env m i) d = some (a, d')) (h : Sound d) : Sound d' :=
  Prog.run_rel (P := fun _ _ => True) (fun d d' => Sound d → Sound d') (fun _ => id)
    (fun _ _ _ h₁ h₂ => h₂ ∘ h₁) (fun _ _ _ _ _ _ ho => exec_sound ho) (Prog.uses_true p) hp h

/-- A step keeps both. -/
theorem Sound.next {a : Action} (h : Sound d) (hstep : step opts d a = some d') : Sound d' := by
  cases a with
  | connect fd stack =>
    obtain ⟨-, hd'⟩ := Option.ite_none_right_eq_some.mp hstep
    obtain rfl := Option.some.inj hd'
    rcases sessionCreate_cases fd stack d with hc | ⟨i, -, hc⟩
    · rw [hc]
      exact h
    · rw [hc]
      exact h.congr rfl rfl
  | request i frame env =>
    obtain ⟨-, hreq⟩ := Option.ite_none_right_eq_some.mp hstep
    obtain ⟨⟨u, d₁⟩, hrun, rfl⟩ := Option.map_eq_some_iff.mp hreq
    exact run_sound hrun (h.congr rfl rfl)
  | disconnect i env =>
    obtain ⟨-, hdis⟩ := Option.ite_none_right_eq_some.mp hstep
    obtain ⟨⟨u, d₁⟩, hrun, rfl⟩ := Option.map_eq_some_iff.mp hdis
    exact run_sound hrun h
  | usb buf nowMs =>
    obtain rfl := Option.some.inj hstep
    unfold Daemon.rtlCallback
    split_ifs
    · rcases measureAdcLevel buf nowMs d.adc with ⟨_ | level, adc⟩
      · exact Sound.vitaApply (d := { d with adc := adc }) (h.congr rfl rfl) _
      · exact Sound.vitaApply (d := Daemon.broadcast none _ { d with adc := adc })
          (h.congr rfl rfl) _
    · exact h

/-- At the start there are no streams. -/
theorem sound_init (dev : Device) (o : Startup) (contextPackets : Bool) :
    Sound (Daemon.init dev o contextPackets) :=
  ⟨fun _ _ => rfl, nofun⟩

end

/-! ## Requests -/

/-- What a failed request has to leave alone. -/
structure Unchanged (d d' : Daemon) : Prop where
  streams : SameStreams d d'
  vita : d'.vita = d.vita
  bridge : d'.bridge = d.bridge
  radio : d'.radio = d.radio

section
variable {opts : Options} {env : Env} {m : Json.Msg} {i : SessId} {d d' : Daemon}

/-- A frame that is sent last has been observed. -/
theorem observed_send {P : Obs → Prop} (h : Emits P d d') (hlive : (d'.sessions i).live = true)
    (f : Frame) : Observed d (d'.send i f) (.sent i f) := by
  obtain ⟨new, hnew, -⟩ := h
  refine ⟨.sent i f :: new, ?_, List.mem_cons_self⟩
  show (if (d'.sessions i).live then [Obs.sent i f] else []) ++ d'.trace = _
  rw [if_pos hlive, hnew]
  rfl

/-- The calls of a setter have been observed. -/
theorem observed_set {dev : Device} {β : Type} {x : Setting β} {c : HwCall}
    (hc : c ∈ (x.apply dev d.radio).2.2) : Observed d (d.set dev x).2 (.hardware c) :=
  ⟨_, rfl, List.mem_map_of_mem hc⟩

/-- The reply to a `start_rx` that has got as far as the VITA table. -/
def startRefused : Frame → Bool
  | .error _ .busy _ | .error _ .deviceError _ => true
  | _ => false

/-- A setter whose device fails stores nothing, unless it is the one of the sample rate. -/
theorem set_failed {β : Type} {x : Setting β} {dev : Device} (hx : x.Fails dev) (r : Radio)
    (hrate : ∀ sps, .setSampleRate sps ∈ (x.apply dev r).2.2 → dev.sampleRate sps ≠ 0) :
    (x.apply dev r).2.1 = r := by
  cases x with
  | frequency freqHz =>
    have hzero : dev.centerFreq freqHz.toUInt32 = 0 := hx
    simp [Setting.apply, rtlSetFrequency, hzero]
  | sampleRate sps => exact absurd hx (hrate _ List.mem_cons_self)
  | biasTee en => exact if_neg hx
  | directSampling mode => exact if_neg hx
  | gain | agc | ppm => exact absurd hx id

/-- A reader that cannot be created leaves the bridge as it was. -/
theorem rtlBridgeStart_failed {created : Bool} {b : Bridge}
    (hrunning : b.running = true → 0 < b.streamCount)
    (h : (rtlBridgeStart created b).1 = false) : (rtlBridgeStart created b).2.2 = b := by
  unfold rtlBridgeStart at h ⊢
  by_cases hfirst : b.streamCount + 1 = 1
  · cases created with
    | true =>
      rw [if_pos hfirst] at h
      cases h
    | false =>
      rw [if_pos hfirst]
      have hidle : b.running = false := by
        rw [Bool.eq_false_iff]
        intro hrun
        have := hrunning hrun
        omega
      show { b with running := false } = b
      rw [← hidle]
  · rw [if_neg hfirst] at h
    cases h

/-- A token written over an equal one changes nothing. -/
theorem sameStreams_setToken {token : ℤ} (howner : d'.rxOwner = d.rxOwner)
    (hothers : ∀ j, j ≠ i → d'.sessions j = d.sessions j)
    (hself : d'.sessions i = (d.sessions i).setToken token)
    (htoken : (d.sessions i).vitaToken = token) : SameStreams d d' := by
  refine ⟨howner, fun j => ?_⟩
  by_cases hj : j = i
  · subst hj
    rw [hself, ← htoken]
    exact ⟨rfl, rfl⟩
  · rw [hothers j hj]
    exact ⟨rfl, rfl⟩

/-- A stream command that fails takes back what it did. -/
theorem streamFailed_unchanged {c : Command} (h : StreamFailed env i d c d') (hown : Owned d)
    (hsound : Sound d) (hlive : (d.sessions i).live = true)
    (hstart : c = .startRx → ∀ f, Observed d d' (.sent i f) → startRefused f = true →
      (d.sessions i).vitaToken = -1) : Unchanged d d' := by
  have hany : Chatter fun _ => True := ⟨fun _ => trivial, fun _ => trivial, fun _ _ => trivial⟩
  cases h with
  -- the channel is claimed and released again
  | refused hopen d₁ hclaim f =>
    have hsame := refused_same hown hlive hopen hclaim
    obtain ⟨-, rfl⟩ := rxClaim_eq hclaim
    obtain ⟨js, -, hrelease⟩ := rxRelease_eq i ({ d with rxOwner := some i }.modify i Session.own)
    refine ⟨hsame, ?_, ?_, ?_⟩
    all_goals
      rw [hrelease]
      rfl
  | startBusy p htoken id message =>
    have hadded : (((d.vitaApply (.add p)).modify i (Session.setToken (vitaSessionAdd p
        d.vita).1)).sessions i).live = true := by
      rw [Daemon.modify_self]
      exact hlive
    -- the client has been told of the refusal, so the token was empty before
    have hempty := hstart rfl _
      (observed_send ((hany.vitaApply (.add p) d).trans (Emits.modify ..)) hadded _) rfl
    rcases vitaSessionAdd_cases p d.vita with hfull | ⟨l, -, hl, -⟩
    · have hvita : (d.vita.apply (.add p)).1 = d.vita := congrArg (·.2.1) hfull
      refine ⟨sameStreams_setToken rfl (fun j hj => Daemon.modify_of_ne hj ..)
        (Daemon.modify_self ..) ?_, hvita, rfl, rfl⟩
      rw [hempty, hfull]
    · omega
  | startFailed p htoken d₁ hbridge id message =>
    obtain ⟨hsessions, howner⟩ := bridgeStart_frame hbridge
    have hadded : d₁.sessions i = (d.sessions i).setToken (vitaSessionAdd p d.vita).1 :=
      (congrFun hsessions i).trans (Daemon.modify_self ..)
    have hlive' : (((d₁.vitaApply (.remove (vitaSessionAdd p d.vita).1)).modify i
        (Session.setToken (-1))).sessions i).live = true := by
      rw [Daemon.modify_self]
      exact (congrArg Session.live hadded).trans hlive
    have hempty := hstart rfl _ (observed_send (((((hany.vitaApply (.add p) d).trans
      (Emits.modify ..)).trans (hany.bridgeStart hbridge)).trans (hany.vitaApply ..)).trans
      (Emits.modify ..)) hlive' _) rfl
    -- the reader was not running, and the slot that was added is removed
    have hrest : d₁.vita = (vitaSessionAdd p d.vita).2.1 ∧ d₁.bridge = d.bridge ∧
        d₁.radio = d.radio := by
      obtain ⟨hfailed, rfl⟩ := Prod.mk.inj hbridge
      exact ⟨rfl, rtlBridgeStart_failed hsound.running hfailed, rfl⟩
    refine ⟨sameStreams_setToken howner (fun j hj => ?_) ?_ hempty, ?_, hrest.2.1, hrest.2.2⟩
    · have hadded := (congrFun hsessions j).trans (Daemon.modify_of_ne hj ..)
      exact (Daemon.modify_of_ne hj ..).trans hadded
    · refine (Daemon.modify_self ..).trans ?_
      exact (congrArg (Session.setToken (-1)) hadded).trans rfl
    · show (vitaSessionRemove (vitaSessionAdd p d.vita).1 d₁.vita).1 = d.vita
      rw [hrest.1]
      exact remove_added_eq hsound.clear htoken

/-- An `authenticate` touches the authentication only. -/
theorem authenticate_unchanged (h : AuthOutcome opts env m i d .authenticate d') :
    Unchanged d d' := by
  have hp := h.isPrivate
  refine ⟨⟨hp.rxOwner, fun j => ?_⟩, hp.vita, hp.bridge, hp.radio⟩
  by_cases hj : j = i
  · subst hj
    exact ⟨hp.streamFields, h.state.resolve_left nofun⟩
  · rw [hp.others j hj]
    exact ⟨rfl, rfl⟩

/-- Where an observation is an error to the client of `i`, the proposition holds. -/
def ErrorsMean (i : SessId) (Q : Prop) (o : Obs) : Prop :=
  ∀ f, o = .sent i f → f.isError = true → Q

/-- Events are no errors. -/
theorem chatter_errorsMean (Q : Prop) : Chatter (ErrorsMean i Q) where
  hardware := by
    intro c f hsent
    cases hsent
  datagram := by
    intro g f hsent
    cases hsent
  event := by
    intro j e f hsent herror
    cases hsent
    cases herror

/-- A good reply is no error. -/
theorem errorsMean_ok {Q : Prop} (id : CStr) (r : Result) : ErrorsMean i Q (.sent i (.ok id r)) := by
  intro f hsent herror
  cases hsent
  cases herror

/-- A message that is answered with an error changes nothing. -/
theorem outcome_errors {c : Option Command} (hout : Outcome opts env m i d c d') (hown : Owned d)
    (hsound : Sound d) (hlive : (d.sessions i).live = true)
    (hrate : ∀ sps, Observed d d' (.hardware (.setSampleRate sps)) → env.device.sampleRate sps ≠ 0)
    (hstart : c = some .startRx → ∀ f, Observed d d' (.sent i f) → startRefused f = true →
      (d.sessions i).vitaToken = -1) :
    Emits (ErrorsMean i (Unchanged d d')) d d' := by
  cases hout with
  | ignored => exact Emits.of_eq rfl
  | answered c f =>
    exact Emits.send (fun _ _ _ => ⟨⟨rfl, fun _ => ⟨rfl, rfl⟩⟩, rfl, rfl, rfl⟩) d
  | status id s => exact Emits.send (errorsMean_ok _ _) d
  | @auth c _ ha =>
    by_cases hc : c = .authenticate
    · subst hc
      obtain ⟨new, hnew, -⟩ := ha.isPrivate.trace
      exact ⟨new, hnew, fun _ _ _ _ _ => authenticate_unchanged ha⟩
    · cases ha with
      | hello _ _ name id => exact (Emits.modify ..).trans (Emits.send (errorsMean_ok _ _) _)
      | challenged _ _ name id hex made d₁ hmade =>
        exact (((Emits.modify ..).trans (Emits.makeNonce (fun _ => nofun) hmade)).trans
          (Emits.modify ..)).trans (Emits.send (errorsMean_ok _ _) _)
      | unlocked | rejected => exact absurd rfl hc
  -- a setting that fails leaves the receiver as it was, but for a rate the device has taken
  | config _ _ hc =>
    refine hc.emits (chatter_errorsMean _) (fun _ _ _ => errorsMean_ok _ _) ?_
    rintro β x id code message hx - rfl f - -
    have hradio : (x.apply env.device d.radio).2.1 = d.radio := by
      refine set_failed hx d.radio fun sps hsps => hrate sps ?_
      exact (observed_set hsps).trans (Emits.send (P := fun _ => True) trivial _)
    exact ⟨⟨rfl, fun _ => ⟨rfl, rfl⟩⟩, rfl, rfl, hradio⟩
  | stream _ ht =>
    refine ht.emits (chatter_errorsMean _) (fun _ _ _ => errorsMean_ok _ _)
      fun id code message hfailed f _ _ => ?_
    exact streamFailed_unchanged hfailed hown hsound hlive fun hc => hstart (congrArg some hc)

/-- Only an `authenticate` that has failed too often asks for the session to be closed. -/
theorem authOutcome_closes {c : Command} (ha : AuthOutcome opts env m i d c d')
    (hcalm : (d.sessions i).closeAfterReply = false)
    (hclose : (d'.sessions i).closeAfterReply = true) :
    c = .authenticate ∧ authMaxFailures ≤ (d'.sessions i).authFailures := by
  have hwindow : ((d.sessions i).refreshWindow env.monoNs).closeAfterReply = false := by
    unfold Session.refreshWindow
    split_ifs <;> exact hcalm
  cases ha with
  | hello _ _ name =>
    have hself := Daemon.modify_self i (Session.accept name) d
    exact absurd (hcalm.symm.trans ((congrArg Session.closeAfterReply hself).symm.trans hclose))
      (by decide)
  | challenged _ _ name _ hex made d₁ hmade =>
    obtain ⟨raw, hraw⟩ := makeNonce_self hmade
    have hself := Daemon.modify_self i (Session.challenge made) d₁
    have hkept : ((d₁.sessions i).challenge made).closeAfterReply = false := by
      rw [hraw, Daemon.modify_self]
      cases made <;> exact hcalm
    exact absurd (hkept.symm.trans ((congrArg Session.closeAfterReply hself).symm.trans hclose))
      (by decide)
  | unlocked _ _ _ _ _ _ d₁ hok =>
    have hchecked := congrFun (checkResponse_sessions hok) i
    rw [Daemon.modify_self] at hchecked
    have hself := Daemon.modify_self i Session.unlock d₁
    rw [hchecked] at hself
    exact absurd (hwindow.symm.trans ((congrArg Session.closeAfterReply hself).symm.trans hclose))
      (by decide)
  | rejected _ _ _ _ _ _ hex made d₁ d₂ hok hmade =>
    have hchecked := congrFun (checkResponse_sessions hok) i
    rw [Daemon.modify_self] at hchecked
    obtain ⟨raw, hraw⟩ := makeNonce_self hmade
    rw [Daemon.modify_self, hchecked] at hraw
    -- the record that the limit is applied to does not ask for it yet
    obtain ⟨s, hs, hkept⟩ : ∃ s : Session, (d₂.modify i fun s => { s with nonceValid := made }).sessions
        i = s ∧ s.closeAfterReply = false := by
      refine ⟨_, Daemon.modify_self .., ?_⟩
      rw [hraw]
      exact hwindow
    rw [Daemon.modify_self] at hclose ⊢
    change (Session.limitFailures ((d₂.modify i fun s => { s with nonceValid := made }).sessions
      i)).closeAfterReply = true at hclose
    show _ ∧ _ ≤ (Session.limitFailures ((d₂.modify i fun s => { s with nonceValid := made }).sessions
      i)).authFailures
    rw [hs] at hclose ⊢
    unfold Session.limitFailures at hclose ⊢
    split_ifs at hclose ⊢ with hmany
    · exact ⟨rfl, hmany⟩
    · exact absurd (hkept.symm.trans hclose) (by decide)

/-- The end of a session says nothing that is an error. -/
theorem destroy_errors {Q : Prop} (dev : Device) :
    Emits (ErrorsMean i Q) d (d.destroy opts dev i) := by
  have hP := chatter_errorsMean (i := i) Q
  refine ((hP.endStream i d).trans (hP.rxRelease i _)).trans ((hP.biasTeeFallback opts dev _).trans
    ((Emits.modify ..).trans (Emits.log (fun o ho => ?_) _)))
  rw [List.mem_singleton.mp ho]
  intro f hsent
  cases hsent

/-- An error that has been sent means what the errors on the way mean. -/
theorem Emits.of_answersError {Q : Prop} (h : Emits (ErrorsMean i Q) d d')
    (herror : AnswersError i d d') : Q := by
  obtain ⟨new, hnew, hmeans⟩ := h
  obtain ⟨new', f, hnew', hmem, hf⟩ := herror
  obtain rfl := List.append_cancel_right (hnew.symm.trans hnew')
  exact hmeans _ hmem f rfl hf

end

/-- In every reachable state, a request that is answered with an error leaves everything as it was;
after an `authenticate` that has failed too often, the session is closed. Left out are a request
whose sample rate is set and read back as zero, and a `start_rx` that gets as far as the VITA table
although its session holds a slot already. -/
theorem failed_request_unchanged (opts : Options) (dev : Device) (o : Startup)
    (contextPackets : Bool) (d d' : Daemon)
    (hreach : Reachable (step opts) (Daemon.init dev o contextPackets) d)
    (i : SessId) (frame : List UInt8) (env : Env)
    (hstep : step opts d (.request i frame env) = some d') (herror : AnswersError i d d')
    (hrate : ∀ sps, Observed d d' (.hardware (.setSampleRate sps)) → env.device.sampleRate sps ≠ 0)
    (hstart : d.command opts i frame env = some (some .startRx) →
      ∀ f, Observed d d' (.sent i f) → startRefused f = true → (d.sessions i).vitaToken = -1) :
    ∃ d₁, Unchanged d d₁ ∧ (d' = d₁ ∨ d.command opts i frame env = some (some .authenticate) ∧
      authMaxFailures ≤ (d₁.sessions i).authFailures ∧ d' = d₁.destroy opts env.device i) := by
  have hown : Owned d := hreach.invariant (owned_init dev o contextPackets) fun _ _ _ h hs =>
    h.next hs
  have hsound : Sound d := hreach.invariant (sound_init dev o contextPackets) fun _ _ _ h hs =>
    h.next hs
  obtain ⟨⟨hlive, -⟩, hreq⟩ := Option.ite_none_right_eq_some.mp hstep
  obtain ⟨c, d₁, hcommand, hout, hd'⟩ := request_outcome hreq
  rw [hcommand] at hstart ⊢
  -- the message is handled in the state with the frame in the buffer
  have hown' : Owned (d.tokenise i frame) := hown.congr rfl rfl
  have hobserved : ∀ o, Observed (d.tokenise i frame) d₁ o → Observed d d' o := by
    intro o ho
    rw [hd']
    split_ifs
    · exact ho.trans (destroy_errors (i := i) (Q := True) env.device)
    · exact ho
  have herrors := outcome_errors hout hown' (hsound.congr rfl rfl) hlive
    (fun sps hsps => hrate sps (hobserved _ hsps))
    fun hc f hf => hstart (congrArg some hc) f (hobserved _ hf)
  refine ⟨d₁, ?_⟩
  cases hclose : (d₁.sessions i).closeAfterReply with
  | false =>
    rw [hclose, if_neg (by decide)] at hd'
    subst hd'
    have h := Emits.of_answersError herrors herror
    exact ⟨⟨h.streams, h.vita, h.bridge, h.radio⟩, .inl rfl⟩
  | true =>
    rw [hclose, if_pos rfl] at hd'
    subst hd'
    have h := Emits.of_answersError (herrors.trans (destroy_errors env.device)) herror
    obtain ⟨c', rfl, ha⟩ := outcome_closes hout hown' hlive hclose
    obtain ⟨rfl, hmany⟩ := authOutcome_closes ha (hown'.calm i) hclose
    exact ⟨⟨h.streams, h.vita, h.bridge, h.radio⟩, .inr ⟨rfl, hmany, rfl⟩⟩

/-- An environment in which no thread can be created. -/
def threadless : Env := { quiet 0 with pthreadCreate := false }

/-- A client whose `start_rx` fails for want of a thread: its stream, the table and the reader are
as before. -/
theorem failed_request_unchanged_start :
    ∃ d d', Reachable (step openAccess) started d ∧
      step openAccess d (.request 0 startFrame threadless) = some d' ∧ AnswersError 0 d d' ∧
      d.command openAccess 0 startFrame threadless = some (some .startRx) ∧ Unchanged d d' := by
  have hrun : ((runActs (step openAccess) started twoClients).any fun d =>
      (d.sessions 0).vitaToken = -1 &&
      d.command openAccess 0 startFrame threadless = some (some .startRx) &&
      (step openAccess d (.request 0 startFrame threadless)).any fun d' =>
        decide (AnswersError 0 d d')) = true := by
    decide +kernel
  obtain ⟨d, hd, hchecks⟩ := (Option.any_eq_true ..).mp hrun
  simp only [Bool.and_eq_true, decide_eq_true_eq] at hchecks
  obtain ⟨⟨htoken, hcommand⟩, hstep⟩ := hchecks
  obtain ⟨d', hd', herror⟩ := (Option.any_eq_true ..).mp hstep
  have hreach : Reachable (step openAccess) started d := ⟨twoClients, hd⟩
  obtain ⟨d₁, hsame, rfl | ⟨hauth, -⟩⟩ := failed_request_unchanged openAccess obedient _ true d d'
    hreach 0 startFrame threadless hd' (of_decide_eq_true herror)
    (fun sps _ => obedient_succeeds.sampleRate sps) fun _ _ _ _ => htoken
  · exact ⟨d, d', hreach, hd', of_decide_eq_true herror, hcommand, hsame⟩
  · rw [hcommand] at hauth
    cases hauth

/-- A daemon that asks for authentication and has no key. -/
def keyless : Options := { openAccess with rxAuth := true }

/-- An answer that no key verifies. -/
def wrongFrame : List UInt8 := requestFrame "authenticate" "\"method\":\"m\",\"response\":\"0\""

/-- A client that has failed nine times. -/
def nineFailures : List Action :=
  [connect, .request 0 helloFrame (quiet 0)] ++
    List.replicate 9 (.request 0 wrongFrame (quiet 0))

/-- The tenth answer is an error like the others, and its session is closed. -/
theorem failed_request_closes :
    ∃ d d', Reachable (step keyless) started d ∧
      step keyless d (.request 0 wrongFrame (quiet 0)) = some d' ∧ AnswersError 0 d d' ∧
      (d.sessions 0).state = .idle ∧ (d'.sessions 0).state = .awaitHello ∧
      (d'.sessions 0).live = false ∧ ¬ Unchanged d d' := by
  have hrun : ((runActs (step keyless) started nineFailures).any fun d =>
      (d.sessions 0).state = .idle &&
      (step keyless d (.request 0 wrongFrame (quiet 0))).any fun d' =>
        (d'.sessions 0).state = .awaitHello && !(d'.sessions 0).live &&
        decide (AnswersError 0 d d')) = true := by
    decide +kernel
  obtain ⟨d, hd, hchecks⟩ := (Option.any_eq_true ..).mp hrun
  simp only [Bool.and_eq_true, decide_eq_true_eq] at hchecks
  obtain ⟨hidle, hstep⟩ := hchecks
  obtain ⟨d', hd', hchecks⟩ := (Option.any_eq_true ..).mp hstep
  simp only [Bool.and_eq_true, decide_eq_true_eq, Bool.not_eq_true', and_assoc] at hchecks
  obtain ⟨hgone, hclosed, herror⟩ := hchecks
  refine ⟨d, d', ⟨nineFailures, hd⟩, hd', herror, hidle, hgone, hclosed, fun h => ?_⟩
  have hsame := (h.streams.2 0).2
  rw [hidle, hgone] at hsame
  cases hsame

end SlcRtld.Property
