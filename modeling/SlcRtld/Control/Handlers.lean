import SlcRtld.Control.Outcome

/-!
# The handlers have no other outcome

`handleMessage_outcome`: whatever the message, the handling of it ends in one of the outcomes of
`Outcome`. Each handler is followed once, check by check; an error exit is an `answered` outcome as
soon as it is reached.
-/

namespace SlcRtld.Control

open Libc Rtl Auth Vita Json Effect
open Effect.Prog (perform when Post)

/-! ## The handlers' parts -/

section
variable {opts : Options} {env : Env} {m : Msg} {i : SessId} {d : Daemon}

/-- An error is one frame. -/
theorem post_sendError {Q : Unit → Daemon → Prop} {id : CStr} {code : ErrorCode} {msg : String} :
    Post (exec opts env m i) (sendError id code msg) Q d ↔
      Q () (d.send i (.error id code (bytes msg))) :=
  post_send

/-- An error exit that answers `a`. -/
theorem post_sendError_pure {α : Type} {Q : α → Daemon → Prop} {id : CStr} {code : ErrorCode}
    {msg : String} {a : α} :
    Post (exec opts env m i) (do sendError id code msg; return a) Q d ↔
      Q a (d.send i (.error id code (bytes msg))) := by
  rw [Prog.post_bind, post_sendError, Prog.post_pure]

/-- A result is one frame. -/
theorem post_sendOk {Q : Unit → Daemon → Prop} {id : CStr} {r : Result} :
    Post (exec opts env m i) (sendOk id r) Q d ↔ Q () (d.send i (.ok id r)) :=
  post_send

/-- An event to the session is one frame. -/
theorem post_sendEvent {Q : Unit → Daemon → Prop} {e : Event} :
    Post (exec opts env m i) (sendEvent e) Q d ↔ Q () (d.send i (.event e)) :=
  post_send

/-- An event to all. -/
theorem post_cpBroadcastEvent {Q : Unit → Daemon → Prop} {e : Event} :
    Post (exec opts env m i) (cpBroadcastEvent e) Q d ↔ Q () (d.broadcast none e) :=
  post_broadcast

/-- An event to the others. -/
theorem post_cpBroadcastEventExcept {Q : Unit → Daemon → Prop} {e : Event} :
    Post (exec opts env m i) (cpBroadcastEventExcept e) Q d ↔ Q () (d.broadcast (some i) e) :=
  post_broadcast

/-- `params` names the channel's function, or the request is answered with a plain error. -/
theorem post_requireFunction {Q : Option ℕ → Daemon → Prop} {id : CStr}
    (hsome : ∀ p, m.tokFindKey 0 (bytes "params") = some (some p) → NamesRx m → Q (some p) d)
    (hnone : ∀ code message, Q none (d.send i (.error id code message))) :
    Post (exec opts env m i) (requireFunction id) Q d := by
  simp only [requireFunction, findParams, Prog.post_bind, post_tokFindKey]
  intro p hp
  cases p with
  | none => exact post_sendError_pure.mpr (hnone _ _)
  | some p =>
    simp only [Prog.post_bind, post_tokFindKey]
    intro f hf
    cases f with
    | none =>
      simp only [Prog.post_bind, post_tokFindKey]
      intro _ _
      refine Prog.post_ite (fun _ => ?_) (fun _ => ?_)
      · exact post_sendError_pure.mpr (hnone _ _)
      · exact post_sendError_pure.mpr (hnone _ _)
    | some f =>
      simp only [Prog.post_bind, post_tokEq]
      intro rx hrx
      refine Prog.post_ite (fun h => ?_) (fun _ => ?_)
      · exact (Prog.post_pure ..).mpr (hsome p hp ⟨p, f, hp, hf, h ▸ hrx⟩)
      · exact post_sendError_pure.mpr (hnone _ _)

/-- The channel number is good, or the request is answered with a plain error. -/
theorem post_channelOk {Q : Bool → Daemon → Prop} {id : CStr} {p : ℕ} (htrue : Q true d)
    (hfalse : ∀ code message, Q false (d.send i (.error id code message))) :
    Post (exec opts env m i) (channelOk id p) Q d := by
  simp only [channelOk, Prog.post_bind, post_tokFindKey]
  intro c _
  refine Prog.post_ite (fun _ => ?_) (fun _ => ?_)
  · exact (Prog.post_pure ..).mpr htrue
  · exact post_sendError_pure.mpr (hfalse _ _)

/-- No other session owns the channel, or the request is answered with a plain error. -/
theorem post_mayConfigure {Q : Bool → Daemon → Prop} {id : CStr}
    (htrue : d.rxOwnedByOther i = false → Q true d)
    (hfalse : ∀ code message, Q false (d.send i (.error id code message))) :
    Post (exec opts env m i) (mayConfigure id) Q d := by
  simp only [mayConfigure, Prog.post_bind, post_rxOwnedByOther]
  refine Prog.post_ite (fun h => ?_) (fun _ => ?_)
  · exact (Prog.post_pure ..).mpr (htrue (by simpa using h))
  · exact post_sendError_pure.mpr (hfalse _ _)

/-- The checks that begin every command that sets the receiver: they end in a reply, or establish
that the message names the receiver and that no other session owns the channel. -/
theorem post_configChecks {Q : Unit → Daemon → Prop} {id : CStr} {k : ℕ → Prog Op Unit}
    (hok : ∀ p, m.tokFindKey 0 (bytes "params") = some (some p) → NamesRx m →
      d.rxOwnedByOther i = false → Post (exec opts env m i) (k p) Q d)
    (hno : ∀ code message, Q () (d.send i (.error id code message))) :
    Post (exec opts env m i) (do
      let some p ← requireFunction id | return
      if !(← channelOk id p) then return
      if !(← mayConfigure id) then return
      k p) Q d := by
  have hdone : ∀ code message, Post (exec opts env m i) (pure ()) Q (d.send i (.error id code message)) :=
    fun code message => (Prog.post_pure ..).mpr (hno code message)
  rw [Prog.post_bind]
  refine post_requireFunction (fun p hp hrx => ?_) hdone
  rw [Prog.post_bind]
  refine post_channelOk ?_ hdone
  rw [if_neg (by decide), Prog.post_bind]
  refine post_mayConfigure (fun hown => ?_) hdone
  rw [if_neg (by decide)]
  exact hok p hp hrx hown

/-- Looking at a token only reads. -/
theorem uses_tokIsBool (t : ℕ) : (tokIsBool t).Uses fun _ o => o.Reads :=
  ⟨trivial, fun _ => Prog.Uses.ite trivial ⟨trivial, fun _ => trivial⟩⟩

/-- A value that is taken for a number looks like one. -/
theorem post_tokIsNumeric {Q : Bool → Daemon → Prop} {vi : ℕ} (htrue : LooksNumeric m vi → Q true d)
    (hfalse : Q false d) : Post (exec opts env m i) (tokIsNumeric vi) Q d := by
  simp only [tokIsNumeric, tokIsBool, Prog.post_bind, post_tokType]
  intro ty hty
  refine Prog.post_ite (fun _ => (Prog.post_pure ..).mpr hfalse) (fun hprimitive => ?_)
  simp only [Prog.post_bind, post_tokIsPrimitive]
  intro isTrue hisTrue
  refine Prog.post_ite (fun _ => ?_) (fun hnot => ?_)
  · rw [Prog.post_pure, Prog.post_pure]
    exact hfalse
  · simp only [post_tokIsPrimitive]
    intro isFalse hisFalse
    rw [Prog.post_pure]
    cases isFalse with
    | true => exact hfalse
    | false =>
      refine htrue ⟨by rw [hty, not_not.mp hprimitive], ?_, hisFalse⟩
      rw [hisTrue, Bool.eq_false_of_not_eq_true hnot]

/-- Looking at a token only reads. -/
theorem uses_tokMode (t : ℕ) : (tokMode t).Uses fun _ o => o.Reads :=
  ⟨trivial, fun _ => Prog.Uses.ite trivial ⟨trivial, fun _ => Prog.Uses.ite trivial
    ⟨trivial, fun _ => Prog.Uses.ite trivial trivial⟩⟩⟩

end

/-! ## Envelope -/

section
variable {opts : Options} {env : Env} {m : Msg} {i : SessId} {d : Daemon}

/-- `hello`: it is accepted, with or without a challenge, or answered with a plain error. -/
theorem cmdHello_outcome (id : CStr) :
    Post (exec opts env m i) (cmdHello opts id)
      (fun _ d' => Outcome opts env m i d (some .hello) d') d := by
  simp only [cmdHello, findParams, Prog.post_bind, post_tokFindKey]
  intro p hp
  cases p with
  | none => exact post_sendError.mpr (.refused ..)
  | some p =>
    simp only [Prog.post_bind, post_tokFindKey]
    intro v hv
    cases v with
    | none => exact post_sendError.mpr (.refused ..)
    | some v =>
      simp only [Prog.post_bind, post_tokType]
      intro ty hty
      refine Prog.post_ite (fun _ => ?_) (fun harray => ?_)
      · exact post_sendError.mpr (.refused ..)
      simp only [Prog.post_bind, post_offeredVersions]
      rintro ⟨supports, release⟩ hvers
      refine Prog.post_ite (fun _ => ?_) (fun hsup => ?_)
      · exact post_sendError.mpr (.refused ..)
      have hm : OffersVersion m := by
        refine ⟨p, v, release, hp, hv, ?_, ?_⟩
        · rw [hty, not_not.mp harray]
        · rw [hvers, (by simpa using hsup : supports = true)]
      -- the name is read either way, and nothing depends on it
      have haccept : ∀ name : CStr, Post (exec opts env m i) (do
          perform (.modify (Session.accept name))
          if opts.rxAuth then
            let hex ← issueChallenge
            sendOk id (.hello (some hex))
          else
            sendOk id (.hello none))
          (fun _ d' => Outcome opts env m i d (some .hello) d') d := by
        intro name
        rw [Prog.post_bind, post_modify]
        refine Prog.post_ite (fun hauth => ?_) (fun hauth => ?_)
        · simp only [issueChallenge, Prog.post_bind, post_makeNonce, post_modify, post_self,
            Prog.post_pure, post_sendOk]
          intro made d₁ hmade
          exact .auth (.challenged hm hauth name id _ made d₁ hmade)
        · rw [post_sendOk]
          exact .auth (.hello hm (by simpa using hauth) name id)
      simp only [Prog.post_bind, post_tokFindKey]
      intro c _
      cases c with
      | none => exact haccept _
      | some c =>
        simp only [Prog.post_bind, post_tokStr]
        intro name _
        exact (Prog.post_bind ..).mp (haccept name)

/-- The three parameters of `authenticate` are there, or the request is answered with a plain error.
-/
theorem post_authParams {Q : Option (CStr × CStr × CStr) → Daemon → Prop} {id : CStr}
    (hsome : ∀ method keyId response, AuthRequest m method keyId response →
      Q (some (method, keyId, response)) d)
    (hnone : ∀ code message, Q none (d.send i (.error id code message))) :
    Post (exec opts env m i) (authParams id) Q d := by
  simp only [authParams, findParams, Prog.post_bind, post_tokFindKey]
  intro p hp
  cases p with
  | none => exact post_sendError_pure.mpr (hnone _ _)
  | some p =>
    simp only [Prog.post_bind, post_tokFindKey]
    intro mi hmi ki hki ri hri
    cases mi with
    | none => exact post_sendError_pure.mpr (hnone _ _)
    | some mi =>
      cases ri with
      | none => exact post_sendError_pure.mpr (hnone _ _)
      | some ri =>
        simp only [Prog.post_bind, post_tokStr]
        intro method hmethod response hresponse
        cases ki with
        | none =>
          exact (Prog.post_pure ..).mpr (hsome method _ response
            ⟨p, mi, ri, none, hp, hmi, hmethod, hri, hresponse, hki, rfl⟩)
        | some ki =>
          simp only [Prog.post_bind, post_tokStr]
          intro keyId hkeyId
          exact (Prog.post_pure ..).mpr (hsome method keyId response
            ⟨p, mi, ri, some ki, hp, hmi, hmethod, hri, hresponse, hki, hkeyId⟩)

/-- `authenticate`: the session is unlocked, the response is rejected, or there is a plain error. -/
theorem cmdAuthenticate_outcome (id : CStr) :
    Post (exec opts env m i) (cmdAuthenticate opts id)
      (fun _ d' => Outcome opts env m i d (some .authenticate) d') d := by
  rw [cmdAuthenticate]
  refine Prog.post_ite (fun _ => ?_) (fun hauth => ?_)
  · exact post_sendOk.mpr (.answered _ _ rfl (.reports _ (by decide)))
  have hauth : opts.rxAuth = true := by simpa using hauth
  rw [Prog.post_bind]
  refine post_authParams (fun method keyId response hm => ?_)
    (fun code message => (Prog.post_pure ..).mpr (.refused ..))
  simp only [Prog.post_bind, post_monoNs, post_modify, post_checkResponse]
  rcases hok : (d.modify i (Session.refreshWindow env.monoNs)).checkResponse opts i method keyId
    response with ⟨ok, d₁⟩
  cases ok with
  | true =>
    simp only [if_true, Prog.post_bind, post_modify, post_sendOk]
    exact .auth (.unlocked method keyId response id hm hauth d₁ hok)
  | false =>
    simp only [Bool.false_eq_true, if_false, authFailed, Prog.post_bind, post_modify,
      post_makeNonce, post_self, post_send]
    intro made d₂ hmade
    exact .auth (.rejected method keyId response id hm hauth _ made d₁ d₂ hok hmade)

/-! ## Status -/

/-- `get_status`. -/
theorem cmdGetStatus_outcome (id : CStr) (hstate : (d.sessions i).state ≠ .awaitHello) :
    Post (exec opts env m i) (cmdGetStatus id)
      (fun _ d' => Outcome opts env m i d (some .getStatus) d') d := by
  simp only [cmdGetStatus, Prog.post_bind, post_adcLevel, post_sensors, post_self,
    post_rxControlState, post_radio, post_adcOverload, post_sendOk]
  exact .status id _ ⟨rfl, rfl, rfl, rfl, rfl, rfl, rfl, rfl⟩ hstate

/-- `get_control`. -/
theorem cmdGetControl_outcome (id : CStr) :
    Post (exec opts env m i) (cmdGetControl id)
      (fun _ d' => Outcome opts env m i d (some .getControl) d') d := by
  have hdone : ∀ code message, Post (exec opts env m i) (pure ())
      (fun _ d' => Outcome opts env m i d (some .getControl) d') (d.send i (.error id code message)) :=
    fun code message => (Prog.post_pure ..).mpr (.refused ..)
  rw [cmdGetControl, Prog.post_bind]
  refine post_requireFunction (fun p _ _ => ?_) hdone
  rw [Prog.post_bind]
  refine post_channelOk ?_ hdone
  rw [if_neg (by decide)]
  simp only [Prog.post_bind, post_tokFindKey]
  intro ni _
  cases ni with
  | none => exact post_sendError.mpr (.refused ..)
  | some ni =>
    simp only [Prog.post_bind, post_tokStr, post_radio]
    intro name _
    refine Prog.post_ite (fun _ => ?_) fun _ => Prog.post_ite (fun _ => ?_) fun _ =>
      Prog.post_ite (fun _ => ?_) fun _ => Prog.post_ite (fun _ => ?_) fun _ =>
      Prog.post_ite (fun _ => ?_) fun _ => ?_
    all_goals exact post_send.mpr (.answered _ _ rfl (.reports _ (by decide)))

end

/-! ## The side effects of a mode change -/

section
variable {opts : Options} {env : Env} {m : Msg} {i : SessId} {d : Daemon}
  {Q : Unit → Daemon → Prop}

/-- The frequency follows the mode. -/
theorem post_retuneForMode :
    Post (exec opts env m i) retuneForMode Q d ↔ Q () (d.retuneForMode env.device) := by
  simp only [retuneForMode, Prog.post_bind, post_radio, Prog.post_when, post_set,
    post_cpBroadcastEvent, Daemon.retuneForMode, Daemon.moveFrequency]
  split_ifs <;> simp_all

/-- The rate follows the mode. -/
theorem post_resampleForMode :
    Post (exec opts env m i) resampleForMode Q d ↔ Q () (d.resampleForMode env.device) := by
  simp only [resampleForMode, Prog.post_bind, post_radio, Prog.post_when, post_set,
    post_cpBroadcastEvent, Daemon.resampleForMode, Daemon.moveSampleRate]
  split_ifs <;> simp_all

/-- Both, the payload format and the context packets. -/
theorem post_applyModeChangeSideEffects (h : Q () (d.applyModeChangeSideEffects env.device)) :
    Post (exec opts env m i) applyModeChangeSideEffects Q d := by
  simp only [applyModeChangeSideEffects, Prog.post_bind, post_retuneForMode, post_resampleForMode,
    post_radio, post_vitaUpdatePayloadFormat, post_vitaSendContextAll]
  exact h

end

/-! ## Configuration -/

section
variable {opts : Options} {env : Env} {m : Msg} {i : SessId} {d : Daemon}
  (hgate : NamesRx m → d.Unlocked opts i)
include hgate

/-- `set_frequency`. -/
theorem cmdSetFrequency_outcome (id : CStr) :
    Post (exec opts env m i) (cmdSetFrequency id)
      (fun _ d' => Outcome opts env m i d (some .setFrequency) d') d := by
  refine post_configChecks (fun p hp hrx hown => ?_) (fun code message => .refused ..)
  simp only [Prog.post_bind, post_tokFindKey]
  intro fi hfi
  cases fi with
  | none => exact post_sendError.mpr (.refused ..)
  | some fi =>
    simp only [Prog.post_bind, post_tokStr]
    intro text htext
    rcases hread : strtoull text with ⟨f, erange⟩
    refine Prog.post_ite (fun _ => post_sendError.mpr (.refused ..)) (fun hvalid => ?_)
    rw [Prog.post_bind, post_radio]
    refine Prog.post_ite (fun _ => post_sendError.mpr (.refused ..)) (fun hrange => ?_)
    rw [not_or, Bool.not_eq_true, Nat.not_lt] at hvalid
    rw [not_or, Nat.not_lt, Nat.not_lt] at hrange
    have hasked : AsksFrequency m f :=
      ⟨fi, text, ⟨p, hp, hfi⟩, htext, hread.trans (congrArg (Prod.mk f) hvalid.1), hvalid.2⟩
    rw [Prog.post_bind, post_set]
    refine Prog.post_ite (fun hzero => ?_) (fun happlied => ?_)
    · exact post_sendError.mpr (.config (hgate hrx) hown
        (.frequencyFailed _ id _ hzero hasked hrange.1 hrange.2))
    simp only [Prog.post_bind, post_sendOk, post_cpBroadcastEvent]
    exact .config (hgate hrx) hown (.frequency _ id hrange.1 hrange.2 happlied hasked)

/-- `set_sample_rate`. -/
theorem cmdSetSampleRate_outcome (id : CStr) :
    Post (exec opts env m i) (cmdSetSampleRate id)
      (fun _ d' => Outcome opts env m i d (some .setSampleRate) d') d := by
  refine post_configChecks (fun p hp hrx hown => ?_) (fun code message => .refused ..)
  rw [Prog.post_bind, post_self]
  refine Prog.post_ite (fun _ => ?_) (fun hstate => ?_)
  · exact post_sendError.mpr (.refused ..)
  simp only [Prog.post_bind, post_tokFindKey]
  intro ri hri
  cases ri with
  | none => exact post_sendError.mpr (.refused ..)
  | some ri =>
    simp only [Prog.post_bind, post_tokStr, post_radio]
    intro text htext
    refine Prog.post_ite (fun _ => ?_) (fun hlist => ?_)
    · exact post_sendError.mpr (.refused ..)
    rw [Prog.post_bind, post_set]
    have hlist := not_not.mp hlist
    have hasked : AsksRate m ((strtoull text).1 % 2 ^ 32) := ⟨ri, text, ⟨p, hp, hri⟩, htext, rfl⟩
    refine Prog.post_ite (fun hzero => ?_) (fun happlied => ?_)
    · exact post_sendError.mpr (.config (hgate hrx) hown (.sampleRateFailed _ id _ hlist hzero hasked))
    simp only [Prog.post_bind, post_sendOk, post_cpBroadcastEvent]
    obtain ⟨hstate, hstate'⟩ := not_or.mp hstate
    exact .config (hgate hrx) hown (.sampleRate _ id hstate hstate' hlist happlied hasked)

variable (hrx : NamesRx m) (hown : d.rxOwnedByOther i = false)
include hrx hown

section
variable {vi : ℕ} {valstr : CStr} (hvalue : HasValue m vi valstr)
include hvalue

/-- `set_control` for `rf_gain`. -/
theorem setRfGain_outcome (id : CStr) (hname : NamesControl m .rfGain) :
    Post (exec opts env m i) (setRfGain opts id vi valstr)
      (fun _ d' => Outcome opts env m i d (some .setControl) d') d := by
  rw [setRfGain, Prog.post_bind]
  refine post_tokIsNumeric (fun hnumeric => ?_) (post_sendError.mpr (.refused ..))
  rw [if_neg (by decide), Prog.post_bind, post_radio]
  refine Prog.post_ite (fun hagc => ?_) (fun hagc => ?_)
  · simp only [Prog.post_bind, post_radio, post_sendOk]
    exact .answered _ _ rfl (.automatic _ hname hagc)
  refine Prog.post_ite (fun _ => ?_) (fun hlist => ?_)
  · exact post_sendError.mpr (.refused ..)
  simp only [Prog.post_bind, post_set, post_sendOk, post_vitaSendContextAll,
    post_cpBroadcastEvent]
  exact .config (hgate hrx) hown
    (.rfGain _ id (by simpa using hagc) (by simpa using hlist) _ rfl
      ⟨hname, vi, valstr, hvalue, hnumeric, rfl⟩)

/-- `set_control` for `bias_tee`. -/
theorem setBiasTee_outcome (id : CStr) (hname : NamesControl m .biasTee) :
    Post (exec opts env m i) (setBiasTee id vi valstr)
      (fun _ d' => Outcome opts env m i d (some .setControl) d') d := by
  rw [setBiasTee, Prog.post_bind]
  refine post_tokIsNumeric (fun hnumeric => ?_) (post_sendError.mpr (.refused ..))
  rw [if_neg (by decide)]
  refine Prog.post_ite (fun _ => post_sendError.mpr (.refused ..)) (fun hvolts => ?_)
  -- one of the two published voltages has been read
  have hasked : AsksBiasTee m (strtod valstr = .finite rtlBiasTeeVolts) := by
    refine ⟨hname, vi, valstr, hvalue, hnumeric, ?_⟩
    by_cases hfive : strtod valstr = .finite rtlBiasTeeVolts
    · rw [decide_eq_true hfive]
      exact hfive
    · rw [decide_eq_false hfive]
      exact not_not.mp ((not_and_or.mp hvolts).resolve_right fun h => hfive (not_not.mp h))
  rw [Prog.post_bind, post_set]
  refine Prog.post_ite (fun hrc => ?_) (fun hrc => ?_)
  · exact post_sendError.mpr (.config (hgate hrx) hown (.biasTeeFailed _ id _ hrc hasked))
  simp only [Prog.post_bind, post_radio, post_sendOk, post_cpBroadcastEvent]
  exact .config (hgate hrx) hown (.biasTee _ id _ (Prod.ext (not_not.mp hrc) rfl) hasked)

/-- `set_control` for `ppm_correction`. -/
theorem setPpmCorrection_outcome (id : CStr) (hname : NamesControl m .ppmCorrection) :
    Post (exec opts env m i) (setPpmCorrection id vi valstr)
      (fun _ d' => Outcome opts env m i d (some .setControl) d') d := by
  rw [setPpmCorrection, Prog.post_bind]
  refine post_tokIsNumeric (fun hnumeric => ?_) (post_sendError.mpr (.refused ..))
  rw [if_neg (by decide)]
  refine Prog.post_ite (fun _ => post_sendError.mpr (.refused ..)) (fun hrange => ?_)
  rw [not_or, Int.not_lt, Int.not_lt] at hrange
  simp only [Prog.post_bind, post_set, post_radio, post_sendOk, post_cpBroadcastEvent]
  exact .config (hgate hrx) hown
    (.ppm _ id _ rfl ⟨hname, vi, valstr, hvalue, hnumeric, rfl⟩ hrange)

end

/-- `set_control` for `agc`. -/
theorem setAgc_outcome (id : CStr) (vi : ℕ) (hname : NamesControl m .agc) :
    Post (exec opts env m i) (setAgc id vi)
      (fun _ d' => Outcome opts env m i d (some .setControl) d') d := by
  rw [setAgc, Prog.post_bind]
  refine post_of_reads (uses_tokIsBool vi) fun _ => ?_
  refine Prog.post_ite (fun _ => ?_) (fun _ => ?_)
  · exact post_sendError.mpr (.refused ..)
  simp only [Prog.post_bind, post_tokIsPrimitive, post_set, post_sendOk, post_vitaSendContextAll,
    post_cpBroadcastEvent]
  intro en _
  exact .config (hgate hrx) hown (.agc en id _ rfl hname)

/-- `set_control` for `direct_sampling`. -/
theorem setDirectSampling_outcome (id : CStr) (vi : ℕ) (valstr : CStr)
    (hname : NamesControl m .directSampling) :
    Post (exec opts env m i) (setDirectSampling id vi valstr)
      (fun _ d' => Outcome opts env m i d (some .setControl) d') d := by
  simp only [setDirectSampling, Prog.post_bind, post_tokType]
  intro ty _
  refine Prog.post_ite (fun _ => ?_) (fun _ => ?_)
  · exact post_sendError.mpr (.refused ..)
  rw [Prog.post_bind]
  refine post_of_reads (uses_tokMode vi) fun mode => ?_
  cases mode with
  | none => exact post_sendError.mpr (.refused ..)
  | some mode =>
    simp only [Prog.post_bind, post_radio]
    refine Prog.post_ite (fun _ => ?_) (fun hmode => ?_)
    · exact post_sendOk.mpr (.answered _ _ rfl (.sameMode _ hname))
    rw [Prog.post_bind, post_self]
    refine Prog.post_ite (fun _ => ?_) (fun hopen => ?_)
    · exact post_sendError.mpr (.refused ..)
    rw [Prog.post_bind, post_set]
    refine Prog.post_ite (fun hrc => ?_) (fun hrc => ?_)
    · exact post_sendError.mpr (.config (hgate hrx) hown (.directSamplingFailed _ id _ hrc hname))
    simp only [Prog.post_bind, post_sendOk, post_cpBroadcastEvent]
    refine post_applyModeChangeSideEffects ?_
    exact .config (hgate hrx) hown
      (.directSampling mode id hmode (by simpa using hopen) _ (Prod.ext (not_not.mp hrc) rfl) hname)

omit hrx hown in
/-- `set_control`: one of the five controls, or a plain error. -/
theorem cmdSetControl_outcome (id : CStr) :
    Post (exec opts env m i) (cmdSetControl opts id)
      (fun _ d' => Outcome opts env m i d (some .setControl) d') d := by
  refine post_configChecks (fun p hp hrx hown => ?_) (fun code message => .refused ..)
  simp only [Prog.post_bind, post_tokFindKey]
  intro ni hni vi hvi
  cases ni with
  | none => exact post_sendError.mpr (.refused ..)
  | some ni =>
    cases vi with
    | none => exact post_sendError.mpr (.refused ..)
    | some vi =>
      simp only [Prog.post_bind, post_tokStr]
      intro name hname valstr htext
      have hvalue : HasValue m vi valstr := ⟨⟨p, hp, hvi⟩, htext⟩
      have hnamed : ∀ {c : ControlName}, name = c.text → NamesControl m c := fun hc =>
        ⟨ni, ⟨p, hp, hni⟩, by rw [hname, hc]⟩
      refine Prog.post_ite (fun h => setRfGain_outcome hgate hrx hown hvalue id (hnamed h)) fun _ => ?_
      refine Prog.post_ite (fun h => setAgc_outcome hgate hrx hown id vi (hnamed h)) fun _ => ?_
      refine Prog.post_ite (fun h => setBiasTee_outcome hgate hrx hown hvalue id (hnamed h)) fun _ => ?_
      refine Prog.post_ite
        (fun h => setPpmCorrection_outcome hgate hrx hown hvalue id (hnamed h)) fun _ => ?_
      refine Prog.post_ite
        (fun h => setDirectSampling_outcome hgate hrx hown id vi valstr (hnamed h)) fun _ => ?_
      exact post_sendError.mpr (.refused ..)

end

/-! ## Streams -/

section
variable {opts : Options} {env : Env} {m : Msg} {i : SessId} {d : Daemon}

/-- The channel is released, and the others told of it where it was the session's. -/
theorem post_cpRxRelease {Q : Unit → Daemon → Prop} :
    Post (exec opts env m i) cpRxRelease Q d ↔ Q () (d.rxRelease i) := by
  simp only [cpRxRelease, Prog.post_bind, post_rxReleaseLocked, Prog.post_when,
    post_cpBroadcastEventExcept, Daemon.rxRelease]
  cases h : (d.rxReleaseLocked i).1 <;> simp

/-- The last stream stops the reader. -/
theorem post_stopReading {Q : Unit → Daemon → Prop} :
    Post (exec opts env m i) stopReading Q d ↔ Q () d.stopReading := by
  simp only [stopReading, rtlBridgeStop, Prog.post_bind, post_bridgeStopLocked, Prog.post_when,
    post_pthreadJoin, post_resetAdcLevel, Daemon.stopReading]
  cases h : d.bridgeStopLocked.1 <;> simp

/-- The session's slot, if it has one, is removed. -/
theorem post_removeVita {Q : Unit → Daemon → Prop} :
    Post (exec opts env m i) (removeVita (d.sessions i).vitaToken) Q d ↔ Q () (d.removeVita i) := by
  simp only [removeVita, Prog.post_when, Prog.post_bind, post_vitaSessionRemove, post_modify,
    Daemon.removeVita]
  split_ifs with h <;> simp [h]

/-- The error exits after the channel has been claimed. -/
theorem post_refuseStream {Q : Option (CStr × List ℕ × ℕ) → Daemon → Prop} {id : CStr}
    {code : ErrorCode} {message : String} :
    Post (exec opts env m i) (refuseStream id code message) Q d ↔
      Q none ((d.rxRelease i).send i (.error id code (bytes message))) := by
  simp only [refuseStream, Prog.post_bind, post_cpRxRelease, post_sendError, Prog.post_pure]

/-- There is such an object, or nothing is found. -/
theorem post_findObject {Q : Option ℕ → Daemon → Prop} {obj : ℕ} {key : String}
    (hsome : ∀ v, m.tokFindKey obj (bytes key) = some (some v) → m.tokType v = some .object →
      Q (some v) d) (hnone : Q none d) : Post (exec opts env m i) (findObject obj key) Q d := by
  simp only [findObject, Prog.post_bind, post_tokFindKey]
  intro v hv
  cases v with
  | none => exact (Prog.post_pure ..).mpr hnone
  | some v =>
    simp only [Prog.post_bind, post_tokType]
    intro ty hty
    refine Prog.post_ite (fun _ => (Prog.post_pure ..).mpr hnone) (fun hobj => ?_)
    exact (Prog.post_pure ..).mpr (hsome v hv (hty.trans (congrArg some (not_not.mp hobj))))

/-- Reading the profiles only reads. -/
theorem uses_profileRefused (vi : ℕ) : (profileRefused vi).Uses fun _ o => o.Reads := by
  refine ⟨trivial, fun pv => ?_⟩
  cases pv with
  | none => trivial
  | some pv => exact ⟨trivial, fun _ => trivial⟩

/-- Reading a format only reads. -/
theorem uses_formatMatches (fmtI : ℕ) : (formatMatches fmtI).Uses fun _ o => o.Reads := by
  refine ⟨trivial, fun lbl => ⟨trivial, fun enc => ⟨trivial, fun bits => ?_⟩⟩⟩
  have hrest : ∀ u8Label : Bool,
      Prog.Uses (fun _ o => Op.Reads o) (formatMatches.unlabelled enc bits u8Label) := by
    intro u8Label
    refine Prog.Uses.ite trivial ?_
    cases enc with
    | none => trivial
    | some enc =>
      cases bits with
      | none => exact ⟨trivial, fun _ => trivial⟩
      | some bits =>
        exact ⟨trivial, fun _ => Prog.Uses.ite trivial ⟨trivial, fun _ => trivial⟩⟩
  cases lbl with
  | none => exact hrest false
  | some lbl => exact ⟨trivial, hrest⟩

/-- Reading the formats only reads. -/
theorem uses_formatRefused (vi : ℕ) : (formatRefused vi).Uses fun _ o => o.Reads := by
  refine ⟨trivial, fun fmtI => ?_⟩
  cases fmtI with
  | none => trivial
  | some fmtI =>
    exact ⟨trivial, fun _ => Prog.Uses.ite trivial
      ((uses_formatMatches fmtI).bind fun _ => trivial)⟩

/-- The checks of `cmd_open_stream` pass without a trace, or release the channel and answer an
error. -/
theorem post_streamDestination {Q : Option (CStr × List ℕ × ℕ) → Daemon → Prop} {id : CStr}
    {p : ℕ} (hp : m.tokFindKey 0 (bytes "params") = some (some p))
    (hsome : ∀ ip addr port, NamesDestination m addr port → Q (some (ip, addr, port)) d)
    (hnone : ∀ code message, Q none ((d.rxRelease i).send i (.error id code message))) :
    Post (exec opts env m i) (streamDestination id p) Q d := by
  simp only [streamDestination, Prog.post_bind, post_tokFindKey]
  -- each check that fails releases the channel and answers with an error
  intro protoI _
  cases protoI with
  | none => exact post_refuseStream.mpr (hnone _ _)
  | some protoI =>
    simp only [Prog.post_bind, post_tokEq]
    intro vita49 _
    refine Prog.post_ite (fun _ => post_refuseStream.mpr (hnone _ _)) (fun _ => ?_)
    rw [Prog.post_bind]
    refine post_findObject (fun vi hvi hobj => ?_) ?_
    swap
    · simp only [Prog.post_bind, post_cpRxRelease, post_tokFindKey]
      intro _ _
      refine Prog.post_ite (fun _ => ?_) (fun _ => ?_)
      · exact post_sendError_pure.mpr (hnone _ _)
      · exact post_sendError_pure.mpr (hnone _ _)
    rw [Prog.post_bind]
    refine post_of_reads (uses_profileRefused vi) fun _ => ?_
    refine Prog.post_ite (fun _ => post_refuseStream.mpr (hnone _ _)) (fun _ => ?_)
    rw [Prog.post_bind]
    refine post_of_reads (uses_formatRefused vi) fun _ => ?_
    refine Prog.post_ite (fun _ => post_refuseStream.mpr (hnone _ _)) (fun _ => ?_)
    rw [Prog.post_bind]
    refine post_findObject (fun destI hdest hobj' => ?_) (post_refuseStream.mpr (hnone _ _))
    simp only [Prog.post_bind, post_tokFindKey]
    intro ipI hipI portI hportI
    cases ipI with
    | none => exact post_refuseStream.mpr (hnone _ _)
    | some ipI =>
      cases portI with
      | none => exact post_refuseStream.mpr (hnone _ _)
      | some portI =>
        simp only [Prog.post_bind, post_tokStr]
        intro ipStr hip portStr hport
        cases haddr : inetPton ipStr with
        | none => exact post_refuseStream.mpr (hnone _ _)
        | some addr =>
          refine Prog.post_ite (fun _ => post_refuseStream.mpr (hnone _ _)) (fun hrange => ?_)
          obtain ⟨hzero, hmax⟩ := not_or.mp hrange
          exact (Prog.post_pure ..).mpr (hsome _ _ _ ⟨vi, destI, ipI, portI, ipStr, portStr,
            ⟨p, hp, hvi⟩, hobj, hdest, hobj', hipI, hip, haddr, hportI, hport, rfl,
            Nat.one_le_iff_ne_zero.mpr hzero, not_lt.mp hmax⟩)

/-- `open_stream`: the channel is claimed, and kept where the parameters are good. -/
theorem cmdOpenStream_outcome (hgate : NamesRx m → d.Unlocked opts i) (id : CStr) :
    Post (exec opts env m i) (cmdOpenStream id)
      (fun _ d' => Outcome opts env m i d (some .openStream) d') d := by
  have hdone : ∀ code message, Post (exec opts env m i) (pure ())
      (fun _ d' => Outcome opts env m i d (some .openStream) d') (d.send i (.error id code message)) :=
    fun code message => (Prog.post_pure ..).mpr (.refused ..)
  rw [cmdOpenStream, Prog.post_bind]
  refine post_requireFunction (fun p hp hrx => ?_) hdone
  rw [Prog.post_bind]
  refine post_channelOk ?_ hdone
  rw [if_neg (by decide), Prog.post_bind, post_self]
  refine Prog.post_ite (fun _ => ?_) (fun hopen => ?_)
  · exact post_sendError.mpr (.refused ..)
  -- the session has no stream open, and claims the channel
  have hopen : (d.sessions i).streamOpen = false := by simpa using hopen
  rw [Prog.post_bind, post_rxClaim]
  rcases hclaim : d.rxClaim i with ⟨ok, d₁⟩
  refine Prog.post_ite (fun hno => ?_) (fun hok => ?_)
  · -- a refused claim leaves the state alone
    have hd₁ : d₁ = d := by
      have hno : ok = false := by simpa using hno
      rw [hno] at hclaim
      unfold Daemon.rxClaim at hclaim
      split_ifs at hclaim with hfree
      · exact absurd (Prod.mk.inj hclaim).1 (by decide)
      · exact (Prod.mk.inj hclaim).2.symm
    rw [hd₁]
    exact post_sendError.mpr (.refused ..)
  have hok : ok = true := by simpa using hok
  rw [hok] at hclaim
  rw [Prog.post_bind]
  refine post_streamDestination hp (fun ipStr addr port hdest => ?_) (fun code message => ?_)
  -- the parameters are good: the stream is opened, and the reply describes the receiver
  · simp only [openChecked, Prog.post_bind, post_allocStreamId, post_modify, post_srcIp,
      post_radio, post_sendOk, post_cpBroadcastEventExcept]
    have hradio : d₁.radio = d.radio := by
      unfold Daemon.rxClaim at hclaim
      split_ifs at hclaim
      · obtain ⟨-, rfl⟩ := Prod.mk.inj hclaim
        rfl
      · exact absurd (Prod.mk.inj hclaim).1 (by decide)
    refine .stream (hgate hrx) (.opened hopen d₁ hclaim addr port id _ ⟨?_, ?_⟩ hdest)
    · exact congrArg Radio.rateSps hradio
    · exact congrArg (fun r => samplingModeSignalType (Radio.samplingMode r)) hradio
  · exact (Prog.post_pure ..).mpr
      (.stream (hgate hrx) (.refused hopen d₁ hclaim id code message))

/-- There is an open stream, and the id is its own, or the request is answered with a plain error.
-/
theorem post_requireStream {Q : Option Session → Daemon → Prop} {id : CStr}
    (hsome : (d.sessions i).streamOpen = true → Q (some (d.sessions i)) d)
    (hnone : ∀ code message, Q none (d.send i (.error id code message))) :
    Post (exec opts env m i) (requireStream id) Q d := by
  simp only [requireStream, findParams, Prog.post_bind, post_tokFindKey]
  intro p _
  cases p with
  | none => exact post_sendError_pure.mpr (hnone _ _)
  | some p =>
    simp only [Prog.post_bind, post_tokFindKey]
    intro si _
    cases si with
    | none => exact post_sendError_pure.mpr (hnone _ _)
    | some si =>
      simp only [Prog.post_bind, post_tokStr, post_self]
      intro sid _
      refine Prog.post_ite (fun _ => ?_) (fun h => ?_)
      · exact post_sendError_pure.mpr (hnone _ _)
      · exact (Prog.post_pure ..).mpr (hsome (by simpa using (not_or.mp h).1))

variable (hunl : d.Unlocked opts i)
include hunl

/-- `start_rx`: a slot is added and the reader started, or what has been done is undone. -/
theorem cmdStartRx_outcome (id : CStr) :
    Post (exec opts env m i) (cmdStartRx id)
      (fun _ d' => Outcome opts env m i d (some .startRx) d') d := by
  rw [cmdStartRx, Prog.post_bind]
  refine post_requireStream (fun hopen => ?_)
    (fun code message => (Prog.post_pure ..).mpr (.refused ..))
  refine Prog.post_ite (fun _ => ?_) (fun hstate => ?_)
  · exact post_sendOk.mpr (.answered _ _ rfl (.reports _ (by decide)))
  simp only [Prog.post_bind, post_radio, post_vitaSessionAdd, post_modify]
  refine Prog.post_ite (fun htoken => ?_) (fun htoken => ?_)
  · exact post_sendError.mpr (.stream hunl (.startBusy hopen hstate _ htoken id _))
  rw [Prog.post_bind, post_bridgeStart]
  rcases hstart : ((d.vitaApply (.add (d.streamParams env.time (d.sessions i)
    (samplingModePayloadFmt d.radio.samplingMode)))).modify i (Session.setToken
      (vitaSessionAdd (d.streamParams env.time (d.sessions i)
        (samplingModePayloadFmt d.radio.samplingMode)) d.vita).1)).bridgeStart
    env.pthreadCreate with ⟨ok, d₁⟩
  cases ok with
  | false =>
    simp only [Bool.not_false, if_true, Prog.post_bind, post_vitaSessionRemove, post_modify,
      post_sendError]
    exact .stream hunl (.startFailed hopen hstate _ (not_lt.mp htoken) d₁ hstart id _)
  | true =>
    simp only [Bool.not_true, Bool.false_eq_true, if_false, Prog.post_bind, post_modify,
      post_sendOk, post_sendEvent]
    exact .stream hunl (.started hopen hstate _ rfl (not_lt.mp htoken) d₁ hstart id)

/-- `stop_rx`. -/
theorem cmdStopRx_outcome (id : CStr) :
    Post (exec opts env m i) (cmdStopRx id)
      (fun _ d' => Outcome opts env m i d (some .stopRx) d') d := by
  rw [cmdStopRx, Prog.post_bind]
  refine post_requireStream (fun hopen => ?_)
    (fun code message => (Prog.post_pure ..).mpr (.refused ..))
  refine Prog.post_ite (fun _ => ?_) (fun hstate => ?_)
  · exact post_sendOk.mpr (.answered _ _ rfl (.reports _ (by decide)))
  simp only [Prog.post_bind, post_removeVita, post_stopReading, post_modify, post_sendOk,
    post_sendEvent]
  exact .stream hunl (.stopped hopen (not_not.mp hstate) id)

/-- `close_stream`, of a stream that runs or does not. -/
theorem cmdCloseStream_outcome (id : CStr) :
    Post (exec opts env m i) (cmdCloseStream id)
      (fun _ d' => Outcome opts env m i d (some .closeStream) d') d := by
  rw [cmdCloseStream, Prog.post_bind]
  refine post_requireStream (fun hopen => ?_)
    (fun code message => (Prog.post_pure ..).mpr (.refused ..))
  simp only [Prog.post_bind, post_removeVita, Prog.post_when, post_stopReading, post_modify,
    post_cpRxRelease, post_sendOk, post_sendEvent, decide_eq_true_eq, decide_eq_false_iff_not]
  refine ⟨fun hstate => ⟨fun _ => ?_, fun h => absurd hstate h⟩,
    fun hstate => ⟨fun h => absurd h hstate, fun _ => ?_⟩⟩
  · exact .stream hunl (.closedStreaming hopen hstate id)
  · exact .stream hunl (.closed hopen hstate id)

end

/-! ## The end of a session -/

section
variable {opts : Options} {env : Env} {m : Msg} {i : SessId} {d : Daemon}

/-- The end of a session as one change of the state. -/
theorem post_sessionDestroy {Q : Unit → Daemon → Prop} :
    Post (exec opts env m i) (sessionDestroy opts) Q d ↔ Q () (d.destroy opts env.device i) := by
  simp only [sessionDestroy, Prog.post_bind, post_self, post_removeVita, Prog.post_when,
    post_stopReading, post_cpBroadcastEventExcept, post_cpRxRelease, post_radio, post_set,
    Prog.post_pure, post_freeSession, Daemon.destroy, Daemon.endStream, Daemon.biasTeeFallback,
    decide_eq_true_eq, decide_eq_false_iff_not]
  split_ifs <;> simp_all

end

/-! ## One message -/

/-- The commands that `cmd_addresses_rx` takes to address the receiver, given the message. -/
def Command.AddressesRx (m : Msg) : Command → Prop
  | .startRx | .stopRx | .closeStream => True
  | .setFrequency | .setSampleRate | .setControl | .openStream => NamesRx m
  | _ => False

section
variable {opts : Options} {env : Env} {m : Msg} {i : SessId} {d : Daemon}

/-- Which function a request addresses is only read. -/
theorem uses_cmdAddressesRx (cmd : CStr) : (cmdAddressesRx cmd).Uses fun _ o => o.Reads := by
  refine Prog.Uses.ite trivial (Prog.Uses.ite trivial ⟨trivial, fun p => ?_⟩)
  cases p with
  | none => trivial
  | some p =>
    refine ⟨trivial, fun f => ?_⟩
    cases f with
    | none => trivial
    | some f => exact ⟨trivial, fun _ => trivial⟩

/-- The gate finds every command that addresses the receiver. -/
theorem cmdAddressesRx_run (c : Command) (hc : c.AddressesRx m) :
    (cmdAddressesRx c.name).run (exec opts env m i) d = some (true, d) := by
  have hnamed : NamesRx m → (do
      let some p ← findParams | return false
      let some f ← perform (.tokFindKey p "function") | return false
      perform (.tokEq f "rx") : Prog Op Bool).run (exec opts env m i) d = some (true, d) := by
    rintro ⟨p, f, hp, hf, hrx⟩
    have hparams : findParams.run (exec opts env m i) d = some (some p, d) := by
      rw [findParams, Prog.run_perform, exec, hp]
      rfl
    have hfunction : (perform (.tokFindKey p "function") : Prog Op (Option ℕ)).run
        (exec opts env m i) d = some (some f, d) := by
      rw [Prog.run_perform, exec, hf]
      rfl
    rw [Prog.run_bind, hparams, Option.bind_some]
    show (perform (Op.tokFindKey p "function") >>= _ : Prog Op Bool).run _ d = _
    rw [Prog.run_bind, hfunction, Option.bind_some]
    show (perform (Op.tokEq f "rx")).run _ d = _
    rw [Prog.run_perform, exec, hrx]
    rfl
  cases c with
  | startRx | stopRx | closeStream =>
    rw [cmdAddressesRx, if_pos (by decide +kernel)]
    rfl
  | setFrequency | setSampleRate | setControl | openStream =>
    rw [cmdAddressesRx, if_neg (by decide +kernel), if_neg (by decide +kernel)]
    exact hnamed hc
  | _ => exact absurd hc id

/-- A command is `hello` if its name is. -/
theorem Command.eq_hello (c : Command) (h : c.name = bytes "hello") : c = .hello := by
  cases c with
  | hello => rfl
  | _ => exact absurd h (by decide)

/-- What is known after the checks of the envelope: the message has been answered or ignored, or it
is dispatched to a command that its session may use. -/
def EnvelopeSpec (opts : Options) (env : Env) (m : Msg) (i : SessId) (d : Daemon) :
    Option (Command × CStr) → Daemon → Prop
  | none, d' => Outcome opts env m i d none d'
  | some (c, _), d' => d' = d ∧ (c.AddressesRx m → d.Unlocked opts i) ∧
      ((d.sessions i).state = .awaitHello → c = .hello)

/-- The envelope of a message: nothing, a plain reply, or a command for the table. -/
theorem envelope_spec (ntok : ℤ) :
    Post (exec opts env m i) (envelope opts ntok) (EnvelopeSpec opts env m i d) d := by
  have hanswer : ∀ p : Prog Op Unit, (∃ f, Frame.plain f = true ∧ p = perform (.send f)) →
      Post (exec opts env m i) (do p; return none : Prog Op (Option (Command × CStr)))
        (EnvelopeSpec opts env m i d) d := by
    rintro _ ⟨f, hf, rfl⟩
    rw [Prog.post_bind, post_send, Prog.post_pure]
    exact Outcome.answered none f hf (.reports f (by decide))
  have herror : ∀ id code message, Post (exec opts env m i)
      (do sendError id code message; return none : Prog Op (Option (Command × CStr)))
      (EnvelopeSpec opts env m i d) d :=
    fun id code message => hanswer _ ⟨_, rfl, rfl⟩
  unfold envelope
  refine Prog.post_ite (fun _ => herror _ _ _) (fun _ => ?_)
  simp only [Prog.post_bind, post_tokType]
  intro ty _
  refine Prog.post_ite (fun _ => herror _ _ _) (fun _ => ?_)
  simp only [Prog.post_bind, post_tokFindKey]
  intro idxType _ idxId _ idxCommand _
  cases idxType with
  | none => exact herror _ _ _
  | some idxType =>
    cases idxId with
    | none => exact herror _ _ _
    | some idxId =>
      cases idxCommand with
      | none => exact herror _ _ _
      | some idxCommand =>
        simp only [Prog.post_bind, post_tokEq]
        intro isRequest _
        refine Prog.post_ite (fun _ => (Prog.post_pure ..).mpr Outcome.ignored) (fun _ => ?_)
        simp only [Prog.post_bind, post_tokStr, post_self]
        intro id _ cmd _
        refine Prog.post_ite (fun _ => herror _ _ _) (fun hfirst => ?_)
        -- a command that addresses the receiver gets past the gate only when it is open
        have hrest : ∀ gated : Bool, (∀ c : Command, c.name = cmd → c.AddressesRx m →
            gated = false → d.Unlocked opts i) → Post (exec opts env m i)
            (envelope.dispatch opts id cmd gated) (EnvelopeSpec opts env m i d) d := by
          intro gated hgated
          unfold envelope.dispatch
          refine Prog.post_ite (fun _ => hanswer _ ?_) (fun hopen => ?_)
          · unfold sendUnauthorized
            split_ifs
            · exact ⟨_, rfl, rfl⟩
            · exact ⟨_, rfl, rfl⟩
          cases hfind : dispatchTable.find? (·.name = cmd) with
          | none => exact herror _ _ _
          | some c =>
            have hname : c.name = cmd := by simpa using List.find?_some hfind
            exact (Prog.post_pure ..).mpr
              ⟨rfl, fun hc => hgated c hname hc (by simpa using hopen), fun hstate =>
                c.eq_hello (hname.trans (by simpa [hstate] using hfirst))⟩
        refine Prog.post_ite (fun _ => ?_) (fun hunlocked => ?_)
        · rw [Prog.post_bind]
          intro gated d₁ hrun
          obtain rfl : d₁ = d := post_of_reads (Q := fun _ d' => d' = d)
            (uses_cmdAddressesRx cmd) (fun _ => rfl) gated d₁ hrun
          refine hrest gated fun c hname hc hfalse => ?_
          rw [← hname, cmdAddressesRx_run c hc] at hrun
          cases hrun
          cases hfalse
        · refine hrest false fun c _ _ _ hauth => ?_
          by_contra hlocked
          exact hunlocked ⟨hauth, by simpa using hlocked⟩

variable (opts env m i) in
/-- The command that a message is dispatched to, if it is dispatched. -/
def dispatched (ntok : ℤ) (d : Daemon) : Option (Option Command) :=
  ((envelope opts ntok).run (exec opts env m i) d).map fun r => r.1.map Prod.fst

/-- A message does what its command does; a command that is not dispatched does nothing. -/
theorem handleMessage_outcome {ntok : ℤ} {u : Unit} {d' : Daemon}
    (h : (handleMessage opts ntok).run (exec opts env m i) d = some (u, d')) :
    ∃ c, dispatched opts env m i ntok d = some c ∧ Outcome opts env m i d c d' := by
  rw [handleMessage, Prog.run_bind, Option.bind_eq_some_iff] at h
  obtain ⟨⟨r, d₁⟩, henv, hfn⟩ := h
  -- the command that is looked up is the one the model names beside the outcome
  have hdisp : dispatched opts env m i ntok d = some (r.map Prod.fst) := by
    rw [dispatched, henv]
    rfl
  have hspec := envelope_spec ntok r d₁ henv
  refine ⟨_, hdisp, ?_⟩
  rcases r with _ | ⟨c, id⟩
  · cases hfn
    exact hspec
  -- the envelope has answered what it refuses, so the handler runs in the state it got
  obtain ⟨rfl, hgate, hfirst⟩ := hspec
  suffices hpost : Post (exec opts env m i) (c.fn opts id)
      (fun _ d' => Outcome opts env m i d₁ (some c) d') d₁ from hpost u d' hfn
  cases c with
  | hello => exact cmdHello_outcome id
  | authenticate => exact cmdAuthenticate_outcome id
  | getCapabilities =>
    simp only [Command.fn, cmdGetCapabilities, Prog.post_bind, post_radio, post_sendOk]
    exact .answered _ _ rfl (.reports _ (by decide))
  | setFrequency => exact cmdSetFrequency_outcome hgate id
  | setSampleRate => exact cmdSetSampleRate_outcome hgate id
  | setControl => exact cmdSetControl_outcome hgate id
  | openStream => exact cmdOpenStream_outcome hgate id
  | startRx => exact cmdStartRx_outcome (hgate trivial) id
  | stopRx => exact cmdStopRx_outcome (hgate trivial) id
  | closeStream => exact cmdCloseStream_outcome (hgate trivial) id
  | ping => exact post_sendOk.mpr (.answered _ _ rfl (.reports _ (by decide)))
  | getStatus => exact cmdGetStatus_outcome id fun h => absurd (hfirst h) (by decide)
  | getControl => exact cmdGetControl_outcome id
  | getClockStatus =>
    simp only [Command.fn, cmdGetClockStatus, Prog.post_bind, post_utcNow, post_sendOk]
    exact .answered _ _ rfl (.reports _ (by decide))

end

/-! ## One step -/

section
variable {opts : Options} {env : Env} {i : SessId} {d d' : Daemon}

/-- The thread's end is the end of its session. -/
theorem disconnect_eq (opts : Options) (i : SessId) (env : Env) (d : Daemon) :
    d.disconnect opts i env = some (d.destroy opts env.device i) := by
  rw [Daemon.disconnect, Prog.run_of_post fun Q => post_sessionDestroy]
  rfl

/-- The message that a session's thread reads when it has received a frame. -/
def Daemon.received (i : SessId) (frame : List UInt8) (env : Env) (d : Daemon) : Msg :=
  (d.tokenise i frame).message i env

/-- The command that a frame is dispatched to, if it is dispatched. -/
def Daemon.command (opts : Options) (i : SessId) (frame : List UInt8) (env : Env) (d : Daemon) :
    Option (Option Command) :=
  dispatched opts env (d.received i frame env) i (jsmnParse frame (d.tokens i)).1
    (d.tokenise i frame)

/-- A frame is handled, and then the session ends if the handler asks for it. -/
theorem request_run {frame : List UInt8} (h : d.request opts i frame env = some d') :
    ∃ d₁, (handleMessage opts (jsmnParse frame (d.tokens i)).1).run
        (exec opts env (d.received i frame env) i) (d.tokenise i frame) = some ((), d₁) ∧
      d' = if (d₁.sessions i).closeAfterReply then d₁.destroy opts env.device i else d₁ := by
  rw [Daemon.request, Option.map_eq_some_iff] at h
  obtain ⟨⟨u, d''⟩, hrun, rfl⟩ := h
  rw [sessionRound, Prog.run_bind, Option.bind_eq_some_iff] at hrun
  obtain ⟨⟨u₁, d₁⟩, hmsg, hend⟩ := hrun
  refine ⟨d₁, hmsg, ?_⟩
  have hpost : Post (exec opts env (d.received i frame env) i) (do
      let s ← perform .self
      when s.closeAfterReply (sessionDestroy opts))
      (fun _ d' => d' = if (d₁.sessions i).closeAfterReply then d₁.destroy opts env.device i
        else d₁) d₁ := by
    rw [Prog.post_bind, post_self, Prog.post_when, post_sessionDestroy]
    exact ⟨fun hclose => (if_pos hclose).symm, fun hclose => by simp [hclose]⟩
  exact hpost u d'' hend

/-- What a frame does: the outcome of its message, and the end of the session if that asks for
it. -/
theorem request_outcome {frame : List UInt8} (h : d.request opts i frame env = some d') :
    ∃ c d₁, d.command opts i frame env = some c ∧
      Outcome opts env (d.received i frame env) i (d.tokenise i frame) c d₁ ∧
      d' = if (d₁.sessions i).closeAfterReply then d₁.destroy opts env.device i else d₁ := by
  obtain ⟨d₁, hmsg, hd'⟩ := request_run h
  obtain ⟨c, hc, hout⟩ := handleMessage_outcome hmsg
  exact ⟨c, d₁, hc, hout, hd'⟩

/-- What a step does. -/
inductive Stepped (opts : Options) (d : Daemon) : Action → Daemon → Prop where
  | connect (fd : ℕ) (stack : List Tok) : Stepped opts d (.connect fd stack) (d.sessionCreate fd stack)
  | request (i : SessId) (frame : List UInt8) (env : Env) (c : Option Command) (d₁ : Daemon)
      (hlive : (d.sessions i).live = true) (hcommand : d.command opts i frame env = some c)
      (hout : Outcome opts env (d.received i frame env) i (d.tokenise i frame) c d₁) :
      Stepped opts d (.request i frame env)
        (if (d₁.sessions i).closeAfterReply then d₁.destroy opts env.device i else d₁)
  | disconnect (i : SessId) (env : Env) (hlive : (d.sessions i).live = true) :
      Stepped opts d (.disconnect i env) (d.destroy opts env.device i)
  | usb (buf : List UInt8) (nowMs : UInt64) : Stepped opts d (.usb buf nowMs) (d.rtlCallback buf nowMs)

/-- A step does nothing else. -/
theorem stepped_of_step {a : Action} (h : step opts d a = some d') : Stepped opts d a d' := by
  cases a with
  | connect fd stack =>
    obtain ⟨-, hd'⟩ := Option.ite_none_right_eq_some.mp h
    exact Option.some.inj hd' ▸ .connect fd stack
  | request i frame env =>
    obtain ⟨⟨hlive, -⟩, hreq⟩ := Option.ite_none_right_eq_some.mp h
    obtain ⟨c, d₁, hcommand, hout, rfl⟩ := request_outcome hreq
    exact .request i frame env c d₁ hlive hcommand hout
  | disconnect i env =>
    obtain ⟨hlive, hd'⟩ := Option.ite_none_right_eq_some.mp h
    rw [disconnect_eq] at hd'
    exact Option.some.inj hd' ▸ .disconnect i env hlive
  | usb buf nowMs => exact Option.some.inj h ▸ .usb buf nowMs

/-- A frame that is dispatched has been looked at, and nothing else has happened. -/
theorem envelope_of_command {frame : List UInt8} {c : Command}
    (h : d.command opts i frame env = some (some c)) :
    ∃ id, (envelope opts (jsmnParse frame (d.tokens i)).1).run
      (exec opts env (d.received i frame env) i) (d.tokenise i frame) =
        some (some (c, id), d.tokenise i frame) := by
  obtain ⟨⟨r, d₁⟩, hrun, hr⟩ := Option.map_eq_some_iff.mp h
  obtain ⟨⟨c', id⟩, hr', rfl⟩ := Option.map_eq_some_iff.mp hr
  simp only at hr'
  subst hr'
  have hspec := envelope_spec _ _ _ hrun
  obtain ⟨rfl, -⟩ := hspec
  exact ⟨id, hrun⟩

/-- The handler of a frame that is dispatched has run. -/
theorem request_handler {frame : List UInt8} {c : Command}
    (hcommand : d.command opts i frame env = some (some c))
    (h : d.request opts i frame env = some d') :
    ∃ id d₁, (c.fn opts id).run (exec opts env (d.received i frame env) i) (d.tokenise i frame) =
        some ((), d₁) ∧
      d' = if (d₁.sessions i).closeAfterReply then d₁.destroy opts env.device i else d₁ := by
  obtain ⟨id, henv⟩ := envelope_of_command hcommand
  obtain ⟨d₁, hmsg, hd'⟩ := request_run h
  rw [handleMessage, Prog.run_bind, henv] at hmsg
  exact ⟨id, d₁, hmsg, hd'⟩

/-- A frame whose handler has a result, and does not ask for the session to be closed, is carried
out. -/
theorem request_of_run {frame : List UInt8} {c : Command} {id : CStr}
    (henv : (envelope opts (jsmnParse frame (d.tokens i)).1).run
      (exec opts env (d.received i frame env) i) (d.tokenise i frame) =
        some (some (c, id), d.tokenise i frame))
    (hrun : (c.fn opts id).run (exec opts env (d.received i frame env) i) (d.tokenise i frame) =
      some ((), d')) (hopen : (d'.sessions i).closeAfterReply = false) :
    d.request opts i frame env = some d' := by
  have hmsg : (handleMessage opts (jsmnParse frame (d.tokens i)).1).run
      (exec opts env (d.received i frame env) i) (d.tokenise i frame) = some ((), d') := by
    rw [handleMessage, Prog.run_bind, henv]
    exact hrun
  have hself : (perform .self : Prog Op Session).run
      (exec opts env (d.received i frame env) i) d' = some (d'.sessions i, d') := rfl
  have hround : (sessionRound opts (jsmnParse frame (d.tokens i)).1).run
      (exec opts env (d.received i frame env) i) (d.tokenise i frame) = some ((), d') := by
    rw [sessionRound, Prog.run_bind, hmsg, Option.bind_some, Prog.run_bind, hself,
      Option.bind_some, hopen]
    rfl
  exact (congrArg (Option.map Prod.snd) hround).trans rfl

end

end SlcRtld.Control
