import SlcRtld.Control.Protocol

/-!
# The handlers keep to the protocol

A walk through every handler, in the order of `cp_commands.c`. Each one sends one response, with the
id it has been given, and is quiet when it is done (`Command.fn_answers`); what the envelope of a
message does is kept apart by what the message has been found to be (`Reading`). Two theorems are
used elsewhere: `sessionRound_follows` for a round of the loop, and `sessionDestroy_follows` for the
end of a connection.
-/

namespace SlcRtld.Control

open Libc Rtl Auth Vita Json Effect
open Effect.Prog (perform when Follows Answering)

/-! ## The handlers -/

section
variable {A : Answering Op} {α : Type} {q : Phase} {id : CStr} {opts : Options}

/-- The device has the function, or the request is answered with an error. -/
theorem requireFunction_gives (h : q.Quiet []) : Gives A id q (requireFunction id) := by
  refine h.ask (by trivial) fun p _ => ?_
  cases p with
  | none => exact h.refuse _ _
  | some p =>
    refine h.ask (by trivial) fun f _ => ?_
    cases f with
    | none =>
      refine h.ask (by trivial) fun _ _ => .ite (fun _ => ?_) fun _ => ?_
      · exact h.refuse _ _
      · exact h.refuse _ _
    | some f =>
      refine h.ask (by trivial) fun _ _ => .ite (fun _ => ?_) fun _ => ?_
      · exact .pure h
      · exact h.refuse _ _

/-- A check that goes on, or has sent the response. -/
def Passes (A : Answering Op) (id : CStr) (q : Phase) (p : Prog Op Bool) (P : Phase → Prop) : Prop :=
  Follows A Next (fun ok q' => q'.Quiet (if ok then [] else [id]) ∧ (ok = true → P q')) q p

/-- The channel number is checked without an answer. -/
theorem channelOk_passes (h : q.Quiet []) (p : ℕ) :
    Passes A id q (channelOk id p) fun _ => True := by
  refine h.ask (by trivial) fun c _ => .ite (fun _ => ?_) fun _ => ?_
  · exact .pure ⟨h, fun _ => trivial⟩
  · exact (h.sendError _ _).bind fun _ _ h' => .pure ⟨h', nofun⟩

/-- A session may configure if it owns the channel or nobody does; from then on it has been checked.
-/
theorem mayConfigure_passes (h : q.Quiet []) :
    Passes A id q (mayConfigure id) fun q' => q'.track.checked = true := by
  refine .cons fun other _ => ⟨_, .check other h.ready, ?_⟩
  have h' : ({ q with track := q.track.after .rxOwnedByOther other } : Phase).Quiet [] :=
    ⟨h.owes, h.recalibrating, h.joining, h.channel, h.said⟩
  refine .ite (fun hother => ?_) fun _ => ?_
  · exact .pure ⟨h', fun _ => hother⟩
  · exact (h'.sendError _ _).bind fun _ _ h'' => .pure ⟨h'', nofun⟩

/-- The checks that begin every command that sets the receiver. -/
theorem configChecks_answers (h : q.Quiet []) {k : ℕ → Prog Op Unit}
    (hk : ∀ p q', q'.Quiet [] → q'.track.checked = true → Answers A id q' (k p)) :
    Answers A id q (do
      let some p ← requireFunction id | return
      if !(← channelOk id p) then return
      if !(← mayConfigure id) then return
      k p) := by
  refine (requireFunction_gives h).andThen (fun q' h' => .pure h') fun p q' h' => ?_
  refine (channelOk_passes h' p).bind fun ok q₁ h₁ => ?_
  cases ok with
  | false => exact .pure h₁.1
  | true =>
    refine (mayConfigure_passes h₁.1).bind fun ok q₂ h₂ => ?_
    cases ok with
    | false => exact .pure h₂.1
    | true => exact hk p q₂ h₂.1 (h₂.2 rfl)

/-! Changes to the session's record that the protocol does not see. -/

/-- An accepted `hello`. -/
theorem steady_accept (name : CStr) : Session.Steady (Session.accept name) :=
  ⟨fun _ => rfl, fun _ => rfl, fun _ h => (nomatch h), fun _ _ => nofun⟩

/-- A challenge. -/
theorem steady_challenge (made : Bool) : Session.Steady (Session.challenge made) := by
  refine .of_same (fun s => ?_) (fun s => ?_) fun s => ?_
  all_goals cases made <;> rfl

/-- The window of the failures. -/
theorem steady_refreshWindow (now : UInt64) : Session.Steady (Session.refreshWindow now) := by
  refine .of_same (fun s => ?_) (fun s => ?_) fun s => ?_
  all_goals unfold Session.refreshWindow; split_ifs <;> rfl

/-- The session is unlocked. -/
theorem steady_unlock : Session.Steady Session.unlock :=
  .of_same (fun _ => rfl) (fun _ => rfl) fun _ => rfl

/-- A failed response is counted. -/
theorem steady_countFailure : Session.Steady Session.countFailure :=
  .of_same (fun _ => rfl) (fun _ => rfl) fun _ => rfl

/-- A nonce becomes valid, or invalid. -/
theorem steady_nonceValid (made : Bool) :
    Session.Steady fun s => { s with nonceValid := made } :=
  .of_same (fun _ => rfl) (fun _ => rfl) fun _ => rfl

/-- The session has to wait. -/
theorem steady_limitFailures : Session.Steady Session.limitFailures := by
  refine .of_same (fun s => ?_) (fun s => ?_) fun s => ?_
  all_goals unfold Session.limitFailures; split_ifs <;> rfl

/-- The token of a stream's slot. -/
theorem steady_setToken (token : ℤ) : Session.Steady (Session.setToken token) :=
  .of_same (fun _ => rfl) (fun _ => rfl) fun _ => rfl

/-- A stream that is stopped stays open. -/
theorem steady_streamOpen : Session.Steady (Session.setState .streamOpen) :=
  ⟨fun _ => rfl, fun _ => rfl, fun _ h => (nomatch h), fun _ _ => nofun⟩

/-! The envelope. -/

/-- A challenge is made without an answer. -/
theorem issueChallenge_quiet (h : q.Quiet []) :
    Follows A Next (fun _ q' => q'.Quiet []) q issueChallenge := by
  refine h.ask (by trivial) fun made _ => ?_
  refine h.modify (steady_challenge made) ?_
  exact h.self fun s => .pure (h.withChannel s.streamOpen)

/-- `hello`. -/
theorem cmdHello_answers (h : q.Quiet []) : Answers A id q (cmdHello opts id) := by
  refine h.ask (by trivial) fun p _ => ?_
  cases p with
  | none => exact h.sendError _ _
  | some p =>
    refine h.ask (by trivial) fun v _ => ?_
    cases v with
    | none => exact h.sendError _ _
    | some v =>
      refine h.ask (by trivial) fun ty _ => .ite (fun _ => h.sendError _ _) fun _ => ?_
      refine h.ask (by trivial) fun versions _ => .ite (fun _ => h.sendError _ _) fun _ => ?_
      -- the name is read either way, and nothing depends on it
      have haccept : ∀ name : CStr, Answers A id q (do
          perform (.modify (Session.accept name))
          if opts.rxAuth then
            let hex ← issueChallenge
            sendOk id (.hello (some hex))
          else
            sendOk id (.hello none)) := by
        intro name
        refine h.modify (steady_accept name) <| .ite (fun _ => ?_) fun _ => h.sendOk _
        exact (issueChallenge_quiet h).bind fun hex q' h' => h'.sendOk _
      refine h.ask (by trivial) fun c _ => ?_
      cases c with
      | none => exact haccept _
      | some c => exact h.ask (by trivial) fun name _ => haccept name

/-- The parameters of `authenticate` are read, or there is an answer that says which is wrong. -/
theorem authParams_gives (h : q.Quiet []) : Gives A id q (authParams id) := by
  refine h.ask (by trivial) fun p _ => ?_
  cases p with
  | none => exact h.refuse _ _
  | some p =>
    refine h.ask (by trivial) fun mi _ => ?_
    refine h.ask (by trivial) fun ki _ => ?_
    refine h.ask (by trivial) fun ri _ => ?_
    cases mi with
    | none => exact h.refuse _ _
    | some mi =>
      cases ri with
      | none => exact h.refuse _ _
      | some ri =>
        refine h.ask (by trivial) fun method _ => h.ask (by trivial) fun resp _ => ?_
        cases ki with
        | none => exact .pure h
        | some ki => exact h.ask (by trivial) fun keyId _ => .pure h

/-- `authenticate`. -/
theorem cmdAuthenticate_answers (h : q.Quiet []) : Answers A id q (cmdAuthenticate opts id) := by
  refine .ite (fun _ => h.sendOk _) fun _ => ?_
  refine (authParams_gives h).andThen (fun q' h' => .pure h') fun params q' h' => ?_
  refine h'.ask (by trivial) fun now _ => h'.modify (steady_refreshWindow now) ?_
  refine h'.ask (by trivial) fun ok _ => .ite (fun _ => ?_) fun _ => ?_
  · exact h'.modify steady_unlock (h'.sendOk _)
  · -- the count and the next challenge come before the reply, and the limit after it
    refine h'.modify steady_countFailure ?_
    refine h'.ask (by trivial) fun made _ => ?_
    refine h'.modify (steady_nonceValid made) ?_
    refine h'.self fun s => ?_
    refine ((h'.withChannel s.streamOpen).send rfl).bind fun _ q'' h'' => ?_
    exact h''.rest ⟨steady_limitFailures, fun _ => trivial⟩

/-- `get_capabilities`. -/
theorem cmdGetCapabilities_answers (h : q.Quiet []) : Answers A id q (cmdGetCapabilities id) :=
  h.ask (by trivial) fun _ _ => h.sendOk _

/-- `ping`. -/
theorem cmdPing_answers (h : q.Quiet []) : Answers A id q (cmdPing id) := h.sendOk _

/-- `get_status`. -/
theorem cmdGetStatus_answers (h : q.Quiet []) : Answers A id q (cmdGetStatus id) := by
  refine h.ask (by trivial) fun level _ => h.ask (by trivial) fun sensors _ => h.self fun s => ?_
  have h' := h.withChannel s.streamOpen
  refine h'.ask (by trivial) fun _ _ => ?_
  refine h'.ask (by trivial) fun _ _ => ?_
  exact h'.ask (by trivial) fun _ _ => h'.sendOk _

/-- `get_clock_status`. -/
theorem cmdGetClockStatus_answers (h : q.Quiet []) : Answers A id q (cmdGetClockStatus id) :=
  h.ask (by trivial) fun _ _ => h.sendOk _

/-- `get_control`. -/
theorem cmdGetControl_answers (h : q.Quiet []) : Answers A id q (cmdGetControl id) := by
  refine (requireFunction_gives h).andThen (fun q' h' => .pure h') fun p q' h' => ?_
  refine (channelOk_passes h' p).bind fun ok q₁ h₁ => ?_
  cases ok with
  | false => exact .pure h₁.1
  | true =>
    have h₁ := h₁.1
    refine h₁.ask (by trivial) fun ni _ => ?_
    cases ni with
    | none => exact h₁.sendError _ _
    | some ni =>
      refine h₁.ask (by trivial) fun name _ => h₁.ask (by trivial) fun r _ => ?_
      refine .ite (fun _ => h₁.sendOk _) fun _ => .ite (fun _ => h₁.sendOk _) fun _ =>
        .ite (fun _ => h₁.sendOk _) fun _ => .ite (fun _ => h₁.sendOk _) fun _ =>
        .ite (fun _ => h₁.sendOk _) fun _ => h₁.sendError _ _

/-! Configuration. -/

/-- A setting of the receiver, and then the rest. -/
theorem Phase.Quiet.set {said : List CStr} {β : Type} {final : α → Phase → Prop} (h : q.Quiet said)
    (hc : q.track.checked = true) {x : Setting β} {f : β → Prog Op α}
    (hf : ∀ b, Follows A Next final { q with track := q.track.after (.set x) b } (f b)) :
    Follows A Next final q (perform (.set x) >>= f) :=
  .cons fun b _ => ⟨_, .set x b hc h.ready, hf b⟩

/-- A response in the middle of a handler. -/
theorem Phase.Quiet.reply {final : α → Phase → Prop} (h : q.Quiet []) {f : Frame}
    (hid : f.id = some id) {k : Unit → Prog Op α}
    (hk : ∀ q', q'.Quiet [id] → q'.track = q.track → q'.channel = q.channel →
      Follows A Next final q' (k ())) :
    Follows A Next final q (perform (.send f) >>= k) :=
  .cons fun _ _ => ⟨_, .reply hid h.ready, hk _
    ⟨h.owes, h.recalibrating, h.joining, h.channel, by rw [h.said, List.nil_append]⟩ rfl rfl⟩

/-- The context packets go out between the answer and the events. -/
theorem Phase.Quiet.context {said : List CStr} {final : α → Phase → Prop} (h : q.Quiet said)
    {k : Unit → Prog Op α} (hk : ∀ q', q'.Quiet said → Follows A Next final q' (k ())) :
    Follows A Next final q (perform .vitaSendContextAll >>= k) :=
  .cons fun _ _ => ⟨_, .context h.ready, hk _ ⟨h.owes, rfl, h.joining, h.channel, h.said⟩⟩

/-- An event that is not about the channel, at the end. -/
theorem Phase.Quiet.event {said : List CStr} (h : q.Quiet said) {skipSelf : Bool} {e : Event}
    (he : ∀ s, e ≠ .controlRevoked s) :
    Follows A Next (fun _ q' => q'.Quiet said) q (perform (.broadcast skipSelf e)) :=
  h.rest ⟨he, fun _ => trivial⟩

/-- `set_frequency`. -/
theorem cmdSetFrequency_answers (h : q.Quiet []) : Answers A id q (cmdSetFrequency id) := by
  refine configChecks_answers h fun p q h hc => h.ask (by trivial) fun fi _ => ?_
  cases fi with
  | none => exact h.sendError _ _
  | some fi =>
    refine h.ask (by trivial) fun text _ => .ite (fun _ => h.sendError _ _) fun _ => ?_
    refine h.ask (by trivial) fun r _ => .ite (fun _ => h.sendError _ _) fun _ => ?_
    refine h.set hc fun applied => .ite (fun _ => h.sendError _ _) fun _ => ?_
    exact h.reply rfl fun q' h' _ _ => h'.event fun _ => nofun

/-- `set_sample_rate`. -/
theorem cmdSetSampleRate_answers (h : q.Quiet []) : Answers A id q (cmdSetSampleRate id) := by
  refine configChecks_answers h fun p q h hc => h.self fun s => ?_
  have h := h.withChannel s.streamOpen
  refine .ite (fun _ => h.sendError _ _) fun _ => h.ask (by trivial) fun ri _ => ?_
  cases ri with
  | none => exact h.sendError _ _
  | some ri =>
    refine h.ask (by trivial) fun text _ => ?_
    refine h.ask (by trivial) fun r _ => .ite (fun _ => h.sendError _ _) fun _ => ?_
    refine h.set hc fun applied => .ite (fun _ => h.sendError _ _) fun _ => ?_
    exact h.reply rfl fun q' h' _ _ => h'.event fun _ => nofun

/-- Looking at a token is neutral. -/
theorem neutral_tokIsBool (t : ℕ) : (tokIsBool t).Uses fun _ o => o.Neutral :=
  .step trivial fun _ => .ite trivial (.step trivial fun _ => trivial)

/-- Looking at a token is neutral. -/
theorem neutral_tokIsNumeric (t : ℕ) : (tokIsNumeric t).Uses fun _ o => o.Neutral :=
  .step trivial fun _ => .ite trivial ((neutral_tokIsBool t).bind fun _ => trivial)

/-- Looking at a token is neutral. -/
theorem neutral_tokMode (t : ℕ) : (tokMode t).Uses fun _ o => o.Neutral :=
  .step trivial fun _ => .ite trivial <| .step trivial fun _ => .ite trivial <|
    .step trivial fun _ => .ite trivial trivial

/-- `set_control` for `rf_gain`. -/
theorem setRfGain_answers (h : q.Quiet []) (hc : q.track.checked = true) (vi : ℕ) (valstr : CStr) :
    Answers A id q (setRfGain opts id vi valstr) := by
  refine h.uses (neutral_tokIsNumeric vi) fun _ => .ite (fun _ => h.sendError _ _) fun _ => ?_
  refine h.ask (by trivial) fun r _ => .ite (fun _ => ?_) fun _ => ?_
  · exact h.ask (by trivial) fun r _ => h.sendOk _
  refine .ite (fun _ => h.sendError _ _) fun _ => h.set hc fun applied => ?_
  -- from here to the Context packets the gain is ahead of them
  refine .cons fun _ _ => ⟨_, .reply rfl h.ready, ?_⟩
  refine .cons fun _ _ => ⟨_, .context h.ready, ?_⟩
  have h' : (Phase.mk { q.track with recalibrating := false } q.channel (q.said ++ [id])).Quiet [id] :=
    ⟨h.owes, rfl, h.joining, h.channel, by rw [h.said, List.nil_append]⟩
  exact h'.event fun _ => nofun

/-- `set_control` for `agc`. -/
theorem setAgc_answers (h : q.Quiet []) (hc : q.track.checked = true) (vi : ℕ) :
    Answers A id q (setAgc id vi) := by
  refine h.uses (neutral_tokIsBool vi) fun _ => .ite (fun _ => h.sendError _ _) fun _ => ?_
  refine h.ask (by trivial) fun en _ => h.set hc fun _ => h.reply rfl fun q' h' _ _ => ?_
  exact h'.context fun q'' h'' => h''.event fun _ => nofun

/-- `set_control` for `bias_tee`. -/
theorem setBiasTee_answers (h : q.Quiet []) (vi : ℕ) (valstr : CStr) :
    Answers A id q (setBiasTee id vi valstr) := by
  refine h.uses (neutral_tokIsNumeric vi) fun _ => .ite (fun _ => h.sendError _ _) fun _ => ?_
  refine .ite (fun _ => h.sendError _ _) fun _ => h.ask (by trivial) fun rc _ => ?_
  refine .ite (fun _ => h.sendError _ _) fun _ => ?_
  refine h.ask (by trivial) fun r _ => h.reply rfl fun q' h' _ _ => ?_
  exact h'.ask (by trivial) fun r _ => h'.event fun _ => nofun

/-- `set_control` for `ppm_correction`. -/
theorem setPpmCorrection_answers (h : q.Quiet []) (hc : q.track.checked = true) (vi : ℕ)
    (valstr : CStr) : Answers A id q (setPpmCorrection id vi valstr) := by
  refine h.uses (neutral_tokIsNumeric vi) fun _ => .ite (fun _ => h.sendError _ _) fun _ => ?_
  refine .ite (fun _ => h.sendError _ _) fun _ => h.set hc fun _ => h.ask (by trivial) fun r _ => ?_
  exact h.reply rfl fun q' h' _ _ => h'.ask (by trivial) fun r _ => h'.event fun _ => nofun

/-- The frequency is moved without an answer. -/
theorem retuneForMode_stays (hready : q.Ready) (hc : q.track.checked = true) :
    Follows A Next (fun _ q' => q' = q) q retuneForMode := by
  refine .skip (fun _ => .other trivial hready) fun r _ => .when (fun _ => ?_) fun _ => rfl
  refine .cons fun applied _ => ⟨_, .set _ applied hc hready, .when (fun _ => ?_) fun _ => rfl⟩
  exact .perform fun _ _ => ⟨_, .other (fun _ => nofun) hready, rfl⟩

/-- The rate is moved without an answer. -/
theorem resampleForMode_stays (hready : q.Ready) (hc : q.track.checked = true) :
    Follows A Next (fun _ q' => q' = q) q resampleForMode := by
  refine .skip (fun _ => .other trivial hready) fun r _ => .when (fun _ => ?_) fun _ => rfl
  refine .cons fun applied _ => ⟨_, .set _ applied hc hready, .when (fun _ => ?_) fun _ => rfl⟩
  exact .perform fun _ _ => ⟨_, .other (fun _ => nofun) hready, rfl⟩

/-- `set_control` for `direct_sampling`. -/
theorem setDirectSampling_answers (h : q.Quiet []) (hc : q.track.checked = true) (vi : ℕ)
    (valstr : CStr) : Answers A id q (setDirectSampling id vi valstr) := by
  refine h.ask (by trivial) fun ty _ => .ite (fun _ => h.sendError _ _) fun _ => ?_
  refine h.uses (neutral_tokMode vi) fun mode => ?_
  cases mode with
  | none => exact h.sendError _ _
  | some mode =>
    refine h.ask (by trivial) fun r _ => .ite (fun _ => h.sendOk _) fun _ => h.self fun s => ?_
    have h := h.withChannel s.streamOpen
    refine .ite (fun _ => h.sendError _ _) fun _ => h.set hc fun rc => ?_
    refine .ite (fun _ => h.sendError _ _) fun _ => h.reply rfl fun q' h' htrack _ => ?_
    have hc' : q'.track.checked = true := htrack ▸ hc
    refine h'.ask (by exact fun _ => nofun) fun _ _ => ?_
    -- the side effects of the new mode
    have heffects : Follows A Next (fun _ q'' => q''.Quiet [id]) q' applyModeChangeSideEffects := by
      refine (retuneForMode_stays h'.ready hc').bind fun _ q₁ hq₁ => ?_
      subst hq₁
      refine (resampleForMode_stays h'.ready hc').bind fun _ q₂ hq₂ => ?_
      subst hq₂
      refine h'.ask (by trivial) fun r _ => ?_
      refine h'.ask (by trivial) fun _ _ => ?_
      exact h'.context fun q'' h'' => .pure h''
    exact heffects.bind fun _ q'' h'' => h''.event fun _ => nofun

/-- `set_control`, control by control. -/
theorem cmdSetControl_answers (h : q.Quiet []) : Answers A id q (cmdSetControl opts id) := by
  refine configChecks_answers h fun p q h hc => ?_
  refine h.ask (by trivial) fun ni _ => ?_
  refine h.ask (by trivial) fun vi _ => ?_
  cases ni with
  | none => exact h.sendError _ _
  | some ni =>
    cases vi with
    | none => exact h.sendError _ _
    | some vi =>
      refine h.ask (by trivial) fun name _ => h.ask (by trivial) fun valstr _ => ?_
      refine .ite (fun _ => setRfGain_answers h hc vi valstr) fun _ => ?_
      refine .ite (fun _ => setAgc_answers h hc vi) fun _ => ?_
      refine .ite (fun _ => setBiasTee_answers h vi valstr) fun _ => ?_
      refine .ite (fun _ => setPpmCorrection_answers h hc vi valstr) fun _ => ?_
      exact .ite (fun _ => setDirectSampling_answers h hc vi valstr) fun _ => h.sendError _ _

/-! Streams. -/

/-- The request holds the channel, and has not opened a stream on it. -/
structure Phase.Claimed (q : Phase) (said : List CStr) : Prop where
  recalibrating : q.track.recalibrating = false
  joining : q.track.joining = false
  channel : q.channel = .claimed
  said : q.said = said

/-- A session that has claimed the channel may go on to answer. -/
theorem Phase.Claimed.ready {said : List CStr} (h : q.Claimed said) : q.Ready := by
  refine ⟨h.joining, ?_⟩
  rw [h.channel]
  decide

/-- An operation that may come anywhere, and then the rest. -/
theorem Phase.Claimed.ask {said : List CStr} {β : Type} {final : α → Phase → Prop}
    (h : q.Claimed said) {o : Op β} (ho : o.Neutral) {f : β → Prog Op α}
    (hf : ∀ b, A _ o b → Follows A Next final q (f b)) :
    Follows A Next final q (perform o >>= f) :=
  .skip (fun _ => .other ho h.ready) hf

/-- Neutral operations keep the claim. -/
theorem Phase.Claimed.uses {said : List CStr} {β : Type} {final : α → Phase → Prop}
    (h : q.Claimed said) {p : Prog Op β} (hp : p.Uses fun _ o => o.Neutral) {f : β → Prog Op α}
    (hf : ∀ b, Follows A Next final q (f b)) : Follows A Next final q (p >>= f) :=
  (Follows.of_uses hp (fun _ _ ho _ => .other ho h.ready) fun _ => rfl).bind
    fun b _ hq' => hq'.symm ▸ hf b

/-- A claimed channel is given back, and the other clients are told. -/
theorem cpRxRelease_quiet {said : List CStr} (h : q.Claimed said) :
    Follows A Next (fun _ q' => q'.Quiet said) q cpRxRelease := by
  refine .cons fun released _ => ⟨_, .release released h.channel h.ready, ?_⟩
  refine .when (fun hreleased => ?_) fun hno => ?_
  · exact .perform fun _ _ => ⟨_, .notice (if_pos hreleased) ⟨h.joining, nofun⟩,
      rfl, h.recalibrating, h.joining, by simp, h.said⟩
  · exact ⟨by simp [Track.after, hno], h.recalibrating, h.joining, by simp, h.said⟩

/-- A refused `open_stream` releases the channel, and has answered. -/
theorem refuseStream_gives (h : q.Claimed []) (code : ErrorCode) (message : String) :
    Follows A Next (fun r q' => q'.Quiet [id] ∧ r = none) q (refuseStream id code message) :=
  (cpRxRelease_quiet h).bind fun _ _ h' => (h'.sendError code message).bind fun _ _ h'' =>
    .pure ⟨h'', rfl⟩

/-- Searching an object is neutral. -/
theorem neutral_findObject (obj : ℕ) (key : String) :
    (findObject obj key).Uses fun _ o => o.Neutral :=
  .step trivial fun v => by
    cases v with
    | none => trivial
    | some v => exact .step trivial fun _ => .ite trivial trivial

/-- Reading the profiles is neutral. -/
theorem neutral_profileRefused (vi : ℕ) : (profileRefused vi).Uses fun _ o => o.Neutral :=
  .step trivial fun v => by
    cases v with
    | none => trivial
    | some v => exact .step trivial fun _ => trivial

/-- Reading a format is neutral. -/
theorem neutral_formatMatches (fmtI : ℕ) : (formatMatches fmtI).Uses fun _ o => o.Neutral := by
  refine .step trivial fun lbl => .step trivial fun enc => .step trivial fun bits => ?_
  have hrest : ∀ u8Label : Bool,
      (formatMatches.unlabelled enc bits u8Label).Uses fun _ o => o.Neutral := by
    intro u8Label
    refine .ite trivial ?_
    cases enc with
    | none => trivial
    | some enc =>
      cases bits with
      | none => exact .step trivial fun _ => trivial
      | some bits => exact .step trivial fun _ => .ite trivial (.step trivial fun _ => trivial)
  cases lbl with
  | none => exact hrest false
  | some lbl => exact .step trivial hrest

/-- Reading the formats is neutral. -/
theorem neutral_formatRefused (vi : ℕ) : (formatRefused vi).Uses fun _ o => o.Neutral :=
  .step trivial fun v => by
    cases v with
    | none => trivial
    | some v =>
      exact .step trivial fun _ => .ite trivial ((neutral_formatMatches v).bind fun _ => trivial)

/-- The checks on a claimed channel end with a destination, or with the channel given back and an
error. -/
theorem streamDestination_gives (h : q.Claimed []) (p : ℕ) :
    Follows A Next (fun r q' => if r.isSome then q' = q else q'.Quiet [id]) q
      (streamDestination id p) := by
  have hrefuse : ∀ code message, Follows A Next (fun r q' => if r.isSome then q' = q
      else q'.Quiet [id]) q (refuseStream id code message) := fun code message =>
    (refuseStream_gives h code message).mono fun r q' ⟨h', hr⟩ => by rw [hr]; exact h'
  refine h.ask (by trivial) fun protoI _ => ?_
  cases protoI with
  | none => exact hrefuse _ _
  | some protoI =>
    refine h.ask (by trivial) fun _ _ => .ite (fun _ => hrefuse _ _) fun _ => ?_
    refine h.uses (neutral_findObject p "vita") fun vi => ?_
    cases vi with
    | none =>
      -- the channel is given back before the message is looked at again
      refine (cpRxRelease_quiet h).bind fun _ q' h' => ?_
      refine h'.ask (by trivial) fun _ _ => .ite (fun _ => ?_) fun _ => ?_
      · exact (h'.sendError _ _).bind fun _ _ h'' => .pure h''
      · exact (h'.sendError _ _).bind fun _ _ h'' => .pure h''
    | some vi =>
      refine h.uses (neutral_profileRefused vi) fun _ => .ite (fun _ => hrefuse _ _) fun _ => ?_
      refine h.uses (neutral_formatRefused vi) fun _ => .ite (fun _ => hrefuse _ _) fun _ => ?_
      refine h.uses (neutral_findObject vi "destination") fun destI => ?_
      cases destI with
      | none => exact hrefuse _ _
      | some destI =>
        refine h.ask (by trivial) fun ipI _ => h.ask (by trivial) fun portI _ => ?_
        cases ipI with
        | none => exact hrefuse _ _
        | some ipI =>
          cases portI with
          | none => exact hrefuse _ _
          | some portI =>
            refine h.ask (by trivial) fun ipStr _ => h.ask (by trivial) fun portStr _ => ?_
            cases inetPton ipStr with
            | none => exact hrefuse _ _
            | some addr => exact .ite (fun _ => hrefuse _ _) fun _ => .pure rfl

/-- The rest of `cmd_open_stream` opens the stream, answers, and tells the other clients. -/
theorem openChecked_answers (h : q.Claimed []) (howes : q.track.owes = some .ownedByOther)
    (ipStr : CStr) (addr : List ℕ) (port : ℕ) : Answers A id q (openChecked id ipStr addr port) := by
  refine h.ask (by trivial) fun n _ => ?_
  refine .cons fun _ _ => ⟨_, .openStream n addr port h.channel h.ready, ?_⟩
  have hready : (Phase.mk q.track .opened q.said).Ready := ⟨h.joining, nofun⟩
  refine .skip (fun _ => .other trivial hready) fun srcIp _ => ?_
  refine .skip (fun _ => .other trivial hready) fun r _ => ?_
  refine .cons fun _ _ => ⟨_, .reply rfl hready, ?_⟩
  exact .perform fun _ _ => ⟨_, .notice howes hready,
    rfl, h.recalibrating, h.joining, by simp, by rw [h.said, List.nil_append]⟩

/-- `open_stream`. -/
theorem cmdOpenStream_answers (h : q.Quiet []) : Answers A id q (cmdOpenStream id) := by
  refine (requireFunction_gives h).andThen (fun q' h' => .pure h') fun p q' h' => ?_
  refine (channelOk_passes h' p).bind fun ok q₁ h₁ => ?_
  cases ok with
  | false => exact .pure h₁.1
  | true =>
    refine h₁.1.self fun s => ?_
    have h₂ := h₁.1.withChannel s.streamOpen
    refine .ite (fun _ => h₂.sendError _ _) fun hopen => ?_
    rw [Bool.not_eq_true] at hopen
    refine .cons fun ok _ => ⟨_, .claim ok (by rw [hopen]; rfl) h₂.owes h₂.ready, ?_⟩
    cases ok with
    | false =>
      have h₃ : (Phase.mk q₁.track .closed q₁.said).Quiet [] :=
        ⟨h₂.owes, h₂.recalibrating, h₂.joining, by simp, h₂.said⟩
      exact h₃.sendError _ _
    | true =>
      have h₃ : (Phase.mk { q₁.track with owes := some .ownedByOther } .claimed q₁.said).Claimed [] :=
        ⟨h₂.recalibrating, h₂.joining, rfl, h₂.said⟩
      refine Follows.bind (streamDestination_gives h₃ p) fun r q₄ h₄ => ?_
      cases r with
      | none => exact .pure h₄
      | some r =>
        obtain rfl : q₄ = _ := h₄
        exact openChecked_answers h₃ rfl _ _ _

/-- The stream lookup of the commands on a stream: the session's stream is open, or an error has
been sent. -/
theorem requireStream_gives (h : q.Quiet []) : Follows A Next (fun r q' => match r with
    | none => q'.Quiet [id]
    | some _ => q'.Quiet [] ∧ q'.channel = .opened) q (requireStream id) := by
  have hmissing : Follows A Next (fun r q' => match r with
      | none => q'.Quiet [id]
      | some _ => q'.Quiet [] ∧ q'.channel = .opened) q
      (do sendError id .missingParameter "stream_id required"; return none :
        Prog Op (Option Session)) :=
    (h.sendError _ _).bind fun _ _ h' => .pure h'
  refine h.ask (by trivial) fun p _ => ?_
  cases p with
  | none => exact hmissing
  | some p =>
    refine h.ask (by trivial) fun si _ => ?_
    cases si with
    | none => exact hmissing
    | some si =>
      refine h.ask (by trivial) fun sid _ => h.self fun s => ?_
      have h' := h.withChannel s.streamOpen
      refine .ite (fun _ => (h'.sendError _ _).bind fun _ _ h'' => .pure h'') fun hfound => ?_
      have hopen : s.streamOpen = true := by
        rw [not_or] at hfound
        simpa using hfound.1
      exact .pure ⟨h', if_pos hopen⟩

/-- A command on a stream. -/
theorem streamCommand_answers (h : q.Quiet []) {k : Session → Prog Op Unit}
    (hk : ∀ s q', q'.Quiet [] → q'.channel = .opened → Answers A id q' (k s)) :
    Answers A id q (do
      let some s ← requireStream id | return
      k s) := by
  refine (requireStream_gives h).bind fun r q' h' => ?_
  cases r with
  | none => exact .pure h'
  | some s => exact hk s q' h'.1 h'.2

/-- An event to the session itself, at the end. -/
theorem Phase.Quiet.sendEvent {said : List CStr} (h : q.Quiet said) {e : Event}
    (he : ∀ s, e ≠ .controlRevoked s) :
    Follows A Next (fun _ q' => q'.Quiet said) q (Control.sendEvent e) :=
  h.rest ⟨⟨e, rfl, he⟩, fun _ => trivial⟩

/-- `start_rx`. -/
theorem cmdStartRx_answers (h : q.Quiet []) : Answers A id q (cmdStartRx id) := by
  refine streamCommand_answers h fun s q h hopen => .ite (fun _ => h.sendOk _) fun _ => ?_
  refine h.ask (by trivial) fun r _ => ?_
  refine h.ask (by trivial) fun token _ => ?_
  refine h.modify (steady_setToken token) ?_
  refine .ite (fun _ => h.sendError _ _) fun _ => ?_
  refine .cons fun ok _ => ⟨q, .bridgeStart ok hopen h.ready, .ite (fun _ => ?_) fun _ => ?_⟩
  · exact h.ask (by trivial) fun _ _ => h.modify (steady_setToken (-1)) (h.sendError _ _)
  · refine .cons fun _ _ => ⟨q, .startStreaming hopen h.ready, ?_⟩
    exact h.reply rfl fun q' h' _ _ => h'.sendEvent fun _ => nofun

/-- Taking a stream out of the table is neutral. -/
theorem neutral_removeVita (token : ℤ) : (removeVita token).Uses fun _ o => o.Neutral :=
  .when (.step trivial fun _ => .step (steady_setToken (-1)) fun _ => trivial)

/-- The reader is stopped, and joined when that was asked for. -/
theorem stopReading_stays {said : List CStr} (h : q.Quiet said) (hopen : q.channel = .opened) :
    Follows A Next (fun _ q' => q' = q) q stopReading := by
  have hsame : Phase.mk { q.track with joining := false } q.channel q.said = q := by
    have htrack : { q.track with joining := false } = q.track := by rw [← h.joining]
    rw [htrack]
  have hstop : Follows A Next (fun _ q' => q' = q) q rtlBridgeStop := by
    refine .cons fun join _ => ⟨_, .bridgeStop join hopen h.ready, ?_⟩
    refine .when (fun hjoin => ?_) fun hno => ?_
    · exact .perform fun _ _ => ⟨_, .join hjoin, hsame⟩
    · rw [hno]
      exact hsame
  refine hstop.bind fun _ q' hq' => ?_
  subst hq'
  exact .perform fun _ _ => ⟨_, .other trivial h.ready, rfl⟩

/-- `stop_rx`. -/
theorem cmdStopRx_answers (h : q.Quiet []) : Answers A id q (cmdStopRx id) := by
  refine streamCommand_answers h fun s q h hopen => .ite (fun _ => h.sendOk _) fun _ => ?_
  refine h.uses (neutral_removeVita _) fun _ => (stopReading_stays h hopen).bind fun _ q' hq' => ?_
  subst hq'
  exact h.modify steady_streamOpen <| h.reply rfl fun q'' h'' _ _ => h''.sendEvent fun _ => nofun

/-- `close_stream`. -/
theorem cmdCloseStream_answers (h : q.Quiet []) : Answers A id q (cmdCloseStream id) := by
  refine streamCommand_answers h fun s q h hopen => h.uses (neutral_removeVita _) fun _ => ?_
  have hstop : Follows A Next (fun _ q' => q' = q) q (when (s.state = .streaming) stopReading) :=
    .when (fun _ => stopReading_stays h hopen) fun _ => rfl
  refine hstop.bind fun _ q' hq' => ?_
  subst hq'
  refine .cons fun _ _ => ⟨_, .closeStream hopen h.ready, ?_⟩
  have hclaimed : (Phase.mk q'.track .claimed q'.said).Claimed [] :=
    ⟨h.recalibrating, h.joining, rfl, h.said⟩
  refine (cpRxRelease_quiet hclaimed).bind fun _ q₁ h₁ => ?_
  refine h₁.reply rfl fun q₂ h₂ _ _ => ?_
  exact .when (fun _ => h₂.sendEvent fun _ => nofun) fun _ => h₂

/-- Every command answers once. -/
theorem Command.fn_answers (h : q.Quiet []) (c : Command) : Answers A id q (c.fn opts id) := by
  cases c with
  | hello => exact cmdHello_answers h
  | authenticate => exact cmdAuthenticate_answers h
  | getCapabilities => exact cmdGetCapabilities_answers h
  | setFrequency => exact cmdSetFrequency_answers h
  | setSampleRate => exact cmdSetSampleRate_answers h
  | setControl => exact cmdSetControl_answers h
  | openStream => exact cmdOpenStream_answers h
  | startRx => exact cmdStartRx_answers h
  | stopRx => exact cmdStopRx_answers h
  | closeStream => exact cmdCloseStream_answers h
  | ping => exact cmdPing_answers h
  | getStatus => exact cmdGetStatus_answers h
  | getControl => exact cmdGetControl_answers h
  | getClockStatus => exact cmdGetClockStatus_answers h

/-! The envelope. -/

/-- How the envelope of a message is read: the request to dispatch, if there is one, and the ids of
the responses that have been sent instead. -/
inductive Reading (A : Answering Op) (n : ℤ) : Option (Command × CStr) → List CStr → Prop where
  | malformed (h : n < 1 ∨ ∃ ty, A _ (.tokType 0) ty ∧ ty ≠ .object) : Reading A n none [bytes "?"]
  | missing {key : String} (hkey : key ∈ ["type", "id", "command"])
      (h : A _ (.tokFindKey 0 key) none) : Reading A n none [bytes "?"]
  | ignored {jt : ℕ} (htype : A _ (.tokFindKey 0 "type") (some jt))
      (h : A _ (.tokEq jt "request") false) : Reading A n none []
  | answered {ji : ℕ} {id : CStr} (hid : A _ (.tokFindKey 0 "id") (some ji))
      (htext : A _ (.tokStr ji 128) id) : Reading A n none [id]
  | dispatched (c : Command) {ji : ℕ} {id : CStr} (hid : A _ (.tokFindKey 0 "id") (some ji))
      (htext : A _ (.tokStr ji 128) id) : Reading A n (some (c, id)) []

/-- Which commands address the channel is read without an answer. -/
theorem neutral_cmdAddressesRx (cmd : CStr) : (cmdAddressesRx cmd).Uses fun _ o => o.Neutral := by
  refine .ite trivial (.ite trivial (.step trivial fun p => ?_))
  cases p with
  | none => trivial
  | some p =>
    refine .step trivial fun f => ?_
    cases f with
    | none => trivial
    | some f => exact .step trivial fun _ => trivial

/-- A request of a locked session is answered with a challenge. -/
theorem sendUnauthorized_answers (h : q.Quiet []) : Answers A id q (sendUnauthorized opts id) :=
  .ite (fun _ => h.sendError _ _) fun _ => h.sendError _ _

/-- The envelope of a message answers it, or has read the command that will. -/
theorem envelope_follows (h : q.Quiet []) (n : ℤ) :
    Follows A Next (fun r q' => ∃ ids, q'.Quiet ids ∧ Reading A n r ids) q (envelope opts n) := by
  have hanswered : ∀ {q : Phase} {id : CStr} {p : Prog Op Unit}, Answers A id q p →
      Reading A n none [id] →
      Follows A Next (fun r q' => ∃ ids, q'.Quiet ids ∧ Reading A n r ids) q
        (do p; return none : Prog Op (Option (Command × CStr))) :=
    fun hp hread => Follows.bind hp fun _ _ h' => .pure ⟨_, h', hread⟩
  refine .ite (fun hn => hanswered (h.sendError _ _) (.malformed (.inl hn))) fun _ => ?_
  refine h.ask (by trivial) fun ty hty => .ite (fun hne => ?_) fun _ => ?_
  · exact hanswered (h.sendError _ _) (.malformed (.inr ⟨ty, hty, hne⟩))
  refine h.ask (by trivial) fun idxType htype => ?_
  refine h.ask (by trivial) fun idxId hid => ?_
  refine h.ask (by trivial) fun idxCommand hcommand => ?_
  -- each of the three has to be there
  cases idxType with
  | none => exact hanswered (h.sendError _ _) (.missing (by decide) htype)
  | some jt =>
    cases idxId with
    | none => exact hanswered (h.sendError _ _) (.missing (by decide) hid)
    | some ji =>
      cases idxCommand with
      | none => exact hanswered (h.sendError _ _) (.missing (by decide) hcommand)
      | some jc =>
        refine h.ask (by trivial) fun isRequest hrequest => .ite (fun hno => ?_) fun _ => ?_
        · rw [Bool.not_eq_true'] at hno
          exact .pure ⟨_, h, .ignored htype (hno ▸ hrequest)⟩
        refine h.ask (by trivial) fun id htext => h.ask (by trivial) fun cmd _ => h.self fun s => ?_
        have h := h.withChannel s.streamOpen
        refine .ite (fun _ => hanswered (h.sendError _ _) (.answered hid htext)) fun _ => ?_
        -- a session that has to be unlocked first may be told so
        have hrest : ∀ gated : Bool, Follows A Next
            (fun r q' => ∃ ids, q'.Quiet ids ∧ Reading A n r ids)
            { q with channel := if s.streamOpen then .opened else .closed }
            (envelope.dispatch opts id cmd gated) := by
          intro gated
          unfold envelope.dispatch
          refine .ite (fun _ => ?_) fun _ => ?_
          · exact hanswered (sendUnauthorized_answers h) (.answered hid htext)
          cases dispatchTable.find? (·.name = cmd) with
          | none => exact hanswered (h.sendError _ _) (.answered hid htext)
          | some c => exact .pure ⟨_, h, .dispatched c hid htext⟩
        refine .ite (fun _ => ?_) fun _ => hrest false
        exact h.uses (neutral_cmdAddressesRx cmd) hrest

/-- The ids of the responses to a message: those of its envelope, or the one of the request that has
been dispatched. -/
def Responds (A : Answering Op) (n : ℤ) (ids : List CStr) : Prop :=
  Reading A n none ids ∨ ∃ c id, Reading A n (some (c, id)) [] ∧ ids = [id]

/-- A message is answered once, or not at all if it asks for nothing. -/
theorem handleMessage_follows (h : q.Quiet []) (n : ℤ) :
    Follows A Next (fun _ q' => ∃ ids, q'.Quiet ids ∧ Responds A n ids) q (handleMessage opts n) := by
  refine (envelope_follows h n).bind fun r q' ⟨ids, h', hread⟩ => ?_
  cases r with
  | none => exact .pure ⟨ids, h', .inl hread⟩
  | some r =>
    obtain ⟨c, id⟩ := r
    cases hread with
    | dispatched _ hid htext =>
      refine (c.fn_answers h').mono fun _ _ h'' => ⟨_, h'', .inr ?_⟩
      exact ⟨c, id, .dispatched c hid htext, rfl⟩

/-! The end of a session, and a whole round. -/

/-- A request that is done. -/
structure Phase.Rests (q : Phase) (said : List CStr) : Prop where
  owes : q.track.owes = none
  recalibrating : q.track.recalibrating = false
  joining : q.track.joining = false
  channel : q.channel ∈ [Channel.unknown, .closed, .opened, .gone]
  said : q.said = said

/-- After the answers of a message nothing is left to do. -/
theorem Phase.Quiet.rests {said : List CStr} (h : q.Quiet said) : q.Rests said :=
  ⟨h.owes, h.recalibrating, h.joining,
    List.mem_append_left [Channel.gone] h.channel, h.said⟩

/-- A session record can be streaming only with an open stream. -/
def Sensible (A : Answering Op) : Prop :=
  ∀ s, A Session .self s → s.state = .streaming → s.streamOpen = true

/-- The end of a session answers nothing more. -/
theorem sessionDestroy_follows (hA : Sensible A) {said : List CStr} (h : q.Quiet said) :
    Follows A Next (fun _ q' => q'.Rests said) q (sessionDestroy opts) := by
  refine .cons fun s hs => ⟨_, .self s h.channel h.ready, ?_⟩
  have h := h.withChannel s.streamOpen
  refine h.uses (neutral_removeVita _) fun _ => ?_
  -- the reader is stopped while the session still holds the channel
  have hstop : Follows A Next
      (fun _ q' => q' = { q with channel := if s.streamOpen then .opened else .closed })
      { q with channel := if s.streamOpen then .opened else .closed }
      (when (s.state = .streaming) do
        stopReading
        cpBroadcastEventExcept (.streamState s.streamId false .controlLost)) := by
    refine .when (fun hstate => ?_) fun _ => rfl
    have hopen : s.streamOpen = true := hA s hs (of_decide_eq_true hstate)
    refine (stopReading_stays h (if_pos hopen)).bind fun _ q' hq' => ?_
    subst hq'
    exact .perform fun _ _ => ⟨_, .other (fun _ => nofun) h.ready, rfl⟩
  refine hstop.bind fun _ q' hq' => ?_
  subst hq'
  -- then the channel is released, and the others are told of it
  have hrelease : Follows A Next (fun _ q' => q'.track.owes = none ∧ q'.track.recalibrating = false ∧
      q'.track.joining = false ∧ q'.channel = .departing ∧ q'.said = said)
      { q with channel := if s.streamOpen then .opened else .closed } cpRxRelease := by
    refine .cons fun released _ => ⟨_, .depart released (by cases s.streamOpen <;> simp) h.owes
      h.ready, .when (fun hreleased => ?_) fun hno => ?_⟩
    · exact .perform fun _ _ => ⟨_, .notice (if_pos hreleased) ⟨h.joining, nofun⟩,
        rfl, h.recalibrating, h.joining, rfl, h.said⟩
    · exact ⟨by simp [Track.after, hno], h.recalibrating, h.joining, rfl, h.said⟩
  refine hrelease.bind fun _ q' ⟨howes, hrecal, hjoin, hchannel, hsaid⟩ => ?_
  have hready : q'.Ready := ⟨hjoin, by rw [hchannel]; decide⟩
  refine .skip (fun _ => .other trivial hready) fun r _ => ?_
  -- the supply of the antenna is switched off last, unless it is to persist
  have hbias : Follows A Next (fun _ q'' => q'' = q') q'
      (when (r.biasTeeEnabled && !opts.biasTeePersist) do
        let _ ← perform (.set (.biasTee false))) :=
    .when (fun _ => .cons fun _ _ => ⟨q', .other trivial hready, .pure rfl⟩) fun _ => rfl
  refine hbias.bind fun _ q'' hq'' => ?_
  subst hq''
  exact .perform fun _ _ => ⟨_, .free hchannel hready, howes, hrecal, hjoin, by simp, hsaid⟩

/-- A round of the loop keeps to the protocol, and sends the responses that its message asks for. -/
theorem sessionRound_follows (hA : Sensible A) (h : q.Quiet []) (n : ℤ) :
    Follows A Next (fun _ q' => ∃ ids, q'.Rests ids ∧ Responds A n ids) q (sessionRound opts n) := by
  refine (handleMessage_follows h n).bind fun _ q₁ ⟨ids, h₁, hids⟩ => h₁.self fun s => ?_
  have h₂ := h₁.withChannel s.streamOpen
  refine .when (fun _ => ?_) fun _ => ⟨ids, h₂.rests, hids⟩
  exact (sessionDestroy_follows hA h₂).mono fun _ _ h₃ => ⟨ids, h₃, hids⟩

end

end SlcRtld.Control
