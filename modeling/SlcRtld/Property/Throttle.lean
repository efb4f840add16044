import SlcRtld.Property.Unlock

/-!
# The limit on failed attempts

A session keeps the beginning of a window of one minute and the number of failed attempts in it. The
window begins at the first attempt after the last one is over, wherever the failures before it are,
so that failures on both sides of that moment are not counted together (`slow_then_fast`). As long
as a new window only begins when there was no failure for a minute, the window holds every failure
of the last minute (`Tally`), and ten of them close the connection (`failures_limited`).
-/

namespace SlcRtld.Property

open Libc Control Effect Auth Json

/-! ## Attempts -/

/-- The parameters that `cmd_authenticate` asks for, if they are all there. -/
def authRequest (m : Msg) : Option (CStr × CStr × CStr) := do
  let some p ← m.tokFindKey 0 (bytes "params") | none
  let some mi ← m.tokFindKey p (bytes "method") | none
  let some ri ← m.tokFindKey p (bytes "response") | none
  let ki ← m.tokFindKey p (bytes "key_id")
  let method ← m.tokStr mi 48
  let response ← m.tokStr ri 80
  match ki with
  | some ki => return (method, ← m.tokStr ki authKeyIdMax, response)
  | none => return (method, bytes "default", response)

/-- Whether a frame is an attempt to authenticate, and whether the attempt succeeds. -/
def attempt (opts : Options) (i : SessId) (frame : List UInt8) (env : Env) (d : Daemon) :
    Option Bool :=
  if d.command opts i frame env = some (some .authenticate) then
    (authRequest (d.received i frame env)).map fun (method, keyId, response) =>
      (d.checkResponse opts i method keyId response).1
  else none

section
variable {opts : Options} {env : Env} {m : Msg} {i : SessId} {d d' : Daemon} {frame : List UInt8}

/-- The parameters of an attempt are computed as they are described. -/
theorem authRequest_eq_some_iff (method keyId response : CStr) :
    authRequest m = some (method, keyId, response) ↔ AuthRequest m method keyId response := by
  constructor
  -- each lookup of the handler may be refused, and only the id of the key may be missing
  · intro h
    simp only [authRequest, Option.bind_eq_bind, Option.bind_eq_some_iff] at h
    obtain ⟨p, hp, h⟩ := h
    cases p with
    | none => cases h
    | some p =>
      simp only [Option.bind_eq_some_iff] at h
      obtain ⟨mi, hmi, h⟩ := h
      cases mi with
      | none => cases h
      | some mi =>
        simp only [Option.bind_eq_some_iff] at h
        obtain ⟨ri, hri, h⟩ := h
        cases ri with
        | none => cases h
        | some ri =>
          simp only [Option.bind_eq_some_iff] at h
          obtain ⟨ki, hki, method', hmethod, response', hresponse, h⟩ := h
          cases ki with
          | none =>
            cases h
            exact ⟨p, mi, ri, none, hp, hmi, hmethod, hri, hresponse, hki, rfl⟩
          | some ki =>
            simp only [Option.bind_eq_some_iff] at h
            obtain ⟨keyId', hkeyId, h⟩ := h
            cases h
            exact ⟨p, mi, ri, some ki, hp, hmi, hmethod, hri, hresponse, hki, hkeyId⟩
  · rintro ⟨p, mi, ri, ki, hp, hmi, hmethod, hri, hresponse, hki, hkey⟩
    cases ki with
    | none => simp [authRequest, hp, hmi, hmethod, hri, hresponse, hki, hkey]
    | some ki => simp [authRequest, hp, hmi, hmethod, hri, hresponse, hki, hkey]

/-- An attempt reads its parameters from the frame. -/
theorem attempt_eq_some {ok : Bool} (h : attempt opts i frame env d = some ok) :
    d.command opts i frame env = some (some .authenticate) ∧ ∃ method keyId response,
      AuthRequest (d.received i frame env) method keyId response ∧
        (d.checkResponse opts i method keyId response).1 = ok := by
  obtain ⟨hcommand, h⟩ := Option.ite_none_right_eq_some.mp h
  obtain ⟨⟨method, keyId, response⟩, hm, hok⟩ := Option.map_eq_some_iff.mp h
  exact ⟨hcommand, method, keyId, response, (authRequest_eq_some_iff ..).mp hm, hok⟩

/-- A request with the three parameters is an attempt. -/
theorem attempt_of_request {method keyId response : CStr}
    (hcommand : d.command opts i frame env = some (some .authenticate))
    (hm : AuthRequest (d.received i frame env) method keyId response) :
    attempt opts i frame env d = some (d.checkResponse opts i method keyId response).1 := by
  rw [attempt, if_pos hcommand, (authRequest_eq_some_iff ..).mpr hm]
  rfl

/-- The window has no part in the check of a response. -/
theorem checkResponse_refreshed (now : UInt64) (method keyId response : CStr) :
    (((d.tokenise i frame).modify i (Session.refreshWindow now)).checkResponse opts i method keyId
      response).1 = (d.checkResponse opts i method keyId response).1 := by
  obtain ⟨hvalid, hnonce, -⟩ := refreshWindow_authFields now (d.sessions i)
  have hself := Daemon.modify_self i (Session.refreshWindow now) (d.tokenise i frame)
  simp only [Daemon.checkResponse]
  rw [hself]
  exact congrArg₂ (fun v n => v && decide (method = authMethodPsk) && !opts.keys.isEmpty &&
    authVerify opts.keys keyId n response) hvalid hnonce

/-! ## What an attempt does to the window -/

/-- The record of a session after a failed attempt. -/
theorem rejected_record {method keyId response : CStr} {f : Frame} {made : Bool} {d₁ d₂ : Daemon}
    (hok : (d.modify i (Session.refreshWindow env.monoNs)).checkResponse opts i method keyId
      response = (false, d₁))
    (hmade : (d₁.modify i Session.countFailure).makeNonce env.random i = some (made, d₂)) :
    ∃ raw, (((d₂.modify i fun s => { s with nonceValid := made }).send i f).modify i
        Session.limitFailures).sessions i =
      Session.limitFailures { Session.storeNonce made raw
        (((d.sessions i).refreshWindow env.monoNs).countFailure) with nonceValid := made } := by
  have hchecked := congrFun (checkResponse_sessions hok) i
  rw [Daemon.modify_self] at hchecked
  obtain ⟨raw, hraw⟩ := makeNonce_self hmade
  rw [Daemon.modify_self, hchecked] at hraw
  refine ⟨raw, ?_⟩
  have hvalid : ((d₂.modify i fun s => { s with nonceValid := made }).send i f).sessions i =
      { Session.storeNonce made raw
        (((d.sessions i).refreshWindow env.monoNs).countFailure) with nonceValid := made } := by
    rw [← hraw]
    exact Daemon.modify_self i (fun s => { s with nonceValid := made }) d₂
  rw [Daemon.modify_self, hvalid]

/-- The two fields of a session that the limit is kept in. -/
def windowOf (s : Session) : UInt64 × UInt32 := (s.authWindowNs, s.authFailures)

/-- A failed attempt is counted in the window, and the connection is closed if it was one too
many. -/
theorem attempt_failed (hauth : opts.rxAuth = true)
    (hcalm : (d.sessions i).closeAfterReply = false)
    (hfail : attempt opts i frame env d = some false)
    (h : d.request opts i frame env = some d') :
    (authMaxFailures ≤ ((d.sessions i).refreshWindow env.monoNs).authFailures + 1 ∧
      ∃ d₁, d' = Daemon.destroy opts env.device i d₁) ∨
    (¬ authMaxFailures ≤ ((d.sessions i).refreshWindow env.monoNs).authFailures + 1 ∧
      windowOf (d'.sessions i) = windowOf ((d.sessions i).refreshWindow env.monoNs).countFailure) := by
  -- the request is an attempt, and its response is wrong
  obtain ⟨hcommand, method, keyId, response, hm, hno⟩ := attempt_eq_some hfail
  obtain ⟨id, d₁, hrun, rfl⟩ := request_handler hcommand h
  obtain ⟨dc, hok⟩ : ∃ dc, ((d.tokenise i frame).modify i (Session.refreshWindow
      env.monoNs)).checkResponse opts i method keyId response = (false, dc) :=
    ⟨_, Prod.ext ((checkResponse_refreshed ..).trans hno) rfl⟩
  -- the handler counts the failure and stores the new nonce
  have hpost : Prog.Post (exec opts env (d.received i frame env) i) (cmdAuthenticate opts id)
      (fun _ d₁ => ∃ raw made, d₁.sessions i = Session.limitFailures { Session.storeNonce made raw
        (((d.sessions i).refreshWindow env.monoNs).countFailure) with nonceValid := made })
      (d.tokenise i frame) := by
    simp only [cmdAuthenticate, hauth, Bool.not_true, Bool.false_eq_true, if_false, Prog.post_bind]
    rw [Prog.post_of_run (authParams_run id hm)]
    simp only [Prog.post_bind, post_monoNs, post_modify, post_checkResponse, hok, Bool.false_eq_true,
      if_false, authFailed, post_makeNonce, post_self, post_send]
    intro made d₂ hmade
    obtain ⟨raw, hraw⟩ := rejected_record hok hmade
    exact ⟨raw, made, hraw⟩
  obtain ⟨raw, made, hself⟩ := hpost () d₁ hrun
  have hcalm' : ((d.sessions i).refreshWindow env.monoNs).closeAfterReply = false := by
    unfold Session.refreshWindow
    split_ifs <;> exact hcalm
  -- too many failures close the connection after the reply
  unfold Session.limitFailures at hself
  split_ifs at hself with hmany
  · have hclose : (d₁.sessions i).closeAfterReply = true := by rw [hself]
    rw [if_pos hclose]
    exact .inl ⟨hmany, d₁, rfl⟩
  · have hopen : ¬ (d₁.sessions i).closeAfterReply = true := by
      rw [hself]
      show ¬ ((d.sessions i).refreshWindow env.monoNs).closeAfterReply = true
      rw [hcalm']
      decide
    rw [if_neg hopen, hself]
    exact .inr ⟨hmany, rfl⟩

/-- A request that is no failed attempt leaves the window as it is, or begins a new one if it is an
attempt. -/
theorem outcome_window {c : Option Command} {d₁ : Daemon} (hown : Owned d)
    (hlive : (d.sessions i).live = true) (hcommand : d.command opts i frame env = some c)
    (hout : Outcome opts env (d.received i frame env) i (d.tokenise i frame) c d₁) :
    (windowOf (d₁.sessions i) = windowOf (d.sessions i)) ∨
      (attempt opts i frame env d = some true ∧ windowOf (d₁.sessions i) =
        windowOf ((d.sessions i).refreshWindow env.monoNs)) ∨
      attempt opts i frame env d = some false := by
  have hown' : Owned (d.tokenise i frame) := hown.congr rfl rfl
  cases hout with
  | ignored | answered | status => exact .inl rfl
  | auth h =>
    cases h with
    | hello _ _ name id =>
      have hself := Daemon.modify_self i (Session.accept name) (d.tokenise i frame)
      exact .inl ((congrArg windowOf hself).trans rfl)
    -- a new nonce leaves the window as it is
    | challenged _ _ name id hex made d₂ hmade =>
      obtain ⟨raw, hraw⟩ := makeNonce_self hmade
      rw [Daemon.modify_self] at hraw
      have hself := Daemon.modify_self i (Session.challenge made) d₂
      refine .inl ((congrArg windowOf hself).trans ?_)
      rw [hraw]
      cases made <;> rfl
    -- a response that is right counts no failure, but the window may have run out
    | unlocked method keyId response id hm _ d₂ hok =>
      have hchecked := congrFun (checkResponse_sessions hok) i
      rw [Daemon.modify_self] at hchecked
      have hself := Daemon.modify_self i Session.unlock d₂
      refine .inr (.inl ⟨?_, (congrArg windowOf hself).trans ?_⟩)
      · rw [attempt_of_request hcommand hm, ← checkResponse_refreshed env.monoNs, hok]
      · rw [hchecked]
        rfl
    | rejected method keyId response id hm _ hex made d₂ d₃ hok hmade =>
      refine .inr (.inr ?_)
      rw [attempt_of_request hcommand hm, ← checkResponse_refreshed env.monoNs, hok]
  | config _ _ h => exact .inl (by rw [h.configures.sessions]; rfl)
  -- the stream commands never touch the fields of the authentication
  | stream _ h =>
    have hkept := (streamOutcome_streams h hown' hlive).authFields
    exact .inl (Prod.ext (congrArg AuthFields.authWindowNs hkept)
      (congrArg AuthFields.authFailures hkept))

end

/-! ## A connection -/

/-- A connection as it is watched: the daemon, the last time that `mono_ns` has given, and the times
of the failed attempts of the connection, the last one first. -/
structure Watch where
  daemon : Daemon
  clock : ℕ
  failed : List ℕ

/-- The steps of the daemon while the connection is there, with a clock that never goes back. -/
def watch (opts : Options) (i : SessId) (w : Watch) (a : Action) : Option Watch :=
  if (w.daemon.sessions i).live then
    match a with
    | .request j frame env =>
      if w.clock ≤ env.monoNs.toNat then
        (step opts w.daemon a).map fun d' => ⟨d', env.monoNs.toNat,
          if j = i ∧ attempt opts i frame env w.daemon = some false then
            env.monoNs.toNat :: w.failed else w.failed⟩
      else none
    | a => (step opts w.daemon a).map fun d' => ⟨d', w.clock, w.failed⟩
  else none

/-- The number of times in the minute before a time. -/
def recent (now : ℕ) (ts : List ℕ) : ℕ := ts.countP fun t => now ≤ t + authWindowNs.toNat

/-- A failed attempt that is the tenth in a minute closes the connection. -/
def Limits (opts : Options) (i : SessId) (w : Watch) (a : Action) (w' : Watch) : Prop :=
  match a with
  | .request j frame env => j = i → attempt opts i frame env w.daemon = some false →
      authMaxFailures.toNat ≤ recent env.monoNs.toNat w'.failed →
        w'.daemon.trace.head? = some (.closed i) ∧ (w'.daemon.sessions i).live = false
  | _ => True

/-- An attempt that begins a new window has no failed attempt in the minute before it. -/
def RestartsClean (opts : Options) (i : SessId) (w : Watch) (a : Action) : Prop :=
  match a with
  | .request j frame env => j = i → (attempt opts i frame env w.daemon).isSome = true →
      authWindowNs.toNat < env.monoNs.toNat - (w.daemon.sessions i).authWindowNs.toNat →
        recent env.monoNs.toNat w.failed = 0
  | _ => True

/-- Whether a step is within the limits can be computed. -/
instance (opts : Options) (i : SessId) (w : Watch) (a : Action) (w' : Watch) :
    Decidable (Limits opts i w a w') := by
  unfold Limits
  split <;> infer_instance

/-- Whether a window begins anew can be computed. -/
instance (opts : Options) (i : SessId) (w : Watch) (a : Action) :
    Decidable (RestartsClean opts i w a) := by
  unfold RestartsClean
  split <;> infer_instance

/-- A window and its count, at a time and after failed attempts: it holds every one of them but
those that were over a minute before it began. -/
structure Tally (now : ℕ) (failed : List ℕ) (s : Session) : Prop where
  past : s.authWindowNs.toNat ≤ now
  few : s.authFailures < authMaxFailures
  counted : ∃ inside before, failed = inside ++ before ∧ inside.length = s.authFailures.toNat ∧
    recent s.authWindowNs.toNat before = 0

section
variable {now now' : ℕ} {failed : List ℕ} {s s' : Session}

/-- A later minute holds no more of the past. -/
theorem recent_le (h : now ≤ now') (ts : List ℕ) : recent now' ts ≤ recent now ts :=
  List.countP_mono_left fun _ _ ht => decide_eq_true (h.trans (of_decide_eq_true ht))

/-- The window of the failures stays. -/
theorem Tally.congr (h : Tally now failed s) (hs : windowOf s' = windowOf s) :
    Tally now failed s' := by
  obtain ⟨hwindow, hcount⟩ := Prod.mk.inj hs
  refine ⟨?_, ?_, ?_⟩
  · rw [hwindow]
    exact h.past
  · rw [hcount]
    exact h.few
  · rw [hwindow, hcount]
    exact h.counted

/-- Time passes. -/
theorem Tally.later (h : Tally now failed s) (hnow : now ≤ now') : Tally now' failed s :=
  ⟨h.past.trans hnow, h.few, h.counted⟩

/-- There are fewer than ten failures in the last minute. -/
theorem Tally.recent_lt (h : Tally now failed s) : recent now failed < authMaxFailures.toNat := by
  obtain ⟨inside, before, rfl, hinside, hbefore⟩ := h.counted
  have hfew := UInt32.lt_iff_toNat_lt.mp h.few
  calc recent now (inside ++ before)
      = recent now inside + recent now before := List.countP_append
    _ ≤ inside.length + recent s.authWindowNs.toNat before :=
        Nat.add_le_add List.countP_le_length (recent_le h.past before)
    _ < authMaxFailures.toNat := by rw [hinside, hbefore]; exact hfew

/-- One more failure, if it is not one too many. -/
theorem Tally.count (h : Tally now failed s) (hfew : ¬ authMaxFailures ≤ s.authFailures + 1) :
    Tally now (now :: failed) s.countFailure := by
  obtain ⟨inside, before, rfl, hinside, hbefore⟩ := h.counted
  refine ⟨h.past, UInt32.not_le.mp hfew, now :: inside, before, rfl, ?_, hbefore⟩
  have hlt : s.authFailures.toNat < 10 := UInt32.lt_iff_toNat_lt.mp h.few
  show inside.length + 1 = (s.authFailures + 1).toNat
  rw [UInt32.toNat_add, hinside, UInt32.toNat_one]
  omega

/-- An attempt may begin a new window when the last minute is free of failures. -/
theorem Tally.refresh {time : UInt64} (h : Tally time.toNat failed s)
    (hclean : authWindowNs.toNat < time.toNat - s.authWindowNs.toNat → recent time.toNat failed = 0) :
    Tally time.toNat failed (s.refreshWindow time) := by
  unfold Session.refreshWindow
  split_ifs with hover
  · rw [UInt64.lt_iff_toNat_lt, UInt64.toNat_sub_of_le _ _ (UInt64.le_iff_toNat_le.mpr h.past)] at hover
    have hnone : (0 : UInt32) < authMaxFailures := by decide
    exact ⟨le_rfl, hnone, [], failed, rfl, rfl, hclean hover⟩
  · exact h

end

section
variable {opts : Options} {i : SessId} {w w' : Watch} {a : Action}

/-- What a step is, as it is watched. -/
theorem watch_cases (h : watch opts i w a = some w') :
    (w.daemon.sessions i).live = true ∧ step opts w.daemon a = some w'.daemon ∧
      w.clock ≤ w'.clock ∧
      ((∃ frame env, a = .request i frame env ∧ w'.clock = env.monoNs.toNat ∧
          w'.failed = if attempt opts i frame env w.daemon = some false then
            env.monoNs.toNat :: w.failed else w.failed) ∨
        (∀ frame env, a ≠ .request i frame env) ∧ w'.failed = w.failed) := by
  obtain ⟨hlive, h⟩ := Option.ite_none_right_eq_some.mp h
  refine ⟨hlive, ?_⟩
  cases a with
  | request j frame env =>
    obtain ⟨hclock, h⟩ := Option.ite_none_right_eq_some.mp h
    obtain ⟨d', hstep, rfl⟩ := Option.map_eq_some_iff.mp h
    refine ⟨hstep, hclock, ?_⟩
    by_cases hj : j = i
    · subst hj
      exact .inl ⟨frame, env, rfl, rfl, by simp⟩
    · refine .inr ⟨fun _ _ heq => ?_, if_neg fun hboth => hj hboth.1⟩
      cases heq
      exact hj rfl
  | connect | disconnect | usb =>
    obtain ⟨d', hstep, rfl⟩ := Option.map_eq_some_iff.mp h
    exact ⟨hstep, le_rfl, .inr ⟨nofun, rfl⟩⟩

/-- Other steps make no attempt. -/
theorem limits_of_other (h : ∀ frame env, a ≠ .request i frame env) : Limits opts i w a w' := by
  cases a with
  | request j frame env =>
    rintro rfl
    exact absurd rfl (h frame env)
  | connect | disconnect | usb => trivial

/-- What is known of a connection while it is there. -/
structure Throttled (i : SessId) (w : Watch) : Prop where
  owned : Owned w.daemon
  tally : (w.daemon.sessions i).live = true → Tally w.clock w.failed (w.daemon.sessions i)

/-- A failed attempt is counted, or closes the connection. -/
theorem tally_failed {frame : List UInt8} {env : Env} (hauth : opts.rxAuth = true)
    (hown : Owned w.daemon) (htally : Tally env.monoNs.toNat w.failed (w.daemon.sessions i))
    (hclean : RestartsClean opts i w (.request i frame env))
    (hfail : attempt opts i frame env w.daemon = some false) {d' : Daemon}
    (hrequest : w.daemon.request opts i frame env = some d') :
    (d'.trace.head? = some (.closed i) ∧ (d'.sessions i).live = false) ∨
      Tally env.monoNs.toNat (env.monoNs.toNat :: w.failed) (d'.sessions i) := by
  have hwindow := htally.refresh (hclean rfl (by rw [hfail]; rfl))
  rcases attempt_failed hauth (hown.calm i) hfail hrequest with ⟨-, d₁, rfl⟩ | ⟨hfew, hnew⟩
  · obtain ⟨d₂, -, htrace⟩ := destroy_trace opts env.device i d₁
    refine .inl ⟨?_, ?_⟩
    · rw [htrace]
      rfl
    · rw [destroy_self]
      rfl
  · exact .inr ((hwindow.count hfew).congr hnew)

/-- Any other request of the connection leaves the failures as they are. -/
theorem tally_other {frame : List UInt8} {env : Env} (hown : Owned w.daemon)
    (hlive : (w.daemon.sessions i).live = true)
    (htally : Tally env.monoNs.toNat w.failed (w.daemon.sessions i))
    (hclean : RestartsClean opts i w (.request i frame env))
    (hfail : attempt opts i frame env w.daemon ≠ some false) {d' : Daemon}
    (hrequest : w.daemon.request opts i frame env = some d')
    (hlive' : (d'.sessions i).live = true) :
    Tally env.monoNs.toNat w.failed (d'.sessions i) := by
  obtain ⟨c, d₁, hcommand, hout, hd'⟩ := request_outcome hrequest
  obtain rfl : d' = d₁ := by
    rw [hd'] at hlive' ⊢
    split_ifs at hlive' ⊢
    · rw [destroy_self] at hlive'
      cases hlive'
    · rfl
  rcases outcome_window hown hlive hcommand hout with hkept | ⟨hok, hnew⟩ | hfail'
  · exact htally.congr hkept
  · exact (htally.refresh (hclean rfl (by rw [hok]; rfl))).congr hnew
  · exact absurd hfail' hfail

/-- What one step does, if attempts only begin a new window after a minute without a failure. -/
theorem Throttled.next (hauth : opts.rxAuth = true) (h : Throttled i w)
    (hstep : watch opts i w a = some w') (hclean : RestartsClean opts i w a) :
    Throttled i w' ∧ Limits opts i w a w' := by
  obtain ⟨hlive, hdaemon, hclock, hcases⟩ := watch_cases hstep
  have htally := (h.tally hlive).later hclock
  have hown : Owned w'.daemon := h.owned.next hdaemon
  -- either this session has sent a request, or something else has happened
  rcases hcases with ⟨frame, env, rfl, hnow, hfailed⟩ | ⟨hother, hfailed⟩
  · obtain ⟨-, hrequest⟩ := Option.ite_none_right_eq_some.mp hdaemon
    rw [hnow] at htally
    by_cases hfail : attempt opts i frame env w.daemon = some false
    · rw [if_pos hfail] at hfailed
      rcases tally_failed hauth h.owned htally hclean hfail hrequest with hclosed | htally'
      · refine ⟨⟨hown, fun hlive' => ?_⟩, fun _ _ _ => hclosed⟩
        rw [hclosed.2] at hlive'
        cases hlive'
      · refine ⟨⟨hown, fun _ => ?_⟩, fun _ _ hmany => ?_⟩
        · rw [hnow, hfailed]
          exact htally'
        · rw [hfailed] at hmany
          exact absurd htally'.recent_lt (Nat.not_lt.mpr hmany)
    · rw [if_neg hfail] at hfailed
      refine ⟨⟨hown, fun hlive' => ?_⟩, fun _ hfail' => absurd hfail' hfail⟩
      rw [hnow, hfailed]
      exact tally_other h.owned hlive htally hclean hfail hrequest hlive'
  · refine ⟨⟨hown, fun hlive' => ?_⟩, limits_of_other hother⟩
    -- nothing else touches a session that is alive before and after
    have hkept : w'.daemon.sessions i = w.daemon.sessions i := by
      by_contra htouched
      rcases touched_cases h.owned hdaemon htouched with ⟨fd, hfree, -⟩ |
        ⟨frame, env, -, -, rfl, -⟩ | ⟨env, rfl, hd'⟩
      · rw [hlive] at hfree
        cases hfree
      · exact hother frame env rfl
      · rw [hd', destroy_self] at hlive'
        cases hlive'
    rw [hkept, hfailed]
    exact htally

end

/-- A connection is accepted. -/
theorem step_connect {opts : Options} {d : Daemon} {fd : ℕ} {stack : List Tok} (hfd : 0 < fd)
    (hstack : stack.length = maxJsonTokens) :
    step opts d (.connect fd stack) = some (d.sessionCreate fd stack) := if_pos ⟨hfd, hstack⟩

/-- On every connection, at times that never go back, and whatever else happens: if attempts only
begin a new window after a minute without a failure, the tenth failed attempt in a minute closes the
connection. -/
theorem failures_limited (opts : Options) (hauth : opts.rxAuth = true) (dev : Rtl.Device)
    (o : Rtl.Startup) (contextPackets : Bool) (d₀ d : Daemon)
    (hreach : Reachable (step opts) (Daemon.init dev o contextPackets) d₀) (fd : ℕ) (stack : List Tok)
    (hconnect : step opts d₀ (.connect fd stack) = some d) (i : SessId)
    (hfree : (d₀.sessions i).live = false) (hlive : (d.sessions i).live = true) (clock : ℕ)
    (acts : List Action)
    (hclean : Along (watch opts i) (fun w a _ => RestartsClean opts i w a) ⟨d, clock, []⟩ acts) :
    Along (watch opts i) (Limits opts i) ⟨d, clock, []⟩ acts := by
  have hown : Owned d₀ := hreach.invariant (owned_init dev o contextPackets) fun _ _ _ h hs => h.next hs
  have htouched : d.sessions i ≠ d₀.sessions i := fun hsame => by
    rw [hsame, hfree] at hlive
    cases hlive
  have hnew : ∃ fd, d.sessions i = Session.new fd := by
    rcases touched_cases hown hconnect htouched with ⟨fd, -, hnew⟩ | ⟨_, _, _, _, heq, -⟩ | ⟨_, heq, -⟩
    · exact ⟨fd, hnew⟩
    · cases heq
    · cases heq
  obtain ⟨fd', hnew⟩ := hnew
  have hnext : ∀ w a w', Throttled i w → watch opts i w a = some w' → RestartsClean opts i w a →
      Throttled i w' ∧ Limits opts i w a w' := fun _ _ _ h hstep hclean => h.next hauth hstep hclean
  refine along_of_invariant hnext ⟨hown.next hconnect, fun _ => ?_⟩ hclean
  show Tally clock [] (d.sessions i)
  rw [hnew]
  have hnone : (0 : UInt32) < authMaxFailures := by decide
  exact ⟨Nat.zero_le _, hnone, [], [], rfl, rfl, rfl⟩

/-- An answer that is wrong whatever the nonce, at a time. -/
def guess (ns : UInt64) : Action :=
  .request 0 (requestFrame "authenticate" "\"method\":\"none\",\"response\":\"\"")
    { quiet 7 with monoNs := ns }

/-- The first client has connected. -/
def connected : Watch :=
  ⟨started.sessionCreate 5 (List.replicate maxJsonTokens ⟨.undefined, 0, 0, 0⟩), 0, []⟩

/-- The tenth wrong answer in a row closes the connection. -/
theorem failures_limited_in_a_row :
    (runActs (watch keyedAccess 0) connected (.request 0 helloFrame (quiet 7) ::
      List.replicate 10 (guess 1000))).any (fun w => recent 1000 w.failed = 10) = true ∧
    Along (watch keyedAccess 0) (Limits keyedAccess 0) connected
      (.request 0 helloFrame (quiet 7) :: List.replicate 10 (guess 1000)) := by
  have hconnect : step keyedAccess started connect = some connected.daemon :=
    step_connect (by decide) List.length_replicate
  refine ⟨by decide +kernel, ?_⟩
  exact failures_limited keyedAccess rfl obedient ⟨.normal, false, false, 0, 0⟩ true started
    connected.daemon (Reachable.refl _) 5 _ hconnect 0 rfl (by decide +kernel) 0 _ (by decide +kernel)

/-- One wrong answer, eight more at the end of the minute, and two when the minute is over: of the
last ten, all within a nanosecond, the last does not close the connection. -/
theorem slow_then_fast :
    ¬ Along (watch keyedAccess 0) (Limits keyedAccess 0) connected
      (.request 0 helloFrame (quiet 7) :: guess 100000000000 ::
        (List.replicate 8 (guess 160000000000) ++ List.replicate 2 (guess 160000000001))) := by
  decide +kernel

end SlcRtld.Property
