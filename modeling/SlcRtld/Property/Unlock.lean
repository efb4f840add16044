import SlcRtld.Property.Ownership

/-!
# Unlocking the receiver

When authentication is required, a connection is unlocked by the right response to a challenge, and
by nothing else. The history of a connection determines the nonce that a response is checked against
(`freshNonce`): the one issued last, as long as it has not been used. `Remembers` says that the
session's buffers hold just that, and `SingleUse` that every check in the history was against a
nonce that was fresh at the time. `unlocking` collects what follows for whole runs.
-/

namespace SlcRtld.Property

open Control Effect Auth Json

/-! ## The history of a connection -/

/-- What an observation means for the fresh nonce of the connection in a slot. An attempt to make
a nonce that fails leaves none. -/
def noteNonce (i : SessId) (fresh : Option (List UInt8)) : Obs → Option (List UInt8)
  | .connected j | .closed j | .verify j _ _ => if j = i then none else fresh
  | .nonce j made => if j = i then made else fresh
  | _ => fresh

/-- The nonce most recently issued on the connection in a slot, if it has not been used and no
attempt to make another one has failed since. -/
def freshNonce (i : SessId) : List Obs → Option (List UInt8)
  | [] => none
  | o :: os => noteNonce i (freshNonce i os) o

/-- Every response was checked against the nonce that was fresh at the time. -/
def SingleUse (i : SessId) : List Obs → Prop
  | [] => True
  | o :: os => (∀ a ok, o = .verify i a ok → freshNonce i os = some a.nonce) ∧ SingleUse i os

/-- A session's record holds the fresh nonce. -/
def Remembers (i : SessId) (tr : List Obs) (s : Session) : Prop :=
  freshNonce i tr = if s.nonceValid then some s.nonce else none

/-- The history and the record of a slot agree. -/
structure Fresh (i : SessId) (tr : List Obs) (s : Session) : Prop where
  remembers : Remembers i tr s
  singleUse : SingleUse i tr

section
variable {i j : SessId} {tr : List Obs}

/-- The observation does not concern the nonce of a slot. -/
def bystander (i : SessId) : Obs → Prop
  | .connected j | .closed j | .verify j _ _ | .nonce j _ => j ≠ i
  | _ => True

/-- An output says nothing of the nonces. -/
theorem bystander_of_output {o : Obs} (h : o.output = true) : bystander i o := by
  cases o with
  | hardware | sent | datagram => trivial
  | connected | closed | nonce | verify => cases h

/-- What is about another session says nothing of this one's nonces. -/
theorem bystander_of_about {o : Obs} (h : o.about j) (hj : j ≠ i) : bystander i o := by
  cases o with
  | sent | datagram | hardware => trivial
  | nonce k | verify k => exact fun hk => hj (h.symm.trans hk)
  | connected | closed => exact absurd h id

/-- What says nothing of the nonces leaves the last one fresh, or stale. -/
theorem freshNonce_append {new : List Obs} (h : ∀ o ∈ new, bystander i o) :
    freshNonce i (new ++ tr) = freshNonce i tr := by
  induction new with
  | nil => rfl
  | cons o os ih =>
    obtain ⟨ho, hos⟩ := List.forall_mem_cons.mp h
    rw [List.cons_append, freshNonce, ih hos]
    cases o with
    | connected | closed | verify | nonce => exact if_neg ho
    | hardware | sent | datagram => rfl

/-- What says nothing of the nonces uses none. -/
theorem singleUse_append {new : List Obs} (h : ∀ o ∈ new, bystander i o)
    (htr : SingleUse i tr) : SingleUse i (new ++ tr) := by
  induction new with
  | nil => exact htr
  | cons o os ih =>
    obtain ⟨ho, hos⟩ := List.forall_mem_cons.mp h
    refine ⟨fun a ok hv => ?_, ih hos⟩
    subst hv
    exact absurd rfl ho

/-- What happens to others, and what is only said, leaves a slot's history and record in
agreement. -/
theorem Fresh.append {s s' : Session} {new : List Obs} (h : Fresh i tr s)
    (hnew : ∀ o ∈ new, bystander i o) (hvalid : s'.nonceValid = s.nonceValid)
    (hnonce : s'.nonce = s.nonce) : Fresh i (new ++ tr) s' where
  remembers := by
    unfold Remembers
    rw [freshNonce_append hnew, hvalid, hnonce]
    exact h.remembers
  singleUse := singleUse_append hnew h.singleUse

/-- Outputs, and fields that stay. -/
theorem Fresh.outputs {d d' : Daemon} (h : Fresh i d.trace (d.sessions i)) (hout : Outputs d d')
    (hauth : (d'.sessions i).authFields = (d.sessions i).authFields) :
    Fresh i d'.trace (d'.sessions i) := by
  obtain ⟨new, hnew, houtput⟩ := hout
  rw [hnew]
  exact h.append (fun o ho => bystander_of_output (houtput o ho))
    (congrArg AuthFields.nonceValid hauth) (congrArg AuthFields.nonce hauth)

/-- A check of a response uses the nonce up. -/
theorem Fresh.verify {s : Session} {method keyId response : CStr} {ok : Bool} (h : Fresh i tr s)
    (hvalid : s.nonceValid = true) :
    SingleUse i (.verify i ⟨method, keyId, s.nonce, response⟩ ok :: tr) := by
  refine ⟨fun a ok' hv => ?_, h.singleUse⟩
  have hremembers := h.remembers
  unfold Remembers at hremembers
  rw [hvalid, if_pos rfl] at hremembers
  cases hv
  exact hremembers

end

/-! ## Steps -/

section
variable {opts : Options} {env : Env} {m : Msg} {i : SessId} {d d' : Daemon} {c : Command}

/-- A frame. -/
theorem Fresh.send (h : Fresh i d.trace (d.sessions i)) {j : SessId} {f : Frame} :
    Fresh i (d.send j f).trace ((d.send j f).sessions i) :=
  h.outputs (Emits.send (P := (·.output = true)) rfl d) rfl

/-- A change that keeps the nonce. -/
theorem Fresh.modify (h : Fresh i d.trace (d.sessions i)) {f : Session → Session}
    (hvalid : ∀ s, (f s).nonceValid = s.nonceValid) (hnonce : ∀ s, (f s).nonce = s.nonce) :
    Fresh i (d.modify i f).trace ((d.modify i f).sessions i) := by
  rw [Daemon.modify_self]
  show Fresh i ([] ++ d.trace) _
  exact h.append (by simp) (hvalid _) (hnonce _)

/-- An attempt to make a nonce, and the note whether it has succeeded. -/
theorem fresh_issue {os : List GetRandom} {made : Bool} {d₁ : Daemon} {f : Session → Session}
    (hmade : d.makeNonce os i = some (made, d₁)) (h : SingleUse i d.trace)
    (hvalid : ∀ s, (f s).nonceValid = made) (hnonce : ∀ s, (f s).nonce = s.nonce) :
    Fresh i (d₁.modify i f).trace ((d₁.modify i f).sessions i) := by
  obtain ⟨raw, -, rfl⟩ := makeNonce_eq hmade
  have hself : ((d.modify i (Session.storeNonce made raw)).log
      [.nonce i (if made then some raw else none)]).sessions i =
        (d.sessions i).storeNonce made raw := Daemon.modify_self ..
  rw [Daemon.modify_self, hself]
  refine ⟨?_, nofun, h⟩
  unfold Remembers
  rw [hvalid, hnonce]
  exact if_pos rfl

/-- What a check of a response says when it succeeds. -/
theorem checkResponse_true {method keyId response : CStr} {d₁ : Daemon}
    (h : d.checkResponse opts i method keyId response = (true, d₁)) :
    (d.sessions i).nonceValid = true ∧ method = authMethodPsk ∧
      authVerify opts.keys keyId (d.sessions i).nonce response = true ∧
      d₁ = d.log [.verify i ⟨method, keyId, (d.sessions i).nonce, response⟩ true] := by
  obtain ⟨hok, rfl⟩ := Prod.mk.inj h
  simp only [Bool.and_eq_true, decide_eq_true_eq] at hok
  obtain ⟨⟨⟨hvalid, hmethod⟩, hkeys⟩, hverify⟩ := hok
  refine ⟨hvalid, hmethod, hverify, ?_⟩
  simp only [hvalid, hmethod, hkeys, hverify, decide_true, Bool.and_self, if_true]

/-- A nonce that was valid has been used up by the check, whatever came of it. -/
theorem checkResponse_singleUse {method keyId response : CStr} {ok : Bool} {d₁ : Daemon}
    (hfresh : Fresh i d.trace (d.sessions i))
    (h : d.checkResponse opts i method keyId response = (ok, d₁)) : SingleUse i d₁.trace := by
  obtain ⟨-, rfl⟩ := Prod.mk.inj h
  simp only [Daemon.log]
  split_ifs with hvalid
  · exact hfresh.verify hvalid
  · exact hfresh.singleUse

/-- A response that is accepted leaves no fresh nonce. -/
theorem fresh_unlock {method keyId response : CStr} {d₁ : Daemon}
    (hfresh : Fresh i d.trace (d.sessions i))
    (h : d.checkResponse opts i method keyId response = (true, d₁)) :
    Fresh i (d₁.modify i Session.unlock).trace ((d₁.modify i Session.unlock).sessions i) := by
  have hsingle := checkResponse_singleUse hfresh h
  obtain ⟨-, -, -, rfl⟩ := checkResponse_true h
  refine ⟨?_, hsingle⟩
  rw [Daemon.modify_self]
  exact if_pos rfl

/-- The window of the failures keeps the nonce and the lock. -/
theorem refreshWindow_authFields (now : UInt64) (s : Session) :
    (s.refreshWindow now).nonceValid = s.nonceValid ∧ (s.refreshWindow now).nonce = s.nonce ∧
      (s.refreshWindow now).rxUnlocked = s.rxUnlocked := by
  unfold Session.refreshWindow
  split_ifs <;> exact ⟨rfl, rfl, rfl⟩

/-- So does the limit of the failures. -/
theorem limitFailures_authFields (s : Session) :
    s.limitFailures.nonceValid = s.nonceValid ∧ s.limitFailures.nonce = s.nonce ∧
      s.limitFailures.rxUnlocked = s.rxUnlocked := by
  unfold Session.limitFailures
  split_ifs <;> exact ⟨rfl, rfl, rfl⟩

/-- A challenge makes the nonce valid, or invalid if there is none. -/
theorem challenge_authFields (made : Bool) (s : Session) :
    (s.challenge made).nonceValid = made ∧ (s.challenge made).nonce = s.nonce ∧
      (s.challenge made).rxUnlocked = s.rxUnlocked := by
  cases made <;> exact ⟨rfl, rfl, rfl⟩

/-- `hello` and `authenticate` keep the history and the record of their slot in agreement. -/
theorem authOutcome_fresh (h : AuthOutcome opts env m i d c d')
    (hfresh : Fresh i d.trace (d.sessions i)) : Fresh i d'.trace (d'.sessions i) := by
  cases h with
  | hello _ _ name id =>
    exact (hfresh.modify (f := Session.accept name) (fun _ => rfl) fun _ => rfl).send
  | challenged _ _ name id hex made d₁ hmade =>
    exact (fresh_issue hmade hfresh.singleUse (fun s => (challenge_authFields made s).1)
      fun s => (challenge_authFields made s).2.1).send
  | unlocked method keyId response id _ _ d₁ hok =>
    have hwindow := hfresh.modify (f := Session.refreshWindow env.monoNs)
      (fun s => (refreshWindow_authFields _ s).1) fun s => (refreshWindow_authFields _ s).2.1
    exact (fresh_unlock hwindow hok).send
  | rejected method keyId response id _ _ hex made d₁ d₂ hok hmade =>
    have hwindow := hfresh.modify (f := Session.refreshWindow env.monoNs)
      (fun s => (refreshWindow_authFields _ s).1) fun s => (refreshWindow_authFields _ s).2.1
    have hissued := fresh_issue (f := fun s => { s with nonceValid := made }) hmade
      (show SingleUse i d₁.trace from checkResponse_singleUse hwindow hok) (fun _ => rfl)
      fun _ => rfl
    exact hissued.send.modify (fun s => (limitFailures_authFields s).1)
      fun s => (limitFailures_authFields s).2.1

/-- A message of a session keeps every slot's history and record in agreement. -/
theorem outcome_fresh {c : Option Command} (h : Outcome opts env m i d c d') (hown : Owned d)
    (hlive : (d.sessions i).live = true) (j : SessId) (hfresh : Fresh j d.trace (d.sessions j)) :
    Fresh j d'.trace (d'.sessions j) := by
  have hserves := outcome_serves h hown hlive
  cases h with
  | ignored => exact hfresh
  | answered | status => exact hfresh.send
  | auth h =>
    by_cases hji : j = i
    · subst hji
      exact authOutcome_fresh h hfresh
    · obtain ⟨new, hnew, habout⟩ := h.isPrivate.trace
      rw [hnew, hserves.others j hji]
      exact hfresh.append (fun o ho => bystander_of_about (habout o ho) (Ne.symm hji)) rfl rfl
  | config _ _ h => exact hfresh.outputs h.outputs (by rw [h.configures.sessions])
  | stream _ h =>
    refine hfresh.outputs h.outputs ?_
    by_cases hji : j = i
    · subst hji
      exact (streamOutcome_streams h hown hlive).authFields
    · rw [hserves.others j hji]

/-- The end of a session leaves the others' nonces, and its own slot without one. -/
theorem Fresh.destroy (hfresh : ∀ j, Fresh j d.trace (d.sessions j)) (dev : Rtl.Device)
    (i j : SessId) : Fresh j (d.destroy opts dev i).trace ((d.destroy opts dev i).sessions j) := by
  obtain ⟨d₁, ⟨new, hnew, houtput⟩, htrace⟩ := destroy_trace opts dev i d
  have hbystander : ∀ o ∈ new, bystander j o := fun o ho => bystander_of_output (houtput o ho)
  by_cases hji : j = i
  · subst hji
    rw [destroy_self, htrace, hnew]
    exact ⟨if_pos rfl, nofun, singleUse_append hbystander (hfresh j).singleUse⟩
  · rw [destroy_of_ne opts dev hji, htrace, hnew, ← List.cons_append]
    refine (hfresh j).append (fun o ho => ?_) rfl rfl
    rcases List.mem_cons.mp ho with rfl | ho
    · exact fun hij => hji hij.symm
    · exact hbystander o ho

/-- A new session has no nonce. -/
theorem Fresh.sessionCreate (hfresh : ∀ j, Fresh j d.trace (d.sessions j)) (fd : ℕ)
    (stack : List Tok) (j : SessId) :
    Fresh j (d.sessionCreate fd stack).trace ((d.sessionCreate fd stack).sessions j) := by
  rcases sessionCreate_cases fd stack d with h | ⟨i, -, h⟩
  · rw [h]
    exact hfresh j
  · rw [h]
    by_cases hji : j = i
    · subst hji
      have hself : ((({ d with tokens := Function.update d.tokens j stack }.modify j
          fun _ => Session.new fd).log [.connected j]).sessions j) = Session.new fd :=
        Function.update_self ..
      rw [hself]
      exact ⟨if_pos rfl, nofun, (hfresh j).singleUse⟩
    · have hself : ((({ d with tokens := Function.update d.tokens i stack }.modify i
          fun _ => Session.new fd).log [.connected i]).sessions j) = d.sessions j :=
        Function.update_of_ne hji ..
      rw [hself]
      show Fresh j ([.connected i] ++ d.trace) _
      refine (hfresh j).append (fun o ho => ?_) rfl rfl
      rw [List.mem_singleton.mp ho]
      exact fun hij => hji hij.symm

/-- Every step keeps every slot's history and record in agreement. -/
theorem fresh_next {a : Action} (hown : Owned d) (hfresh : ∀ j, Fresh j d.trace (d.sessions j))
    (hstep : step opts d a = some d') (j : SessId) : Fresh j d'.trace (d'.sessions j) := by
  cases stepped_of_step hstep with
  | connect fd stack => exact Fresh.sessionCreate hfresh fd stack j
  | request i frame env c d₁ hlive _ hout =>
    have hown' : Owned (d.tokenise i frame) := hown.congr rfl rfl
    have hfresh₁ : ∀ j, Fresh j d₁.trace (d₁.sessions j) := fun j =>
      outcome_fresh hout hown' hlive j (hfresh j)
    split_ifs
    · exact Fresh.destroy hfresh₁ env.device i j
    · exact hfresh₁ j
  | disconnect i env => exact Fresh.destroy hfresh env.device i j
  | usb buf nowMs =>
    exact (hfresh j).outputs (rtlCallback_outputs buf nowMs d)
      (by rw [(rtlCallback_frame buf nowMs d).1])

/-! ## What unlocks -/

/-- The message asks for a session to be unlocked, with the right response for a nonce. -/
def ProvesKey (opts : Options) (m : Msg) (nonce : List UInt8) : Prop :=
  ∃ keyId response, AuthRequest m authMethodPsk keyId response ∧ response.length = 64 ∧
    ∃ k ∈ opts.keys, k.keyId = keyId ∧ readHex response = some (authHmacSha256 k.psk nonce)

/-- Only a response that proves a key unlocks a session. -/
theorem authOutcome_rxUnlocked (h : AuthOutcome opts env m i d c d') :
    (d'.sessions i).rxUnlocked = (d.sessions i).rxUnlocked ∨
      (c = .authenticate ∧ (d'.sessions i).rxUnlocked = true ∧ (d.sessions i).nonceValid = true ∧
        ProvesKey opts m (d.sessions i).nonce) := by
  cases h with
  | hello _ _ name id =>
    refine .inl ?_
    show ((d.modify i (Session.accept name)).sessions i).rxUnlocked = _
    rw [Daemon.modify_self]
    rfl
  | challenged _ _ name id hex made d₁ hmade =>
    obtain ⟨raw, hraw⟩ := makeNonce_self hmade
    rw [Daemon.modify_self] at hraw
    refine .inl ?_
    show ((d₁.modify i (Session.challenge made)).sessions i).rxUnlocked = _
    rw [Daemon.modify_self, (challenge_authFields made _).2.2, hraw]
    rfl
  -- only a response that verifies against the session's own nonce unlocks it
  | unlocked method keyId response id hm _ d₁ hok =>
    obtain ⟨hvalid, rfl, hverify, -⟩ := checkResponse_true hok
    obtain ⟨hvalid', hnonce', -⟩ := refreshWindow_authFields env.monoNs (d.sessions i)
    rw [Daemon.modify_self, hvalid'] at hvalid
    rw [Daemon.modify_self, hnonce', authVerify_iff] at hverify
    refine .inr ⟨rfl, ?_, hvalid, keyId, response, hm, hverify⟩
    exact congrArg Session.rxUnlocked (Daemon.modify_self i Session.unlock d₁)
  | rejected method keyId response id _ _ hex made d₁ d₂ hok hmade =>
    have hchecked := congrFun (checkResponse_sessions hok) i
    rw [Daemon.modify_self] at hchecked
    obtain ⟨raw, hraw⟩ := makeNonce_self hmade
    rw [Daemon.modify_self, hchecked] at hraw
    refine .inl ?_
    rw [Daemon.modify_self, (limitFailures_authFields _).2.2]
    show ((d₂.modify i fun s => { s with nonceValid := made }).sessions i).rxUnlocked = _
    rw [Daemon.modify_self, hraw]
    exact (refreshWindow_authFields env.monoNs (d.sessions i)).2.2

/-- A message unlocks its session when it answers the valid nonce, and otherwise leaves the lock as
it is. -/
theorem outcome_rxUnlocked {c : Option Command} (h : Outcome opts env m i d c d') (hown : Owned d)
    (hlive : (d.sessions i).live = true) :
    (d'.sessions i).rxUnlocked = (d.sessions i).rxUnlocked ∨
      (c = some .authenticate ∧ (d'.sessions i).rxUnlocked = true ∧
        (d.sessions i).nonceValid = true ∧ ProvesKey opts m (d.sessions i).nonce) := by
  cases h with
  | ignored | answered | status => exact .inl rfl
  | auth h =>
    rcases authOutcome_rxUnlocked h with hsame | ⟨rfl, hanswers⟩
    · exact .inl hsame
    · exact .inr ⟨rfl, hanswers⟩
  | config _ _ h => exact .inl (by rw [h.configures.sessions])
  | stream _ h =>
    exact .inl (congrArg AuthFields.rxUnlocked (streamOutcome_streams h hown hlive).authFields)

/-- The connection in a slot is unlocked. -/
def UnlockedAt (i : SessId) (d : Daemon) : Prop :=
  (d.sessions i).live = true ∧ (d.sessions i).rxUnlocked = true

/-- A connection becomes unlocked only by its own request that answers the fresh nonce. -/
theorem unlocked_by {a : Action} (hown : Owned d) (hfresh : ∀ j, Fresh j d.trace (d.sessions j))
    (hstep : step opts d a = some d') (hbefore : ¬ UnlockedAt i d) (hafter : UnlockedAt i d') :
    ∃ frame env nonce, a = .request i frame env ∧
      d.command opts i frame env = some (some .authenticate) ∧
      freshNonce i d.trace = some nonce ∧ ProvesKey opts (d.received i frame env) nonce := by
  have htouched : d'.sessions i ≠ d.sessions i := fun hsame => hbefore (by
    unfold UnlockedAt at hafter ⊢
    rwa [hsame] at hafter)
  rcases touched_cases hown hstep htouched with ⟨fd, -, hnew⟩ |
    ⟨frame, env, c, d₁, rfl, hlive, hcommand, hout, -, rfl⟩ | ⟨env, rfl, rfl⟩
  · -- a new connection is locked
    have hunlocked := hafter.2
    rw [hnew] at hunlocked
    cases hunlocked
  · have hown' : Owned (d.tokenise i frame) := hown.congr rfl rfl
    split_ifs at hafter
    · have hdead := hafter.1
      rw [destroy_self] at hdead
      cases hdead
    · rcases outcome_rxUnlocked hout hown' hlive with hsame | ⟨rfl, -, hvalid, hanswers⟩
      · exact absurd ⟨hlive, hsame.symm.trans hafter.2⟩ hbefore
      · refine ⟨frame, env, (d.sessions i).nonce, rfl, hcommand, ?_, hanswers⟩
        have hremembers := (hfresh i).remembers
        unfold Remembers at hremembers
        rw [hremembers]
        exact if_pos hvalid
  · have hdead := hafter.1
    rw [destroy_self] at hdead
    cases hdead

/-- An unlocked connection stays unlocked until it ends. -/
theorem unlocked_stays {a : Action} (hown : Owned d) (hstep : step opts d a = some d')
    (hbefore : UnlockedAt i d) (hlive : (d'.sessions i).live = true) : UnlockedAt i d' := by
  by_cases htouched : d'.sessions i = d.sessions i
  · unfold UnlockedAt
    rw [htouched]
    exact hbefore
  refine ⟨hlive, ?_⟩
  rcases touched_cases hown hstep htouched with ⟨fd, hfree, -⟩ |
    ⟨frame, env, c, d₁, rfl, -, -, hout, -, rfl⟩ | ⟨env, rfl, rfl⟩
  · rw [hbefore.1] at hfree
    cases hfree
  · have hown' : Owned (d.tokenise i frame) := hown.congr rfl rfl
    split_ifs at hlive ⊢
    · rw [destroy_self] at hlive
      cases hlive
    · rcases outcome_rxUnlocked hout hown' hbefore.1 with hsame | ⟨-, hunlocked, -⟩
      · exact hsame.trans hbefore.2
      · exact hunlocked
  · rw [destroy_self] at hlive
    cases hlive

/-! ## A right answer always unlocks -/

/-- The parameters of a complete request are found. -/
theorem authParams_run {method keyId response : CStr} (id : CStr)
    (hm : AuthRequest m method keyId response) :
    (authParams id).run (exec opts env m i) d = some (some (method, keyId, response), d) := by
  obtain ⟨p, mi, ri, ki, hp, hmi, hmethod, hri, hresponse, hki, hkey⟩ := hm
  refine Prog.run_of_post fun Q => ?_
  cases ki with
  | none =>
    simp only [authParams, findParams, Prog.post_bind, post_tokFindKey, hp, hmi, hri, hki,
      Option.some.injEq, forall_eq', post_tokStr, hmethod, hresponse, Prog.post_pure, hkey]
  | some k =>
    simp only [authParams, findParams, Prog.post_bind, post_tokFindKey, hp, hmi, hri, hki,
      Option.some.injEq, forall_eq', post_tokStr, hmethod, hresponse, Prog.post_pure, hkey]

/-- The run of `cmd_authenticate` on a right answer. -/
theorem authenticate_run {method keyId response : CStr} {d₁ : Daemon} (id : CStr)
    (hauth : opts.rxAuth = true) (hm : AuthRequest m method keyId response)
    (hok : (d.modify i (Session.refreshWindow env.monoNs)).checkResponse opts i method keyId
      response = (true, d₁)) :
    (cmdAuthenticate opts id).run (exec opts env m i) d =
      some ((), (d₁.modify i Session.unlock).send i (.ok id (.authenticated true))) := by
  refine Prog.run_of_post fun Q => ?_
  simp only [cmdAuthenticate, hauth, Bool.not_true, Bool.false_eq_true, if_false, Prog.post_bind]
  rw [Prog.post_of_run (authParams_run id hm)]
  simp only [Prog.post_bind, post_monoNs, post_modify, post_checkResponse, hok, if_true]
  exact post_send

/-- A request that answers the fresh nonce is carried out, and unlocks its connection. -/
theorem answer_unlocks {frame : List UInt8} {nonce : List UInt8} (hauth : opts.rxAuth = true)
    (hown : Owned d) (hfresh : Fresh i d.trace (d.sessions i))
    (hlive : (d.sessions i).live = true) (hlen : 1 ≤ frame.length ∧ frame.length ≤ maxMsgBytes)
    (hcommand : d.command opts i frame env = some (some .authenticate))
    (hnonce : freshNonce i d.trace = some nonce)
    (hanswers : ProvesKey opts (d.received i frame env) nonce) :
    ∃ d', step opts d (.request i frame env) = some d' ∧ UnlockedAt i d' := by
  obtain ⟨keyId, response, hm, hlength, k, hk, hkeyId, hhex⟩ := hanswers
  -- the record holds the fresh nonce
  obtain ⟨hvalid, rfl⟩ : (d.sessions i).nonceValid = true ∧ (d.sessions i).nonce = nonce := by
    have hremembers := hfresh.remembers.symm.trans hnonce
    split_ifs at hremembers with hvalid
    exact ⟨hvalid, Option.some.inj hremembers⟩
  have hself := Daemon.modify_self i (Session.refreshWindow env.monoNs) (d.tokenise i frame)
  obtain ⟨hvalid', hnonce', -⟩ := refreshWindow_authFields env.monoNs (d.sessions i)
  have hverify : authVerify opts.keys keyId (d.sessions i).nonce response = true :=
    (authVerify_iff ..).mpr ⟨hlength, k, hk, hkeyId, hhex⟩
  have hkeys : opts.keys.isEmpty = false := List.isEmpty_eq_false_iff.mpr (List.ne_nil_of_mem hk)
  obtain ⟨d₁, hok⟩ : ∃ d₁, ((d.tokenise i frame).modify i (Session.refreshWindow
      env.monoNs)).checkResponse opts i authMethodPsk keyId response = (true, d₁) := by
    refine ⟨_, Prod.ext ?_ rfl⟩
    show (_ && _) = true
    rw [hself]
    simp only [Bool.and_eq_true, decide_eq_true_eq, hkeys, Bool.not_false, and_true]
    exact ⟨hvalid'.trans hvalid, hnonce' ▸ hverify⟩
  obtain ⟨id, henv⟩ := envelope_of_command hcommand
  have hchecked : d₁.sessions i = (d.sessions i).refreshWindow env.monoNs :=
    (congrFun (checkResponse_sessions hok) i).trans hself
  have hfinal : (((d₁.modify i Session.unlock).send i (.ok id (.authenticated true))).sessions i) =
      ((d.sessions i).refreshWindow env.monoNs).unlock := by
    rw [← hchecked]
    exact Daemon.modify_self ..
  have hcalm : ((d.sessions i).refreshWindow env.monoNs).unlock.closeAfterReply = false := by
    rw [← hown.calm i]
    unfold Session.refreshWindow
    split_ifs <;> rfl
  have hfd : ((d.sessions i).refreshWindow env.monoNs).unlock.live = (d.sessions i).live := by
    unfold Session.refreshWindow
    split_ifs <;> rfl
  refine ⟨_, (if_pos ⟨hlive, hlen⟩).trans (request_of_run henv (authenticate_run id hauth hm hok)
    (by rw [hfinal, hcalm])), ?_⟩
  unfold UnlockedAt
  rw [hfinal]
  exact ⟨hfd.trans hlive, rfl⟩

/-! ## Runs -/

/-- At the start no session has a nonce. -/
theorem fresh_init (dev : Rtl.Device) (startup : Rtl.Startup) (contextPackets : Bool) (j : SessId) :
    Fresh j (Daemon.init dev startup contextPackets).trace
      ((Daemon.init dev startup contextPackets).sessions j) :=
  ⟨rfl, trivial⟩

/-- Every check of the history was against the nonce that was fresh. -/
theorem SingleUse.at {tr later earlier : List Obs} {x : Attempt} {ok : Bool} (h : SingleUse i tr)
    (htr : tr = later ++ .verify i x ok :: earlier) : freshNonce i earlier = some x.nonce := by
  subst htr
  induction later with
  | nil => exact h.1 x ok rfl
  | cons o os ih => exact ih h.2

/-- A nonce that is fresh at the end of a history with a check in it was issued after the check. -/
theorem issued_since {tr earlier : List Obs} {x : Attempt} {ok : Bool} {nonce : List UInt8}
    (h : freshNonce i (tr ++ .verify i x ok :: earlier) = some nonce) :
    .nonce i (some nonce) ∈ tr := by
  induction tr with
  | nil => simp [freshNonce, noteNonce] at h
  | cons o os ih =>
    rw [List.cons_append, freshNonce] at h
    rw [List.mem_cons]
    cases o with
    | hardware | sent | datagram => exact .inr (ih h)
    | connected j | closed j | verify j =>
      simp only [noteNonce] at h
      split_ifs at h
      exact .inr (ih h)
    | nonce j made =>
      simp only [noteNonce] at h
      split_ifs at h with hj
      · exact .inl (by rw [hj, h])
      · exact .inr (ih h)

end

/-- With authentication required, in every run: a connection that is unlocked has earlier sent an
`authenticate` request that answers the nonce most recently issued on it and not used before; no
nonce takes part in two checks; a connection stays unlocked until it ends; and a request that
answers the nonce most recently issued, not used before, with no failed attempt to make another one
since, is carried out and unlocks its connection. -/
theorem unlocking (opts : Options) (dev : Rtl.Device) (startup : Rtl.Startup) (contextPackets : Bool)
    (hauth : opts.rxAuth = true) (acts : List Action) (d : Daemon)
    (hrun : runActs (step opts) (Daemon.init dev startup contextPackets) acts = some d)
    (i : SessId) :
    (UnlockedAt i d → ∃ before frame env after d₀ d₁ nonce,
      acts = before ++ .request i frame env :: after ∧
      runActs (step opts) (Daemon.init dev startup contextPackets) before = some d₀ ∧
      step opts d₀ (.request i frame env) = some d₁ ∧ Always (step opts) (UnlockedAt i) d₁ after ∧
      d₀.command opts i frame env = some (some .authenticate) ∧
      freshNonce i d₀.trace = some nonce ∧ ProvesKey opts (d₀.received i frame env) nonce) ∧
    (∀ later earlier x ok, d.trace = later ++ .verify i x ok :: earlier →
      freshNonce i earlier = some x.nonce ∧
      ∀ between earlier' x' ok', earlier = between ++ .verify i x' ok' :: earlier' →
        .nonce i (some x.nonce) ∈ between) ∧
    (∀ a d', step opts d a = some d' → UnlockedAt i d → (d'.sessions i).live = true →
      UnlockedAt i d') ∧
    (∀ frame env nonce, (d.sessions i).live = true →
      1 ≤ frame.length ∧ frame.length ≤ maxMsgBytes →
      d.command opts i frame env = some (some .authenticate) →
      freshNonce i d.trace = some nonce → ProvesKey opts (d.received i frame env) nonce →
      ∃ d', step opts d (.request i frame env) = some d' ∧ UnlockedAt i d') := by
  -- the owner and the nonces agree in every state of the run
  have hinv : ∀ acts d, runActs (step opts) (Daemon.init dev startup contextPackets) acts = some d →
      Owned d ∧ ∀ j, Fresh j d.trace (d.sessions j) := by
    intro acts d hrun
    exact Reachable.invariant (I := fun d => Owned d ∧ ∀ j, Fresh j d.trace (d.sessions j))
      ⟨acts, hrun⟩ ⟨owned_init dev startup contextPackets, fresh_init dev startup contextPackets⟩
      fun d a d' h hs => ⟨h.1.next hs, fresh_next h.1 h.2 hs⟩
  obtain ⟨hown, hfresh⟩ := hinv acts d hrun
  refine ⟨fun hunlocked => ?_, fun later earlier x ok htr => ?_, ?_, ?_⟩
  -- the session was locked at the start, so some step has unlocked it
  · have hlocked : ¬ Always (step opts) (UnlockedAt i)
        (Daemon.init dev startup contextPackets) acts := by
      rintro ⟨⟨hlive, -⟩, -⟩
      cases hlive
    obtain ⟨before, a, after, d₀, d₁, hacts, hbefore, hstep, hnot, hyes, hstays⟩ :=
      exists_rise_of_not_always hrun hunlocked hlocked
    obtain ⟨hown₀, hfresh₀⟩ := hinv before d₀ hbefore
    obtain ⟨frame, env, nonce, rfl, hcommand, hnonce, hanswers⟩ :=
      unlocked_by hown₀ hfresh₀ hstep hnot hyes
    exact ⟨before, frame, env, after, d₀, d₁, nonce, hacts, hbefore, hstep, hstays, hcommand, hnonce,
      hanswers⟩
  -- a nonce is used once
  · have hused := (hfresh i).singleUse.at htr
    refine ⟨hused, fun between earlier' x' ok' hearlier => ?_⟩
    rw [hearlier] at hused
    exact issued_since hused
  · exact fun a d' hstep hbefore hlive => unlocked_stays hown hstep hbefore hlive
  · exact fun frame env nonce hlive hlen hcommand hnonce hanswers =>
      answer_unlocks hauth hown (hfresh i) hlive hlen hcommand hnonce hanswers

/-! ## A client with the key -/

/-- A daemon with one key. -/
def keyedAccess : Options :=
  { openAccess with rxAuth := true, keys := [⟨bytes "default", bytes "secret"⟩] }

/-- The answer to a nonce of sixteen bytes that are all seven. -/
def answerFrame : List UInt8 :=
  requestFrame "authenticate" ("\"method\":\"psk-hmac-sha256\",\"response\":"
    ++ "\"77b3daa280c9113e3276924a9b8df425eb8dab68605157a44ccc8ce2324fcf08\"")

/-- The client's message has the parameters of its answer, in these tokens. -/
def answered (m : Msg) : Bool :=
  m.tokFindKey 0 (bytes "params") = some (some 8) &&
    m.tokFindKey 8 (bytes "method") = some (some 10) && m.tokStr 10 48 = some authMethodPsk &&
    m.tokFindKey 8 (bytes "response") = some (some 12) && m.tokStr 12 80 = some (bytes
      "77b3daa280c9113e3276924a9b8df425eb8dab68605157a44ccc8ce2324fcf08") &&
    m.tokFindKey 8 (bytes "key_id") = some none

/-- The response of the example proves the key. -/
theorem answers_of_answered {m : Msg} (h : answered m = true) :
    ProvesKey keyedAccess m (List.replicate 16 7) := by
  simp only [answered, Bool.and_eq_true, decide_eq_true_eq, and_assoc] at h
  obtain ⟨hp, hmi, hmethod, hri, hresponse, hki⟩ := h
  exact ⟨bytes "default", _, ⟨8, 10, 12, none, hp, hmi, hmethod, hri, hresponse, hki, rfl⟩,
    by decide +kernel, ⟨bytes "default", bytes "secret"⟩, by decide +kernel, rfl,
    by decide +kernel⟩

/-- A client that answers the nonce of its `hello` is unlocked. -/
theorem unlocking_by_answer :
    ∃ d d', runActs (step keyedAccess) started [connect, .request 0 helloFrame (quiet 7)] = some d ∧
      ¬ UnlockedAt 0 d ∧ step keyedAccess d (.request 0 answerFrame (quiet 7)) = some d' ∧
      UnlockedAt 0 d' := by
  have hrun : ((runActs (step keyedAccess) started
      [connect, .request 0 helloFrame (quiet 7)]).any fun d =>
        (d.sessions 0).live && !(d.sessions 0).rxUnlocked &&
        d.command keyedAccess 0 answerFrame (quiet 7) = some (some .authenticate) &&
        freshNonce 0 d.trace = some (List.replicate 16 7) &&
        answered (d.received 0 answerFrame (quiet 7))) = true := by
    decide +kernel
  obtain ⟨d, hd, hchecks⟩ := (Option.any_eq_true ..).mp hrun
  simp only [Bool.and_eq_true, decide_eq_true_eq, Bool.not_eq_true', and_assoc] at hchecks
  obtain ⟨hlive, hlocked, hcommand, hnonce, hanswered⟩ := hchecks
  obtain ⟨-, -, -, hconverse⟩ := unlocking keyedAccess obedient _ true rfl _ d hd 0
  obtain ⟨d', hd', hunlocked⟩ := hconverse answerFrame (quiet 7) _ hlive (by decide +kernel) hcommand
    hnonce (answers_of_answered hanswered)
  refine ⟨d, d', hd, ?_, hd', hunlocked⟩
  rintro ⟨-, hunlocked⟩
  rw [hlocked] at hunlocked
  cases hunlocked

/-- What an observation means for the nonce most recently issued and not used, when an attempt to
make another one that fails is not counted. -/
def noteIssued (i : SessId) (issued : Option (List UInt8)) : Obs → Option (List UInt8)
  | .nonce _ none => issued
  | o => noteNonce i issued o

/-- The nonce most recently issued on the connection in a slot, if it has not been used. -/
def issuedNonce (i : SessId) : List Obs → Option (List UInt8)
  | [] => none
  | o :: os => noteIssued i (issuedNonce i os) o

/-- A client says `hello`, gets a nonce, and says `hello` again when there is no random source. The
answer to the nonce, which is still the one most recently issued and has not been used, does not
unlock. -/
theorem answer_after_failed_nonce :
    ∃ d d', runActs (step keyedAccess) started [connect, .request 0 helloFrame (quiet 7),
        .request 0 helloFrame { quiet 7 with random := [.fail] }] = some d ∧
      (d.sessions 0).live = true ∧ issuedNonce 0 d.trace = some (List.replicate 16 7) ∧
      d.command keyedAccess 0 answerFrame (quiet 7) = some (some .authenticate) ∧
      ProvesKey keyedAccess (d.received 0 answerFrame (quiet 7)) (List.replicate 16 7) ∧
      step keyedAccess d (.request 0 answerFrame (quiet 7)) = some d' ∧ ¬ UnlockedAt 0 d' := by
  have hrun : ((runActs (step keyedAccess) started [connect, .request 0 helloFrame (quiet 7),
      .request 0 helloFrame { quiet 7 with random := [.fail] }]).any fun d =>
        (d.sessions 0).live && issuedNonce 0 d.trace = some (List.replicate 16 7) &&
        d.command keyedAccess 0 answerFrame (quiet 7) = some (some .authenticate) &&
        answered (d.received 0 answerFrame (quiet 7)) &&
        (step keyedAccess d (.request 0 answerFrame (quiet 7))).any fun d' =>
          !(d'.sessions 0).rxUnlocked) = true := by
    decide +kernel
  obtain ⟨d, hd, hchecks⟩ := (Option.any_eq_true ..).mp hrun
  simp only [Bool.and_eq_true, decide_eq_true_eq, and_assoc] at hchecks
  obtain ⟨hlive, hissued, hcommand, hanswered, hstep⟩ := hchecks
  obtain ⟨d', hd', hlocked⟩ := (Option.any_eq_true ..).mp hstep
  rw [Bool.not_eq_true'] at hlocked
  refine ⟨d, d', hd, hlive, hissued, hcommand, answers_of_answered hanswered, hd', ?_⟩
  rintro ⟨-, hunlocked⟩
  rw [hlocked] at hunlocked
  cases hunlocked

end SlcRtld.Property
