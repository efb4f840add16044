import SlcRtld.Control.Frame

/-!
# Ownership of the channel

`s_rx_owner`, the `owns_rx` of each session and its `stream_open` are three records of one fact.
They agree in every reachable state (`ownership_invariant`), so at most one session has a stream,
and a freed slot owns nothing. The proof looks at one session at a time: a step touches the session
it belongs to and, of the owner, only whether it is that session (`Owned.of_step`).
-/

namespace SlcRtld.Property

open Control Effect

/-! ## The invariant -/

/-- A session's record agrees with the owner of the channel. -/
def Agrees (owner : Option SessId) (i : SessId) (s : Session) : Prop :=
  s.live = true → (owner = some i ↔ s.ownsRx = true) ∧ (s.ownsRx = true ↔ s.streamOpen = true) ∧
    (s.state = .streamOpen ∨ s.state = .streaming → s.streamOpen = true)

/-- Every session's record agrees with the owner of the channel, the owner is connected, and no
session waits to be closed. -/
structure Owned (d : Daemon) : Prop where
  agrees : ∀ i, Agrees d.rxOwner i (d.sessions i)
  live : ∀ i, d.rxOwner = some i → (d.sessions i).live = true
  calm : ∀ i, (d.sessions i).closeAfterReply = false

/-- Owner and record agree as before, where the fields of the stream and the ownership stay. -/
theorem Agrees.congr {owner owner' : Option SessId} {i : SessId} {s s' : Session}
    (howner : owner' = some i ↔ owner = some i) (hfields : s'.streamFields = s.streamFields)
    (hstate : s'.state = s.state ∨ s'.state = .idle) (h : Agrees owner i s) :
    Agrees owner' i s' := by
  intro hlive
  have hfd : s'.fd = s.fd := congrArg StreamFields.fd hfields
  have howns : s'.ownsRx = s.ownsRx := congrArg StreamFields.ownsRx hfields
  have hopen : s'.streamOpen = s.streamOpen := congrArg StreamFields.streamOpen hfields
  rw [Session.live, hfd] at hlive
  obtain ⟨h₁, h₂, h₃⟩ := h hlive
  rw [howner, howns, hopen]
  refine ⟨h₁, h₂, fun hs => h₃ ?_⟩
  rcases hstate with hst | hst
  · rwa [hst] at hs
  · rw [hst] at hs
    rcases hs with hs | hs <;> exact absurd hs (by decide)

/-- A step of one session that leaves the others alone, and leaves it to them whether they own the
channel. -/
theorem Owned.of_step {i : SessId} {d d' : Daemon} (h : Owned d)
    (hothers : ∀ j, j ≠ i → d'.sessions j = d.sessions j)
    (howner : ∀ j, j ≠ i → (d'.rxOwner = some j ↔ d.rxOwner = some j))
    (hagrees : Agrees d'.rxOwner i (d'.sessions i))
    (hlive : d'.rxOwner = some i → (d'.sessions i).live = true)
    (hcalm : (d'.sessions i).closeAfterReply = false) : Owned d' where
  agrees := fun j => by
    by_cases hj : j = i
    · rw [hj]
      exact hagrees
    · rw [hothers j hj]
      exact (h.agrees j).congr (howner j hj) rfl (.inl rfl)
  live := fun j hj' => by
    by_cases hj : j = i
    · rw [hj] at hj' ⊢
      exact hlive hj'
    · rw [hothers j hj]
      exact h.live j ((howner j hj).mp hj')
  calm := fun j => by
    by_cases hj : j = i
    · rw [hj]
      exact hcalm
    · rw [hothers j hj]
      exact h.calm j

/-- A step that changes neither a session nor the owner. -/
theorem Owned.congr {d d' : Daemon} (h : Owned d) (hsessions : d'.sessions = d.sessions)
    (howner : d'.rxOwner = d.rxOwner) : Owned d' where
  agrees := by
    rw [hsessions, howner]
    exact h.agrees
  live := by
    rw [hsessions, howner]
    exact h.live
  calm := by
    rw [hsessions]
    exact h.calm

/-- A session that holds the channel and has a stream open. -/
theorem Agrees.held {owner : Option SessId} {i : SessId} {s : Session} (howner : owner = some i)
    (howns : s.ownsRx = true) (hopen : s.streamOpen = true) : Agrees owner i s := by
  intro _
  rw [howns, hopen]
  exact ⟨by simp [howner], Iff.rfl, fun _ => rfl⟩

/-- A session that has given both up. -/
theorem Agrees.released {owner : Option SessId} {i : SessId} {s : Session} (howner : owner ≠ some i)
    (howns : s.ownsRx = false) (hopen : s.streamOpen = false) (hstate : s.state ≠ .streamOpen)
    (hstate' : s.state ≠ .streaming) : Agrees owner i s := by
  intro _
  rw [howns, hopen]
  exact ⟨by simp [howner], Iff.rfl, fun h => by simp [hstate, hstate'] at h⟩

/-- A free channel, or one's own, is nobody else's. -/
theorem ne_of_claimed {owner : Option SessId} {i j : SessId} (h : owner = none ∨ owner = some i)
    (hj : j ≠ i) : owner ≠ some j := by
  rintro rfl
  rcases h with h | h
  · cases h
  · exact hj (Option.some.inj h)

/-! ## Steps -/

section
variable {opts : Options} {env : Env} {m : Json.Msg} {i : SessId} {d d' : Daemon}

/-- What a message of a session can do to the sessions and to the owner. -/
structure Serves (i : SessId) (d d' : Daemon) : Prop where
  others : ∀ j, j ≠ i → d'.sessions j = d.sessions j
  owner : ∀ j, j ≠ i → (d'.rxOwner = some j ↔ d.rxOwner = some j)
  agrees : Agrees d'.rxOwner i (d'.sessions i)
  fd : (d'.sessions i).fd = (d.sessions i).fd
  pastHello : (d.sessions i).state ≠ .awaitHello → (d'.sessions i).state ≠ .awaitHello

/-- What a stream command can do to them. -/
structure Streams (i : SessId) (d d' : Daemon) : Prop extends Serves i d d' where
  authFields : (d'.sessions i).authFields = (d.sessions i).authFields

/-- A stream command does not end the connection. -/
theorem Streams.closeAfterReply (h : Streams i d d') :
    (d'.sessions i).closeAfterReply = (d.sessions i).closeAfterReply :=
  congrArg AuthFields.closeAfterReply h.authFields

/-- A stream that has ended leaves the channel free. -/
theorem Streams.closed {d₁ : Daemon} (hothers : ∀ j, j ≠ i → d₁.sessions j = d.sessions j)
    (hself : ∃ token, d₁.sessions i = { d.sessions i with vitaToken := token })
    (howner : d₁.rxOwner = some i) (howner' : d.rxOwner = some i) :
    Streams i d ((d₁.modify i Session.closeStream).rxRelease i) where
  others := fun j hj => by
    rw [rxRelease_sessions, Daemon.modify_of_ne hj, Daemon.modify_of_ne hj, hothers j hj]
  owner := fun j hj => by
    rw [rxRelease_rxOwner, if_pos (show (d₁.modify i Session.closeStream).rxOwner = some i from
      howner), howner']
    simp [Ne.symm hj]
  agrees := by
    rw [rxRelease_rxOwner, if_pos (show (d₁.modify i Session.closeStream).rxOwner = some i from
      howner), rxRelease_sessions, Daemon.modify_self, Daemon.modify_self]
    exact Agrees.released (by simp) rfl rfl (by simp [Session.disown, Session.closeStream])
      (by simp [Session.disown, Session.closeStream])
  fd := by
    obtain ⟨token, hself⟩ := hself
    rw [rxRelease_sessions, Daemon.modify_self, Daemon.modify_self, hself]
    rfl
  pastHello := fun _ => by
    rw [rxRelease_sessions, Daemon.modify_self, Daemon.modify_self]
    nofun
  authFields := by
    obtain ⟨token, hself⟩ := hself
    rw [rxRelease_sessions, Daemon.modify_self, Daemon.modify_self, hself]
    rfl

/-- Observations. -/
theorem Streams.log (h : Streams i d d') (os : List Obs) : Streams i d (d'.log os) :=
  ⟨⟨h.others, h.owner, h.agrees, h.fd, h.pastHello⟩, h.authFields⟩

/-- A frame. -/
theorem Streams.send {j : SessId} {f : Frame} (h : Streams i d d') : Streams i d (d'.send j f) :=
  h.log _

/-- An event to the sessions. -/
theorem Streams.broadcast {skip : Option SessId} {e : Event} (h : Streams i d d') :
    Streams i d (d'.broadcast skip e) :=
  h.log _

/-- An open stream that starts or stops stays open. -/
theorem Streams.kept (hown : Owned d) (hlive : (d.sessions i).live = true)
    (hopen : (d.sessions i).streamOpen = true)
    (hothers : ∀ j, j ≠ i → d'.sessions j = d.sessions j) (howner : d'.rxOwner = d.rxOwner)
    (hself : ∃ token st, d'.sessions i = { d.sessions i with vitaToken := token, state := st } ∧
      ((d.sessions i).state ≠ .awaitHello → st ≠ .awaitHello)) :
    Streams i d d' := by
  obtain ⟨token, st, hself, hst⟩ := hself
  obtain ⟨h₁, h₂, -⟩ := hown.agrees i hlive
  refine ⟨⟨hothers, fun j _ => by rw [howner], ?_, by rw [hself], by rwa [hself]⟩, by rw [hself]; rfl⟩
  rw [howner, hself]
  exact Agrees.held (h₁.mpr (h₂.mpr hopen)) (h₂.mpr hopen) hopen

/-- `open_stream` that fails after it has claimed the channel. -/
theorem Streams.refused (hown : Owned d) (hlive : (d.sessions i).live = true)
    (hopen : (d.sessions i).streamOpen = false) {d₁ : Daemon} (hclaim : d.rxClaim i = (true, d₁)) :
    Streams i d (d₁.rxRelease i) := by
  obtain ⟨hfree, rfl⟩ := rxClaim_eq hclaim
  obtain ⟨-, -, hstate⟩ := hown.agrees i hlive
  have hreleased : (({ d with rxOwner := some i }.modify i Session.own).rxRelease i).rxOwner =
      none := rxRelease_rxOwner.trans (if_pos rfl)
  have hself : (({ d with rxOwner := some i }.modify i Session.own).rxRelease i).sessions i =
      (d.sessions i).disown := by
    rw [rxRelease_sessions, Daemon.modify_self, Daemon.modify_self]
    rfl
  refine ⟨⟨fun j hj => ?_, fun j hj => ?_, ?_, by rw [hself]; rfl, ?_⟩, by rw [hself]; rfl⟩
  · rw [rxRelease_sessions, Daemon.modify_of_ne hj, Daemon.modify_of_ne hj]
  · rw [hreleased]
    simp [ne_of_claimed hfree hj]
  · rw [hreleased, hself]
    refine Agrees.released (by simp) rfl hopen (fun h => ?_) (fun h => ?_)
    · exact absurd (hstate (.inl h)) (by simp [hopen])
    · exact absurd (hstate (.inr h)) (by simp [hopen])
  · rw [hself]
    exact fun h => h

/-- `open_stream` that succeeds. -/
theorem Streams.opened {d₁ : Daemon} (hclaim : d.rxClaim i = (true, d₁)) (n : UInt32)
    (addr : List ℕ) (port : ℕ) :
    Streams i d (d₁.allocStreamId.2.modify i (Session.openStream n addr port)) := by
  obtain ⟨hfree, rfl⟩ := rxClaim_eq hclaim
  have hself : ((({ d with rxOwner := some i }.modify i Session.own).allocStreamId.2.modify i
      (Session.openStream n addr port)).sessions i) = (d.sessions i).own.openStream n addr port := by
    rw [Daemon.modify_self]
    exact congrArg _ (Daemon.modify_self ..)
  refine ⟨⟨fun j hj => ?_, fun j hj => ?_, ?_, by rw [hself]; rfl, ?_⟩, by rw [hself]; rfl⟩
  · rw [Daemon.modify_of_ne hj]
    exact Daemon.modify_of_ne hj ..
  · have hclaimed : some i ≠ some j := fun h => hj (Option.some.inj h).symm
    exact iff_of_false hclaimed (ne_of_claimed hfree hj)
  · rw [hself]
    exact Agrees.held rfl rfl rfl
  · rw [hself]
    nofun

/-- The reader has no part in the sessions and the owner. -/
theorem bridgeStart_frame {created ok : Bool} {d d₁ : Daemon} (h : d.bridgeStart created = (ok, d₁)) :
    d₁.sessions = d.sessions ∧ d₁.rxOwner = d.rxOwner := by
  obtain ⟨-, rfl⟩ := Prod.mk.inj h
  exact ⟨rfl, rfl⟩

/-- Each stream command concerns the session and the channel. -/
theorem streamOutcome_streams {c : Command} (h : StreamOutcome env m i d c d') (hown : Owned d)
    (hlive : (d.sessions i).live = true) : Streams i d d' := by
  cases h with
  | refused hopen d₁ hclaim => exact (Streams.refused hown hlive hopen hclaim).send
  | opened hopen d₁ hclaim addr port => exact (Streams.opened hclaim _ addr port).send.broadcast
  -- the session keeps the channel and its stream, and only the token or the state changes
  | startBusy hopen hstate p htoken =>
    refine Streams.send (Streams.kept hown hlive hopen (fun j hj => ?_) rfl ⟨_, _,
      Daemon.modify_self .., fun h => h⟩)
    exact Daemon.modify_of_ne hj ..
  | startFailed hopen hstate p htoken d₁ hstart =>
    obtain ⟨hsessions, howner⟩ := bridgeStart_frame hstart
    refine Streams.send (Streams.kept hown hlive hopen (fun j hj => ?_) howner
      ⟨-1, (d.sessions i).state, ?_, fun h => h⟩)
    · rw [Daemon.modify_of_ne hj]
      exact (congrFun hsessions j).trans (Daemon.modify_of_ne hj ..)
    · have hadded : d₁.sessions i = (d.sessions i).setToken (Vita.vitaSessionAdd p d.vita).1 :=
        (congrFun hsessions i).trans (Daemon.modify_self ..)
      rw [Daemon.modify_self]
      exact (congrArg (Session.setToken (-1)) hadded).trans rfl
  | started hopen hstate p hp htoken d₁ hstart =>
    obtain ⟨hsessions, howner⟩ := bridgeStart_frame hstart
    refine Streams.send (Streams.send (Streams.kept hown hlive hopen (fun j hj => ?_) howner
      ⟨(Vita.vitaSessionAdd p d.vita).1, .streaming, ?_, nofun⟩))
    · rw [Daemon.modify_of_ne hj]
      exact (congrFun hsessions j).trans (Daemon.modify_of_ne hj ..)
    · rw [Daemon.modify_self]
      exact congrArg _ ((congrFun hsessions i).trans (Daemon.modify_self ..))
  | stopped hopen hstate =>
    obtain ⟨token, hself⟩ := removeVita_self (i := i) (d := d)
    refine Streams.send (Streams.send (Streams.kept hown hlive hopen (fun j hj => ?_)
      removeVita_rxOwner ⟨token, .streamOpen, ?_, nofun⟩))
    · rw [Daemon.modify_of_ne hj]
      exact removeVita_of_ne hj
    · rw [Daemon.modify_self]
      exact congrArg _ hself
  -- the session owns the channel, since it has a stream open
  | closed hopen =>
    have howner : d.rxOwner = some i :=
      (hown.agrees i hlive).1.mpr ((hown.agrees i hlive).2.1.mpr hopen)
    exact (Streams.closed (fun j hj => removeVita_of_ne hj) removeVita_self
      (removeVita_rxOwner.trans howner) howner).send
  | closedStreaming hopen =>
    have howner : d.rxOwner = some i :=
      (hown.agrees i hlive).1.mpr ((hown.agrees i hlive).2.1.mpr hopen)
    refine Streams.send (Streams.send ?_)
    exact Streams.closed (fun j hj => removeVita_of_ne hj) removeVita_self
      (removeVita_rxOwner.trans howner) howner

/-- A change to the session alone. -/
theorem Serves.of_private (h : Private i d d') (hown : Owned d) : Serves i d d' where
  others := h.others
  owner := fun j _ => by rw [h.rxOwner]
  agrees := by
    rw [h.rxOwner]
    exact (hown.agrees i).congr Iff.rfl h.streamFields h.state
  fd := congrArg StreamFields.fd h.streamFields
  pastHello := fun hstate => by
    rcases h.state with hs | hs
    · rwa [hs]
    · rw [hs]
      decide

/-- Sessions and owner stay. -/
theorem Serves.of_eq (hsessions : d'.sessions = d.sessions) (howner : d'.rxOwner = d.rxOwner)
    (hown : Owned d) : Serves i d d' where
  others := fun j _ => congrFun hsessions j
  owner := fun j _ => by rw [howner]
  agrees := by
    rw [howner, hsessions]
    exact hown.agrees i
  fd := by rw [hsessions]
  pastHello := by
    rw [hsessions]
    exact fun h => h

/-- What a message does to the sessions and the owner. -/
theorem outcome_serves {c : Option Command} (h : Outcome opts env m i d c d') (hown : Owned d)
    (hlive : (d.sessions i).live = true) : Serves i d d' := by
  cases h with
  | ignored => exact Serves.of_eq rfl rfl hown
  | answered | status => exact Serves.of_private (Private.send ..) hown
  | auth h => exact Serves.of_private h.isPrivate hown
  | config _ _ h => exact Serves.of_eq h.configures.sessions h.configures.rxOwner hown
  | stream _ h => exact (streamOutcome_streams h hown hlive).toServes

/-- A session that has been served may be destroyed: its slot is freed, and what it held. -/
theorem Serves.destroy (h : Serves i d d') (hown : Owned d) (dev : Rtl.Device) :
    Owned (d'.destroy opts dev i) := by
  have howner : (d'.destroy opts dev i).rxOwner ≠ some i := by
    rw [destroy_rxOwner]
    split_ifs with h
    · simp
    · exact h
  refine hown.of_step (i := i) (fun j hj => ?_) (fun j hj => ?_) ?_ (fun h => absurd h howner) ?_
  · rw [destroy_of_ne opts dev hj, h.others j hj]
  · rw [destroy_rxOwner, ← h.owner j hj]
    split_ifs with h
    · simp [h, Ne.symm hj]
    · rfl
  · rw [destroy_self]
    exact Agrees.released howner rfl rfl (by decide) (by decide)
  · rw [destroy_self]
    rfl

/-- A session that has been served, and is not to be closed, stays. -/
theorem Serves.stay (h : Serves i d d') (hown : Owned d) (hlive : (d.sessions i).live = true)
    (hcalm : (d'.sessions i).closeAfterReply = false) : Owned d' :=
  hown.of_step h.others h.owner h.agrees (fun _ => by rwa [Session.live, h.fd]) hcalm

/-- A connection takes a slot that does not hold the channel. -/
theorem Owned.sessionCreate (hown : Owned d) (fd : ℕ) (stack : List Json.Tok) :
    Owned (d.sessionCreate fd stack) := by
  rcases sessionCreate_cases fd stack d with h | ⟨i, hfree, h⟩
  · rwa [h]
  · have howner : d.rxOwner ≠ some i := fun h =>
      absurd (hown.live i h) (by simp [Session.live, hfree])
    have hself : (d.sessionCreate fd stack).sessions i = Session.new fd := by
      rw [h]
      exact Function.update_self ..
    have howner' : (d.sessionCreate fd stack).rxOwner = d.rxOwner := by rw [h]; rfl
    refine hown.of_step (i := i) (fun j hj => ?_) (fun j _ => by rw [howner']) ?_ (fun h => ?_) ?_
    · rw [h]
      exact Function.update_of_ne hj ..
    · rw [hself, howner']
      exact Agrees.released howner rfl rfl nofun nofun
    · exact absurd (howner'.symm.trans h) howner
    · rw [hself]
      rfl

end

section
variable {opts : Options} {d d' : Daemon}

/-- Only a failed `authenticate` asks for the session to be closed. -/
theorem outcome_closes {env : Env} {m : Json.Msg} {i : SessId} {c : Option Command}
    (hout : Outcome opts env m i d c d') (hown : Owned d) (hlive : (d.sessions i).live = true)
    (hclose : (d'.sessions i).closeAfterReply = true) :
    ∃ c', c = some c' ∧ AuthOutcome opts env m i d c' d' := by
  have hcalm := hown.calm i
  cases hout with
  | ignored | answered | status => exact absurd (hcalm.symm.trans hclose) (by decide)
  | auth ha => exact ⟨_, rfl, ha⟩
  | config _ _ hc =>
    rw [hc.configures.sessions, hcalm] at hclose
    cases hclose
  | stream _ ht =>
    rw [(streamOutcome_streams ht hown hlive).closeAfterReply, hcalm] at hclose
    cases hclose

/-- The message of any other command leaves its session connected. -/
theorem message_stays {env : Env} {i : SessId} {frame : List UInt8} {c : Command} {d₁ : Daemon}
    (hown : Owned d) (hlive : (d.sessions i).live = true)
    (hcommand : d.command opts i frame env = some (some c)) (hc : c ≠ .hello ∧ c ≠ .authenticate)
    (hmsg : (handleMessage opts (Json.jsmnParse frame (d.tokens i)).1).run
      (exec opts env (d.received i frame env) i) (d.tokenise i frame) = some ((), d₁)) :
    Outcome opts env (d.received i frame env) i (d.tokenise i frame) (some c) d₁ ∧
      (d₁.sessions i).closeAfterReply = false := by
  obtain ⟨c', hc', hout⟩ := handleMessage_outcome hmsg
  obtain rfl : some c = c' := Option.some.inj (hcommand.symm.trans hc')
  refine ⟨hout, Bool.eq_false_of_not_eq_true fun hclose => ?_⟩
  obtain ⟨c', heq, hauth⟩ := outcome_closes hout (hown.congr rfl rfl) hlive hclose
  obtain rfl := Option.some.inj heq
  cases hauth with
  | hello | challenged => exact hc.1 rfl
  | unlocked | rejected => exact hc.2 rfl

/-- A message serves its session, from the state in which its frame has come. -/
theorem message_serves {env : Env} {m : Json.Msg} {i : SessId} {frame : List UInt8}
    {c : Option Command} {d₁ : Daemon} (hown : Owned d) (hlive : (d.sessions i).live = true)
    (hout : Outcome opts env m i (d.tokenise i frame) c d₁) : Serves i d d₁ := by
  have hown' : Owned (d.tokenise i frame) := hown.congr rfl rfl
  have h := outcome_serves hout hown' hlive
  exact ⟨h.others, h.owner, h.agrees, h.fd, h.pastHello⟩

/-- Every step keeps the records in agreement. -/
theorem Owned.next {a : Action} (hown : Owned d) (hstep : step opts d a = some d') : Owned d' := by
  cases stepped_of_step hstep with
  | connect fd stack => exact hown.sessionCreate fd stack
  | request i frame env c d₁ hlive _ hout =>
    have hserves := message_serves hown hlive hout
    cases hclose : (d₁.sessions i).closeAfterReply with
    | true => exact hserves.destroy hown env.device
    | false => exact hserves.stay hown hlive hclose
  | disconnect i env => exact (Serves.of_eq rfl rfl hown).destroy hown env.device
  | usb buf nowMs =>
    obtain ⟨hsessions, howner, -⟩ := rtlCallback_frame buf nowMs d
    exact hown.congr hsessions howner

/-- A session's record changes only when a connection takes the slot, by a request of the session,
or when its connection ends. -/
theorem touched_cases {a : Action} {i : SessId} (hown : Owned d) (hstep : step opts d a = some d')
    (hne : d'.sessions i ≠ d.sessions i) :
    (∃ fd, (d.sessions i).live = false ∧ d'.sessions i = Session.new fd) ∨
    (∃ frame env c d₁, a = .request i frame env ∧ (d.sessions i).live = true ∧
      d.command opts i frame env = some c ∧
      Outcome opts env (d.received i frame env) i (d.tokenise i frame) c d₁ ∧ Serves i d d₁ ∧
      d' = if (d₁.sessions i).closeAfterReply then d₁.destroy opts env.device i else d₁) ∨
    (∃ env, a = .disconnect i env ∧ d' = d.destroy opts env.device i) := by
  cases stepped_of_step hstep with
  | connect fd stack =>
    rcases sessionCreate_cases fd stack d with hd | ⟨j, hfree, hd⟩
    · exact absurd (by rw [hd]) hne
    · by_cases hij : i = j
      · subst hij
        refine .inl ⟨fd, by simp [Session.live, hfree], ?_⟩
        rw [hd]
        exact Function.update_self ..
      · refine absurd ?_ hne
        rw [hd]
        exact Function.update_of_ne hij ..
  -- a request changes no record but its own session's
  | request j frame env c d₁ hlive hc hout =>
    have hserves := message_serves hown hlive hout
    by_cases hij : i = j
    · subst hij
      exact .inr (.inl ⟨frame, env, c, d₁, rfl, hlive, hc, hout, hserves, rfl⟩)
    · refine absurd ?_ hne
      split_ifs
      · rw [destroy_of_ne opts env.device hij, hserves.others i hij]
      · exact hserves.others i hij
  | disconnect j env =>
    by_cases hij : i = j
    · subst hij
      exact .inr (.inr ⟨env, rfl, rfl⟩)
    · exact absurd (destroy_of_ne opts env.device hij) hne
  | usb buf nowMs => exact absurd (congrFun (rtlCallback_frame buf nowMs d).1 i) hne

/-- At the start nobody owns the channel. -/
theorem owned_init (dev : Rtl.Device) (o : Rtl.Startup) (contextPackets : Bool) :
    Owned (Daemon.init dev o contextPackets) where
  agrees := fun _ h => absurd (show Session.zero.live = true from h) (by decide)
  live := fun _ h => by cases h
  calm := fun _ => rfl

/-! ## A stream that is not opened -/

/-- In a step the client of a session has been sent an error. -/
def AnswersError (i : SessId) (d d' : Daemon) : Prop :=
  ∃ new f, d'.trace = new ++ d.trace ∧ .sent i f ∈ new ∧ f.isError = true

/-- The observation is an error to the client of `i`. -/
def isErrorTo (i : SessId) : Obs → Bool
  | .sent j f => j = i && f.isError
  | _ => false

/-- Whether a request is answered with an error can be computed. -/
instance (i : SessId) (d d' : Daemon) : Decidable (AnswersError i d d') :=
  let new := d'.trace.take (d'.trace.length - d.trace.length)
  decidable_of_iff (d'.trace = new ++ d.trace ∧ ∃ o ∈ new, isErrorTo i o = true) <| by
    constructor
    · rintro ⟨hnew, o, ho, herror⟩
      cases o with
      | sent j f =>
        obtain ⟨hj, hf⟩ := Bool.and_eq_true_iff.mp herror
        obtain rfl := of_decide_eq_true hj
        exact ⟨new, f, hnew, ho, hf⟩
      | _ => cases herror
    · rintro ⟨new', f, hnew, hmem, hf⟩
      have heq : new = new' := by
        show d'.trace.take (d'.trace.length - d.trace.length) = new'
        rw [hnew, List.length_append, Nat.add_sub_cancel, List.take_left]
      rw [heq]
      exact ⟨hnew, _, hmem, by simpa [isErrorTo] using hf⟩

/-- Neither the owner of the channel nor a session's part in a stream has changed. -/
def SameStreams (d d' : Daemon) : Prop :=
  d'.rxOwner = d.rxOwner ∧ ∀ j, (d'.sessions j).streamFields = (d.sessions j).streamFields ∧
    (d'.sessions j).state = (d.sessions j).state

/-- A claim that is given back leaves no trace in the records. -/
theorem refused_same {i : SessId} (hown : Owned d) (hlive : (d.sessions i).live = true)
    (hopen : (d.sessions i).streamOpen = false) {d₁ : Daemon} (hclaim : d.rxClaim i = (true, d₁)) :
    SameStreams d (d₁.rxRelease i) := by
  obtain ⟨howner, howns, -⟩ := hown.agrees i hlive
  have hdisowned : (d.sessions i).ownsRx = false := by simpa [hopen] using howns
  have hnot : d.rxOwner ≠ some i := by simpa [hdisowned] using howner
  obtain ⟨hfree, rfl⟩ := rxClaim_eq hclaim
  refine ⟨?_, fun j => ?_⟩
  · rw [hfree.resolve_right hnot]
    exact rxRelease_rxOwner.trans (if_pos rfl)
  · rw [rxRelease_sessions]
    by_cases hj : j = i
    · subst hj
      rw [Daemon.modify_self, Daemon.modify_self]
      simp [Session.streamFields, Session.own, Session.disown, hdisowned]
    · rw [Daemon.modify_of_ne hj, Daemon.modify_of_ne hj]
      exact ⟨rfl, rfl⟩

/-- The replies to a stream that has been opened are no errors. -/
theorem opened_answers {i : SessId} {d₁ : Daemon} (htrace : d₁.trace = d.trace) {id : CStr}
    {o : OpenedStream} :
    ¬ AnswersError i d ((d₁.send i (.ok id (.opened o))).broadcast (some i)
      (.controlRevoked .ownedByOther)) := by
  rintro ⟨new, f, hnew, hmem, herror⟩
  simp only [Daemon.broadcast, Daemon.send, Daemon.log, htrace, ← List.append_assoc] at hnew
  rw [← List.append_cancel_right hnew, List.mem_append, List.mem_map] at hmem
  rcases hmem with ⟨j, -, hj⟩ | hmem
  · cases hj
    cases herror
  · split_ifs at hmem
    · rw [List.mem_singleton] at hmem
      cases hmem
      cases herror
    · cases hmem

/-- An `open_stream` message ends with its session open, and if it answers an error, it has changed
nothing. -/
theorem open_outcome {env : Env} {m : Json.Msg} {i : SessId} {c : Option Command}
    (h : Outcome opts env m i d c d') (hc : c = none ∨ c = some .openStream) (hown : Owned d)
    (hlive : (d.sessions i).live = true) :
    (d'.sessions i).closeAfterReply = false ∧ (AnswersError i d d' → SameStreams d d') := by
  cases h with
  | ignored | answered => exact ⟨hown.calm i, fun _ => ⟨rfl, fun _ => ⟨rfl, rfl⟩⟩⟩
  | status => simp at hc
  | auth h =>
    obtain rfl : _ = Command.openStream := by simpa using hc
    cases h
  | config _ _ h =>
    obtain rfl : _ = Command.openStream := by simpa using hc
    cases h
  | stream _ h =>
    obtain rfl : _ = Command.openStream := by simpa using hc
    refine ⟨(streamOutcome_streams h hown hlive).closeAfterReply.trans (hown.calm i), ?_⟩
    cases h with
    | refused hopen d₁ hclaim => exact fun _ => refused_same hown hlive hopen hclaim
    | opened hopen d₁ hclaim =>
      obtain ⟨-, rfl⟩ := rxClaim_eq hclaim
      exact fun herror => absurd herror (opened_answers rfl)

/-! ## Reachable states -/

/-- In every state that the daemon reaches, the owner of the channel, the ownership flags and the
open streams agree; so at most one session has a stream open. The owner is connected, a session that
is in one of the stream states has a stream, and an `open_stream` that answers an error, or a
message that is refused before it is dispatched, changes neither the owner nor any session's
stream. -/
theorem ownership_invariant (opts : Options) (dev : Rtl.Device) (o : Rtl.Startup)
    (contextPackets : Bool) (d : Daemon)
    (hreach : Reachable (step opts) (Daemon.init dev o contextPackets) d) :
    (∀ i, (d.sessions i).live = true →
      (d.rxOwner = some i ↔ (d.sessions i).ownsRx = true) ∧
      ((d.sessions i).ownsRx = true ↔ (d.sessions i).streamOpen = true)) ∧
    (∀ i j, (d.sessions i).live = true → (d.sessions j).live = true →
      (d.sessions i).streamOpen = true → (d.sessions j).streamOpen = true → i = j) ∧
    (∀ i, d.rxOwner = some i → (d.sessions i).live = true) ∧
    (∀ i, (d.sessions i).live = true →
      (d.sessions i).state = .streamOpen ∨ (d.sessions i).state = .streaming →
      (d.sessions i).streamOpen = true) ∧
    (∀ i frame env d', step opts d (.request i frame env) = some d' →
      d.command opts i frame env = some none ∨
        d.command opts i frame env = some (some .openStream) →
      AnswersError i d d' → SameStreams d d') := by
  have hown : Owned d := hreach.invariant (owned_init dev o contextPackets) fun _ _ _ h hs =>
    h.next hs
  -- a session with an open stream is the owner, so there is one at most
  have howner : ∀ i, (d.sessions i).live = true → (d.sessions i).streamOpen = true →
      d.rxOwner = some i := fun i hlive hopen =>
    (hown.agrees i hlive).1.mpr ((hown.agrees i hlive).2.1.mpr hopen)
  refine ⟨fun i hi => ⟨(hown.agrees i hi).1, (hown.agrees i hi).2.1⟩, ?_, hown.live,
    fun i hi => (hown.agrees i hi).2.2, ?_⟩
  · intro i j hi hj hopen hopen'
    exact Option.some.inj ((howner i hi hopen).symm.trans (howner j hj hopen'))
  -- a request that is refused leaves the streams to their owners
  · intro i frame env d' hstep hc herror
    obtain ⟨⟨hlive, -⟩, h⟩ := Option.ite_none_right_eq_some.mp hstep
    obtain ⟨c, d₁, hcommand, hout, rfl⟩ := request_outcome h
    have hc' : c = none ∨ c = some .openStream := by simpa [hcommand] using hc
    obtain ⟨hcalm, hsame⟩ := open_outcome hout hc' (hown.congr rfl rfl) hlive
    simp only [hcalm, Bool.false_eq_true, if_false] at herror ⊢
    exact hsame herror

end

/-! ## A client -/

/-- A frame with a request, as a client writes it. -/
def requestFrame (command params : String) : List UInt8 :=
  bytes "\x7b\"type\":\"request\",\"id\":\"1\",\"command\":\"" ++ bytes command ++
    bytes "\",\"params\":\x7b" ++ bytes params ++ bytes "\x7d\x7d"

/-- An accepted `hello`. -/
def helloFrame : List UInt8 := requestFrame "hello" "\"supported_protocol_versions\":[\"1.0\"]"

/-- An accepted `open_stream`. -/
def openFrame : List UInt8 :=
  requestFrame "open_stream" ("\"function\":\"rx\",\"protocol\":\"vita49\",\"vita\":"
    ++ "\x7b\"destination\":\x7b\"ip\":\"10.0.0.2\",\"port\":\"4991\"\x7d\x7d")

/-- A request for a frequency. -/
def tuneFrame (hz : String) : List UInt8 :=
  requestFrame "set_frequency" ("\"function\":\"rx\",\"frequency_hz\":\"" ++ hz ++ "\"")

/-- A device that does what it is asked. -/
def obedient : Rtl.Device where
  centerFreq := fun hz => if hz = 0 then 1 else hz
  sampleRate := fun sps => if sps = 0 then 1 else sps
  tunerGain := id
  startGain := 0
  setBiasTee := 0
  setFreqCorrection := 0
  setDirectSampling := 0

/-- An environment where every call succeeds, and whose random source gives one byte over and
over. -/
def quiet (random : UInt8) : Env where
  device := obedient
  pthreadCreate := true
  random := [.got (List.replicate 32 random)]
  monoNs := 0
  time := 1000
  utcNow := ([], 0)
  sensors := ([], [])
  srcIp := bytes "10.0.0.1"
  outside := fun _ => none
  stack := []

/-- A daemon that asks for no authentication. -/
def openAccess : Options where
  rxAuth := false
  keys := []
  deviceName := bytes "rtl"
  biasTeePersist := false
  tunerGains := [0, 100]
  vitaSrcPort := 4991
  zeroPoint := bytes "127.50"
  dbfs := fun _ => []

/-- The state at the start, with a plain command line. -/
def started : Daemon := Daemon.init obedient ⟨.normal, false, false, 0, 0⟩ true

/-- A connection whose thread's stack is clear. -/
def connect : Action := .connect 5 (List.replicate maxJsonTokens ⟨.undefined, 0, 0, 0⟩)

/-- Two clients, the first with a stream. -/
def twoClients : List Action :=
  [connect, .request 0 helloFrame (quiet 0), .request 0 openFrame (quiet 0), connect,
    .request 1 helloFrame (quiet 0)]

/-- The first client owns the channel; the second one's `open_stream` is refused, and changes
nothing. -/
theorem ownership_invariant_in_use :
    ∃ d d', Reachable (step openAccess) started d ∧ d.rxOwner = some 0 ∧
      (d.sessions 1).streamOpen = false ∧
      step openAccess d (.request 1 openFrame (quiet 0)) = some d' ∧ AnswersError 1 d d' ∧
      SameStreams d d' := by
  have hrun : ((runActs (step openAccess) started twoClients).any fun d =>
      (d.sessions 0).live && (d.sessions 1).live && (d.sessions 0).streamOpen &&
      !(d.sessions 1).streamOpen &&
      d.command openAccess 1 openFrame (quiet 0) = some (some .openStream) &&
      (step openAccess d (.request 1 openFrame (quiet 0))).any fun d' =>
        d'.trace = [.sent 1 (.error (bytes "1") .inUse
          (bytes "The rx channel is held by another client"))] ++ d.trace) = true := by
    decide +kernel
  obtain ⟨d, hd, hchecks⟩ := (Option.any_eq_true ..).mp hrun
  simp only [Bool.and_eq_true, decide_eq_true_eq, Bool.not_eq_true', and_assoc] at hchecks
  obtain ⟨hlive, -, hopen, hclosed, hcommand, hstep⟩ := hchecks
  obtain ⟨d', hd', htrace⟩ := (Option.any_eq_true ..).mp hstep
  have hreach : Reachable (step openAccess) started d := ⟨twoClients, hd⟩
  have herror : AnswersError 1 d d' :=
    ⟨_, _, of_decide_eq_true htrace, List.mem_singleton_self _, rfl⟩
  obtain ⟨howner, -, -, -, hsame⟩ := ownership_invariant openAccess obedient _ true d hreach
  obtain ⟨hown, hopen'⟩ := howner 0 hlive
  exact ⟨d, d', hreach, hown.mpr (hopen'.mpr hopen), hclosed, hd', herror,
    hsame 1 openFrame (quiet 0) d' hd' (.inr hcommand) herror⟩

end SlcRtld.Property
