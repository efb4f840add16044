import SlcRtld.Control.Pool

/-!
# What a move can do

The induction that all properties of interleaved sessions rest on. In every state that the pool
reaches, each request in progress is at a place of the protocol, and what its place says of its own
session is true, whatever the other threads have done in the meantime (`Held`): a session with an
open stream owns the channel, and so does one that waits for the reader. `InStep.next` shows that a
move keeps this, and that it is one of the kinds of `Turn`.
-/

namespace SlcRtld.Control

open Libc Rtl Auth Vita Json Effect
open Effect.Prog (perform Follows Answering)

/-- What a read of the session's own record can answer. -/
def sensible : Answering Op
  | _, .self, s => s.state = .streaming → s.streamOpen = true
  | _, _, _ => True

/-! ## What a place says of a session -/

/-- What the place of a session's request says of the session's record, and of whether it owns the
channel. -/
structure Held (s : Session) (owns : Prop) (q : Phase) : Prop where
  streaming : s.state = .streaming → s.streamOpen = true
  owner : s.streamOpen = true → q.channel ≠ .departing → owns
  closed : q.channel = .closed → s.streamOpen = false
  opened : q.channel = .opened → s.streamOpen = true
  claimed : q.channel = .claimed → s.streamOpen = false ∧ owns
  departing : q.channel = .departing → ¬ owns
  joining : q.track.joining = true → q.channel = .opened

/-- The same in a state of the daemon. -/
def Daemon.Holds (d : Daemon) (i : SessId) (q : Phase) : Prop :=
  Held (d.sessions i) (d.rxOwner = some i) q

section
variable {s : Session} {owns : Prop} {q : Phase}

/-- A session with an open stream owns the channel. -/
theorem Held.owned (h : Held s owns q) (hopened : q.channel = .opened) : owns :=
  h.owner (h.opened hopened) (by rw [hopened]; decide)

/-- A session without an open stream does not stream. -/
theorem Held.not_streaming (h : Held s owns q) (hopen : s.streamOpen = false) :
    s.state ≠ .streaming :=
  fun hstate => nomatch hopen.symm.trans (h.streaming hstate)

/-- A session that has no open stream, at a place that says no more than that. -/
theorem held_closed (hopen : s.streamOpen = false) (hstate : s.state ≠ .streaming)
    (hchannel : q.channel ∈ [Channel.unknown, .closed, .gone]) (hjoin : q.track.joining = false) :
    Held s owns q := by
  have hne : ∀ c, c ∉ [Channel.unknown, .closed, .gone] → q.channel ≠ c :=
    fun c hc heq => hc (heq ▸ hchannel)
  exact {
    streaming := fun h => absurd h hstate
    owner := fun h => by rw [hopen] at h; cases h
    closed := fun _ => hopen
    opened := fun h => absurd h (hne _ (by decide))
    claimed := fun h => absurd h (hne _ (by decide))
    departing := fun h => absurd h (hne _ (by decide))
    joining := fun h => by rw [hjoin] at h; cases h }

/-- A session that owns the channel and has no open stream. -/
theorem held_claimed (hopen : s.streamOpen = false) (hstate : s.state ≠ .streaming) (howns : owns)
    (hchannel : q.channel = .claimed) (hjoin : q.track.joining = false) : Held s owns q where
  streaming := fun h => absurd h hstate
  owner := fun _ _ => howns
  closed := fun h => nomatch hchannel.symm.trans h
  opened := fun h => nomatch hchannel.symm.trans h
  claimed := fun _ => ⟨hopen, howns⟩
  departing := fun h => nomatch hchannel.symm.trans h
  joining := fun h => nomatch hjoin.symm.trans h

/-- A session that owns the channel and has an open stream. -/
theorem held_opened (hopen : s.streamOpen = true) (howns : owns) (hchannel : q.channel = .opened) :
    Held s owns q where
  streaming := fun _ => hopen
  owner := fun _ _ => howns
  closed := fun h => nomatch hchannel.symm.trans h
  opened := fun _ => hopen
  claimed := fun h => nomatch hchannel.symm.trans h
  departing := fun h => nomatch hchannel.symm.trans h
  joining := fun _ => hchannel

/-- A finished request leaves its session as the next one finds it. -/
theorem Held.rest (h : Held s owns q) {ids : List CStr} (hrests : q.Rests ids) :
    Held s owns .start where
  streaming := h.streaming
  owner := fun hopen _ => h.owner hopen fun hdeparting => by
    have hchannel := hrests.channel
    rw [hdeparting] at hchannel
    exact absurd hchannel (by decide)
  closed := nofun
  opened := nofun
  claimed := nofun
  departing := nofun
  joining := nofun

/-- A change that the protocol does not see. -/
theorem Held.steady (h : Held s owns q) {f : Session → Session} (hf : Session.Steady f) :
    Held (f s) owns q where
  streaming := fun hstate => (hf.streamOpen s).trans (h.streaming (hf.streaming s hstate))
  owner := fun hopen => h.owner ((hf.streamOpen s).symm.trans hopen)
  closed := fun hq => (hf.streamOpen s).trans (h.closed hq)
  opened := fun hq => (hf.streamOpen s).trans (h.opened hq)
  claimed := fun hq => ⟨(hf.streamOpen s).trans (h.claimed hq).1, (h.claimed hq).2⟩
  departing := h.departing
  joining := h.joining

/-- A place that differs in what it says of other things. -/
theorem Held.place (h : Held s owns q) {q' : Phase} (hchannel : q'.channel = q.channel)
    (hjoin : q'.track.joining = true → q'.channel = .opened) : Held s owns q' where
  streaming := h.streaming
  owner := hchannel ▸ h.owner
  closed := hchannel ▸ h.closed
  opened := hchannel ▸ h.opened
  claimed := hchannel ▸ h.claimed
  departing := hchannel ▸ h.departing
  joining := hjoin

end

/-! ## Operations that may come anywhere -/

section
variable {opts : Options} {env : Env} {m : Msg} {i j : SessId} {d d' : Daemon} {q q' : Phase}

/-- The daemon after such an operation, as far as the channel and the reader are concerned. -/
structure Aside (i : SessId) (d d' : Daemon) : Prop where
  sessions : ∃ f, Session.Steady f ∧ d'.sessions = Function.update d.sessions i (f (d.sessions i))
  rxOwner : d'.rxOwner = d.rxOwner
  bridge : d'.bridge = d.bridge

/-- Sessions, owner and reader stay. -/
theorem Aside.of_same (hsessions : d'.sessions = d.sessions) (howner : d'.rxOwner = d.rxOwner)
    (hbridge : d'.bridge = d.bridge) : Aside i d d' :=
  ⟨⟨id, .of_same (fun _ => rfl) (fun _ => rfl) fun _ => rfl,
    by rw [hsessions, id, Function.update_eq_self]⟩, howner, hbridge⟩

/-- A nonce is nothing that the protocol sees. -/
theorem steady_storeNonce (made : Bool) (raw : List UInt8) :
    Session.Steady (Session.storeNonce made raw) :=
  .of_same (fun _ => rfl) (fun _ => rfl) fun _ => rfl

/-- A neutral operation moves nothing that the protocol sees. -/
theorem exec_aside {β : Type} {o : Op β} {b : β} (ho : o.Neutral)
    (h : exec opts env m i β o d = some (b, d')) : Aside i d d' := by
  by_cases hreads : o.Reads
  · rw [exec_reads hreads h]
    exact .of_same rfl rfl rfl
  cases o with
  | makeNonce =>
    obtain ⟨raw, -, rfl⟩ := makeNonce_eq h
    exact ⟨⟨_, steady_storeNonce _ raw, rfl⟩, rfl, rfl⟩
  | modify f =>
    cases h
    exact ⟨⟨f, ho, rfl⟩, rfl, rfl⟩
  | send | broadcast | checkResponse | allocStreamId | set | resetAdcLevel | vitaSessionAdd
  | vitaSessionRemove | vitaUpdatePayloadFormat =>
    cases h
    exact .of_same rfl rfl rfl
  | freeSession | rxReleaseLocked | rxClaim | vitaSendContextAll | bridgeStart | bridgeStopLocked
  | pthreadJoin => exact absurd ho id
  | _ => exact absurd trivial hreads

/-- The session's own record changes by something that the protocol does not see. -/
theorem Aside.session (h : Aside i d d') : ∃ f, Session.Steady f ∧
    d'.sessions i = f (d.sessions i) := by
  obtain ⟨f, hf, hsessions⟩ := h.sessions
  exact ⟨f, hf, by rw [hsessions, Function.update_self]⟩

/-! ## Sessions that do not move -/

/-- An operation of one session leaves the record of every other as it is, and whether it owns the
channel. -/
theorem exec_others {β : Type} {o : Op β} {b : β} (h : exec opts env m i β o d = some (b, d'))
    (hj : j ≠ i) : d'.sessions j = d.sessions j ∧ (d'.rxOwner = some j ↔ d.rxOwner = some j) := by
  by_cases hreads : o.Reads
  · rw [exec_reads hreads h]
    exact ⟨rfl, Iff.rfl⟩
  have hij : some i ≠ some j := fun heq => hj (Option.some.inj heq).symm
  cases o with
  | makeNonce =>
    obtain ⟨raw, -, rfl⟩ := makeNonce_eq h
    exact ⟨Daemon.modify_of_ne hj .., Iff.rfl⟩
  | modify =>
    cases h
    exact ⟨Daemon.modify_of_ne hj .., Iff.rfl⟩
  | freeSession =>
    cases h
    exact ⟨Daemon.modify_of_ne hj (fun _ => Session.zero) d, Iff.rfl⟩
  -- the receiver was free or this session's own, so no other session loses it
  | rxClaim =>
    obtain rfl : (d.rxClaim i).2 = d' := congrArg Prod.snd (Option.some.inj h)
    unfold Daemon.rxClaim
    split_ifs with howner
    · refine ⟨Daemon.modify_of_ne hj .., ?_⟩
      show some i = some j ↔ d.rxOwner = some j
      rcases howner with hnone | hself
      · simp [hnone, hij]
      · rw [hself]
    · exact ⟨rfl, Iff.rfl⟩
  -- only the owner can release the receiver
  | rxReleaseLocked =>
    cases h
    refine ⟨Daemon.modify_of_ne hj .., ?_⟩
    show (if d.rxOwner = some i then none else d.rxOwner) = some j ↔ d.rxOwner = some j
    split_ifs with howner
    · simp [howner, hij]
    · rfl
  | send | broadcast | checkResponse | allocStreamId | set | resetAdcLevel | vitaSessionAdd
  | vitaSessionRemove | vitaUpdatePayloadFormat | vitaSendContextAll | bridgeStart
  | bridgeStopLocked | pthreadJoin =>
    cases h
    exact ⟨rfl, Iff.rfl⟩
  | _ => exact absurd trivial hreads

/-- An operation of one thread does not move another from its place. -/
theorem Daemon.Holds.other (h : d.Holds j q) {β : Type} {o : Op β} {b : β}
    (hexec : exec opts env m i β o d = some (b, d')) (hj : j ≠ i) : d'.Holds j q := by
  obtain ⟨hsession, howner⟩ := exec_others hexec hj
  unfold Daemon.Holds at h ⊢
  rw [hsession, propext howner]
  exact h

/-! ## The session that moves -/

/-- After a release the session is not the owner. -/
theorem rxReleaseLocked_owner (i : SessId) (d : Daemon) : (d.rxReleaseLocked i).2.rxOwner ≠ some i := by
  show (if d.rxOwner = some i then none else d.rxOwner) ≠ some i
  split_ifs with howner
  · exact nofun
  · exact howner

/-- An operation of a session keeps what its place says, at the place that comes next. -/
theorem Daemon.Holds.own (h : d.Holds i q) {β : Type} {o : Op β} {b : β} (hnext : Next q β o b q')
    (hexec : exec opts env m i β o d = some (b, d')) : d'.Holds i q' := by
  cases hnext with
  | other ho =>
    have ha := exec_aside ho hexec
    obtain ⟨f, hf, hsession⟩ := ha.session
    unfold Daemon.Holds
    rw [hsession, ha.rxOwner]
    exact Held.steady h hf
  | reply | check | context | notice =>
    cases hexec
    exact Held.place h rfl h.joining
  | set x =>
    cases hexec
    cases x <;> exact Held.place h rfl h.joining
  | self s hchannel hready =>
    cases hexec
    cases hopen : (d.sessions i).streamOpen with
    | true =>
      refine held_opened hopen (h.owner hopen fun hdeparting => ?_) rfl
      rw [hdeparting] at hchannel
      exact absurd hchannel (by decide)
    | false =>
      exact held_closed hopen (h.not_streaming hopen) (by simp) hready.1
  -- the channel is free or the session's own, and becomes its own; or the claim fails
  | claim ok hchannel howes hready =>
    have hclaim : d.rxClaim i = (ok, d') := Option.some.inj hexec
    unfold Daemon.rxClaim at hclaim
    split_ifs at hclaim with hfree
    · obtain ⟨rfl, rfl⟩ := Prod.mk.inj hclaim
      unfold Daemon.Holds
      rw [Daemon.modify_self]
      exact held_claimed (h.closed hchannel) (h.not_streaming (h.closed hchannel)) rfl rfl hready.1
    · obtain ⟨rfl, rfl⟩ := Prod.mk.inj hclaim
      exact Held.place h hchannel.symm fun hjoin => nomatch hready.1.symm.trans hjoin
  -- from here on the stream is open, until it is closed or the session ends
  | openStream n addr port hchannel hready =>
    cases hexec
    unfold Daemon.Holds
    rw [Daemon.modify_self]
    exact held_opened rfl (h.claimed hchannel).2 rfl
  | startStreaming hchannel hready =>
    cases hexec
    unfold Daemon.Holds
    rw [Daemon.modify_self]
    exact held_opened (h.opened hchannel) (Held.owned h hchannel) hchannel
  | closeStream hchannel hready =>
    cases hexec
    unfold Daemon.Holds
    rw [Daemon.modify_self]
    exact held_claimed rfl nofun (Held.owned h hchannel) rfl hready.1
  | release released hchannel hready =>
    cases hexec
    have hopen := (h.claimed hchannel).1
    unfold Daemon.Holds
    rw [Daemon.modify_self]
    exact held_closed hopen (h.not_streaming hopen) (by simp) hready.1
  -- the session ends, and what it holds of the channel is not asked any more
  | depart released hchannel howes hready =>
    cases hexec
    unfold Daemon.Holds
    rw [Daemon.modify_self]
    exact {
      streaming := h.streaming
      owner := fun _ hne => absurd rfl hne
      closed := nofun
      opened := nofun
      claimed := nofun
      departing := fun _ => rxReleaseLocked_owner i d
      joining := fun hjoin => nomatch hready.1.symm.trans hjoin }
  | bridgeStart ok hchannel hready =>
    cases hexec
    exact Held.place h rfl h.joining
  | bridgeStop join hchannel hready =>
    cases hexec
    exact Held.place h rfl fun _ => hchannel
  | join hjoin =>
    cases hexec
    exact Held.place h rfl nofun
  | free hchannel hready =>
    cases hexec
    unfold Daemon.Holds
    rw [freeSession_self]
    exact held_closed rfl nofun (by simp) hready.1

/-- An operation of a session leaves its connection alone, but for the one that frees its slot. -/
theorem exec_live {β : Type} {o : Op β} {b : β} (hnext : Next q β o b q')
    (hexec : exec opts env m i β o d = some (b, d')) (hlive : (d.sessions i).live = true) :
    (d'.sessions i).live = true ∨ q'.channel = .gone := by
  have hkeep : (d'.sessions i).fd = (d.sessions i).fd → (d'.sessions i).live = true := fun hfd => by
    unfold Session.live at hlive ⊢
    rw [hfd]
    exact hlive
  cases hnext with
  | other ho =>
    obtain ⟨f, hf, hsession⟩ := (exec_aside ho hexec).session
    exact .inl (hkeep (by rw [hsession, hf.fd]))
  | claim =>
    obtain rfl : (d.rxClaim i).2 = d' := congrArg Prod.snd (Option.some.inj hexec)
    refine .inl (hkeep ?_)
    unfold Daemon.rxClaim
    split_ifs
    · rw [Daemon.modify_self]
      rfl
    · rfl
  | openStream | startStreaming | closeStream | release | depart =>
    cases hexec
    refine .inl (hkeep ?_)
    rw [Daemon.modify_self]
    rfl
  | reply | self | check | set | context | notice | bridgeStart | bridgeStop | join =>
    cases hexec
    exact .inl hlive
  | free => exact .inr rfl

/-- A request that does not wait for the reader and has an operation to perform is ready. -/
theorem Next.ready {β : Type} {o : Op β} {b : β} (hnext : Next q β o b q')
    (hjoin : q.track.joining = false) : q.Ready := by
  cases hnext with
  | join hj => exact nomatch hjoin.symm.trans hj
  | _ => assumption

end

/-! ## Moves -/

/-- What a move does to the daemon and to the places of the requests. -/
inductive Turn (opts : Options) (d : Daemon) (ph : SessId → Phase) :
    Move → Daemon → (SessId → Phase) → Prop where
  | connect (fd : ℕ) (stack : List Tok) (hfd : 0 < fd)
      (hfree : ∀ i, (d.sessions i).fd = 0 → ph i = .start) :
      Turn opts d ph (.connect fd stack) (d.sessionCreate fd stack) ph
  | receive (i : SessId) (frame : List UInt8) :
      Turn opts d ph (.receive i frame) (d.tokenise i frame) ph
  | disconnect (i : SessId) : Turn opts d ph (.disconnect i) d ph
  | go {i : SessId} {env : Env} {β : Type} {o : Op β} {b : β} {q : Phase} {d' : Daemon}
      (hnext : Next (ph i) β o b q)
      (hexec : exec opts env (d.message i env) i β o d = some (b, d')) :
      Turn opts d ph (.turn i env) d' (Function.update ph i q)
  | finish {i : SessId} {env : Env} {β : Type} {o : Op β} {b : β} {q : Phase} {d' : Daemon}
      {ids : List CStr} (hnext : Next (ph i) β o b q)
      (hexec : exec opts env (d.message i env) i β o d = some (b, d')) (hrests : q.Rests ids) :
      Turn opts d ph (.turn i env) d' (Function.update ph i .start)
  | usb (buf : List UInt8) (nowMs : UInt64) :
      Turn opts d ph (.usb buf nowMs) (d.rtlCallback buf nowMs) ph

/-- The program of a request keeps to the protocol from a place on. -/
def Thread.Conforms (t : Thread) (q : Phase) : Prop :=
  t.track = q.track ∧ Follows sensible Next (fun _ q' => ∃ ids, q'.Rests ids) q t.rest

/-- Every request in progress is at a place of the protocol, and what the places say is true. -/
structure InStep (P : Pool) (ph : SessId → Phase) : Prop where
  idle : ∀ i, P.threads i = none → ph i = .start
  busy : ∀ i t, P.threads i = some t → t.Conforms (ph i) ∧ (P.daemon.sessions i).live = true
  held : ∀ i, P.daemon.Holds i (ph i)

/-- At the start every session is at its first place. -/
theorem inStep_init (dev : Device) (o : Startup) (contextPackets : Bool) :
    InStep (Pool.init dev o contextPackets) fun _ => .start where
  idle := fun _ _ => rfl
  busy := nofun
  held := fun _ => held_closed rfl nofun (by decide) rfl

section
variable {opts : Options} {P P' : Pool} {ph : SessId → Phase}

/-- The places agree with what the operations of the requests tell. -/
theorem InStep.track (h : InStep P ph) (i : SessId) : P.track i = (ph i).track := by
  unfold Pool.track
  cases ht : P.threads i with
  | none => rw [h.idle i ht]; rfl
  | some t => exact (h.busy i t ht).1.1

/-- A thread that goes on has its program left. -/
theorem Thread.go_some {track : Track} {p : Prog Op Unit} {t : Thread}
    (h : Thread.go track p = some t) : t = ⟨p, track⟩ := by
  cases p with
  | pure u => cases h
  | op o k => exact (Option.some.inj h).symm

/-- A thread that has ended has nothing left. -/
theorem Thread.go_none {track : Track} {p : Prog Op Unit} (h : Thread.go track p = none) :
    ∃ u, p = .pure u := by
  cases p with
  | pure u => exact ⟨u, rfl⟩
  | op o k => cases h

/-- A round of the loop keeps to the protocol. -/
theorem sessionRound_conforms (n : ℤ) : Thread.Conforms ⟨sessionRound opts n, .start⟩ .start :=
  ⟨rfl, (sessionRound_follows (fun _ h => h) Phase.quiet_start n).mono fun _ _ ⟨ids, h, _⟩ => ⟨ids, h⟩⟩

/-- So does the end of a session. -/
theorem sessionDestroy_conforms : Thread.Conforms ⟨sessionDestroy opts, .start⟩ .start :=
  ⟨rfl, (sessionDestroy_follows (fun _ h => h) Phase.quiet_start).mono fun _ _ h => ⟨[], h⟩⟩

/-- One thread has moved: it is at a place of its own, or done. -/
theorem InStep.update (h : InStep P ph) {i : SessId} {q : Phase} {r : Option Thread} {d : Daemon}
    (hnone : r = none → q = .start)
    (hsome : ∀ t, r = some t → t.Conforms q ∧ (d.sessions i).live = true)
    (hlive : ∀ j, j ≠ i → (d.sessions j).live = (P.daemon.sessions j).live)
    (hheld : ∀ j, d.Holds j (Function.update ph i q j)) :
    InStep ⟨d, Function.update P.threads i r⟩ (Function.update ph i q) where
  idle := fun j hj => by
    by_cases hji : j = i
    · subst hji
      rw [Function.update_self]
      exact hnone ((Function.update_self j r P.threads).symm.trans hj)
    · rw [Function.update_of_ne hji]
      exact h.idle j ((Function.update_of_ne hji ..).symm.trans hj)
  busy := fun j t ht => by
    by_cases hji : j = i
    · subst hji
      rw [Function.update_self]
      exact hsome t ((Function.update_self j r P.threads).symm.trans ht)
    · rw [Function.update_of_ne hji]
      obtain ⟨hconforms, hj⟩ := h.busy j t ((Function.update_of_ne hji ..).symm.trans ht)
      exact ⟨hconforms, (hlive j hji).trans hj⟩
  held := hheld

/-- A thread that begins a request. -/
theorem InStep.begin (h : InStep P ph) {i : SessId} {p : Prog Op Unit} {d : Daemon}
    (hidle : P.threads i = none) (hlive : (P.daemon.sessions i).live = true)
    (hp : Thread.Conforms ⟨p, .start⟩ .start) (hsessions : d.sessions = P.daemon.sessions)
    (howner : d.rxOwner = P.daemon.rxOwner) :
    InStep ⟨d, Function.update P.threads i (Thread.go .start p)⟩ ph := by
  -- a session without a request in progress is at the start already
  have hph : Function.update ph i .start = ph := by rw [← h.idle i hidle, Function.update_eq_self]
  rw [← hph]
  refine h.update (fun _ => rfl) (fun t ht => ?_) (fun j _ => ?_) fun j => ?_
  · rw [Thread.go_some ht, hsessions]
    exact ⟨hp, hlive⟩
  · rw [hsessions]
  · rw [hph]
    have hj := h.held j
    unfold Daemon.Holds at hj ⊢
    rwa [hsessions, howner]

/-- A connection gets a slot that no request is in progress for. -/
theorem InStep.connect (h : InStep P ph) (fd : ℕ) (stack : List Tok) :
    InStep { P with daemon := P.daemon.sessionCreate fd stack } ph := by
  rcases sessionCreate_cases fd stack P.daemon with hd | ⟨k, hfree, hd⟩
  · rw [hd]
    exact h
  -- the new session's slot was free, so no thread was in it
  have hself : (P.daemon.sessionCreate fd stack).sessions k = Session.new fd := by
    rw [hd]
    exact Function.update_self ..
  have hothers : ∀ j, j ≠ k → (P.daemon.sessionCreate fd stack).sessions j = P.daemon.sessions j := by
    intro j hj
    rw [hd]
    exact Function.update_of_ne hj ..
  have howner : (P.daemon.sessionCreate fd stack).rxOwner = P.daemon.rxOwner := by
    rw [hd]
    rfl
  have hidle : P.threads k = none := by
    cases hk : P.threads k with
    | none => rfl
    | some t =>
      have hlive := (h.busy k t hk).2
      simp [Session.live, hfree] at hlive
  refine ⟨h.idle, fun j t hj => ?_, fun j => ?_⟩
  -- a thread that runs belongs to another slot
  · have hjk : j ≠ k := fun heq => nomatch (heq ▸ hidle).symm.trans hj
    show t.Conforms (ph j) ∧ ((P.daemon.sessionCreate fd stack).sessions j).live = true
    rw [hothers j hjk]
    exact h.busy j t hj
  · unfold Daemon.Holds
    by_cases hjk : j = k
    · subst hjk
      rw [hself, h.idle j hidle]
      exact held_closed rfl nofun (by decide) rfl
    · rw [hothers j hjk, howner]
      exact h.held j

/-- An operation of one thread keeps what the places of all of them say. -/
theorem InStep.held_next (h : InStep P ph) {i : SessId} {env : Env} {β : Type} {o : Op β} {b : β}
    {q : Phase} {d' : Daemon} (hnext : Next (ph i) β o b q)
    (hexec : exec opts env (P.daemon.message i env) i β o P.daemon = some (b, d')) (j : SessId) :
    d'.Holds j (Function.update ph i q j) := by
  by_cases hji : j = i
  · subst hji
    rw [Function.update_self]
    exact (h.held j).own hnext hexec
  · rw [Function.update_of_ne hji]
    exact (h.held j).other hexec hji

/-- In the states of a run a session streams only with an open stream. -/
theorem Daemon.Holds.sensible {env : Env} {m : Msg} {i : SessId} {d d' : Daemon} {q : Phase}
    (h : d.Holds i q) {β : Type} {o : Op β} {b : β}
    (hexec : exec opts env m i β o d = some (b, d')) : sensible β o b := by
  cases o with
  | self =>
    cases hexec
    exact h.streaming
  | _ => trivial

/-- An operation can be answered, so that one that the protocol has no place for does not come. -/
theorem exists_sensible {β : Type} (o : Op β) : ∃ b, sensible β o b := by
  cases o with
  | self => exact ⟨Session.zero, nofun⟩
  | tokType => exact ⟨.undefined, trivial⟩
  | radio => exact ⟨⟨0, 0, 0, 0, false, false, 0, 0, .normal⟩, trivial⟩
  | rxControlState => exact ⟨.free, trivial⟩
  | set x => cases x <;> exact ⟨default, trivial⟩
  | _ => exact ⟨default, trivial⟩

/-- Nothing follows on the end of a session. -/
theorem Thread.Conforms.not_gone {t : Thread} {q : Phase} (h : t.Conforms q)
    (hrest : ∀ u, t.rest ≠ .pure u) (hgone : q.channel = .gone) (hjoin : q.track.joining = false) :
    False := by
  obtain ⟨rest, track⟩ := t
  cases rest with
  | pure u => exact hrest u rfl
  | op o k =>
    obtain ⟨b, hb⟩ := exists_sensible o
    obtain ⟨q', hnext, -⟩ := h.2 b hb
    exact (hnext.ready hjoin).2 hgone

/-- The thread that performs an operation is at the next place afterwards, or done. -/
theorem InStep.turn (h : InStep P ph) {i : SessId} {env : Env} (hturn : P.turn opts i env = some P') :
    ∃ ph', InStep P' ph' ∧ Turn opts P.daemon ph (.turn i env) P'.daemon ph' := by
  obtain ⟨β, o, k, track, b, d', ht, hexec, rfl⟩ := Pool.turn_eq hturn
  obtain ⟨⟨htrack, hfollows⟩, hlive⟩ := h.busy i _ ht
  obtain ⟨q, hnext, hrest⟩ := hfollows.step ((h.held i).sensible hexec)
  have htrack' : track.after o b = q.track := by
    rw [hnext.track]
    exact congrArg (·.after o b) htrack
  have hheld := h.held_next hnext hexec
  have hothers : ∀ j, j ≠ i → (d'.sessions j).live = (P.daemon.sessions j).live :=
    fun j hj => congrArg Session.live ((exec_others hexec hj).1)
  cases hgo : Thread.go (track.after o b) (k b) with
  | none =>
    -- the request is done, and the next one finds its session as this one leaves it
    obtain ⟨u, hpure⟩ := Thread.go_none hgo
    rw [hpure] at hrest
    obtain ⟨ids, hrests⟩ := hrest
    refine ⟨Function.update ph i .start, ?_, .finish hnext hexec hrests⟩
    refine h.update (fun _ => rfl) nofun hothers fun j => ?_
    have hj := hheld j
    by_cases hji : j = i
    · subst hji
      rw [Function.update_self] at hj ⊢
      exact hj.rest hrests
    · rwa [Function.update_of_ne hji] at hj ⊢
  | some t =>
    have ht' := Thread.go_some hgo
    have hconforms : t.Conforms q := by
      rw [ht']
      exact ⟨htrack', hrest⟩
    refine ⟨Function.update ph i q, ?_, .go hnext hexec⟩
    refine h.update nofun (fun t₁ ht₁ => ?_) hothers hheld
    obtain rfl := Option.some.inj ht₁
    refine ⟨hconforms, (exec_live hnext hexec hlive).resolve_right fun hgone => ?_⟩
    refine hconforms.not_gone (fun u hu => ?_) hgone ?_
    · rw [ht'] at hu
      rw [show k b = .pure u from hu] at hgo
      cases hgo
    · have hi := (hheld i).joining
      rw [Function.update_self, hgone] at hi
      exact Bool.eq_false_of_not_eq_true fun hjoin => nomatch hi hjoin

/-- What a move does. -/
theorem InStep.next (h : InStep P ph) {m : Move} (hmove : P.move opts m = some P') :
    ∃ ph', InStep P' ph' ∧ Turn opts P.daemon ph m P'.daemon ph' := by
  cases m with
  | connect fd stack =>
    obtain ⟨⟨hfd, -⟩, hP'⟩ := Option.ite_none_right_eq_some.mp hmove
    obtain rfl := Option.some.inj hP'
    refine ⟨ph, h.connect fd stack, .connect fd stack hfd fun i hi => ?_⟩
    -- a slot without a descriptor runs no thread
    cases ht : P.threads i with
    | none => exact h.idle i ht
    | some t =>
      have hlive := (h.busy i t ht).2
      simp [Session.live, hi] at hlive
  | receive i frame =>
    obtain ⟨⟨hlive, hidle, -⟩, hP'⟩ := Option.ite_none_right_eq_some.mp hmove
    obtain rfl := Option.some.inj hP'
    exact ⟨ph, h.begin (Option.isNone_iff_eq_none.mp hidle) hlive (sessionRound_conforms _) rfl rfl,
      .receive i frame⟩
  | disconnect i =>
    obtain ⟨⟨hlive, hidle⟩, hP'⟩ := Option.ite_none_right_eq_some.mp hmove
    obtain rfl := Option.some.inj hP'
    exact ⟨ph, h.begin (Option.isNone_iff_eq_none.mp hidle) hlive sessionDestroy_conforms rfl rfl,
      .disconnect i⟩
  | turn i env => exact h.turn hmove
  | usb buf nowMs =>
    obtain rfl := Option.some.inj hmove
    obtain ⟨hsessions, howner, -⟩ := rtlCallback_frame buf nowMs P.daemon
    refine ⟨ph, ⟨h.idle, fun i t ht => ?_, fun i => ?_⟩, .usb buf nowMs⟩
    · show t.Conforms (ph i) ∧ ((P.daemon.rtlCallback buf nowMs).sessions i).live = true
      rw [hsessions]
      exact h.busy i t ht
    · unfold Daemon.Holds
      rw [hsessions, howner]
      exact h.held i

/-- The memory that messages are read from is written to by a thread that receives one, and where a
new session's thread begins. -/
theorem move_memory {m : Move} (h : P.move opts m = some P') (hm : ∀ i frame, m ≠ .receive i frame) :
    P'.daemon.msgBuf = P.daemon.msgBuf ∧
      ∀ i, (P.daemon.sessions i).live = true → P'.daemon.tokens i = P.daemon.tokens i := by
  cases m with
  | connect fd stack =>
    obtain ⟨-, hP'⟩ := Option.ite_none_right_eq_some.mp h
    obtain rfl := Option.some.inj hP'
    show (P.daemon.sessionCreate fd stack).msgBuf = _ ∧
      ∀ i, _ → (P.daemon.sessionCreate fd stack).tokens i = _
    rcases sessionCreate_cases fd stack P.daemon with hd | ⟨k, hfree, hd⟩
    · rw [hd]
      exact ⟨rfl, fun _ _ => rfl⟩
    -- the new session gets a slot that was free, and clears its tokens
    · rw [hd]
      refine ⟨rfl, fun i hlive => Function.update_of_ne (fun hik => ?_) ..⟩
      rw [hik, Session.live, hfree] at hlive
      cases hlive
  | receive i frame => exact absurd rfl (hm i frame)
  | disconnect i =>
    obtain ⟨-, hP'⟩ := Option.ite_none_right_eq_some.mp h
    obtain rfl := Option.some.inj hP'
    exact ⟨rfl, fun _ _ => rfl⟩
  -- only `handle_message` writes the shared memory, and that has been done on reception
  | turn i env =>
    obtain ⟨β, o, k, track, b, d', -, hexec, rfl⟩ := Pool.turn_eq h
    obtain ⟨hbuf, htokens⟩ := exec_memory hexec
    exact ⟨hbuf, fun _ _ => congrFun htokens _⟩
  | usb buf nowMs =>
    obtain rfl := Option.some.inj h
    show (P.daemon.rtlCallback buf nowMs).msgBuf = _ ∧
      ∀ i, _ → (P.daemon.rtlCallback buf nowMs).tokens i = _
    unfold Daemon.rtlCallback
    split_ifs
    · rcases measureAdcLevel buf nowMs P.daemon.adc with ⟨level, adc⟩
      cases level with
      | none | some => exact ⟨rfl, fun _ _ => rfl⟩
    · exact ⟨rfl, fun _ _ => rfl⟩

end

end SlcRtld.Control
