import SlcRtld.Property.Exclusive

/-!
# The last notice is true

The owner of the channel changes in one critical section, and the notice of that goes out in a later
one. A request that has brought about a change and not told of it owes a notice. While at most one
request owes one, the notices arrive in the order of the changes: what is owed is the state of the
channel, and when nothing is owed then every session has been told of it last (`Converging`). So the
last notices are true whenever nothing is in progress, in every run in which the channel changes
hands only when no other request owes a notice (`notices_converge`).
-/

namespace SlcRtld.Property

open Libc Rtl Auth Vita Json Control Effect

/-! ## What a session has been told -/

/-- The state of the channel that a session was told last, since it connected. -/
def toldLast (j : SessId) : Obs → Option ControlState → Option ControlState
  | .connected i, w => if i = j then none else w
  | .sent i (.event (.controlRevoked s)), w => if i = j then some s else w
  | _, w => w

/-- What has been observed since an earlier state, the last event first. -/
def since (d d' : Daemon) : List Obs := d'.trace.take (d'.trace.length - d.trace.length)

/-- The pool, and what each session was told last since it connected or last was the owner. -/
structure Heard where
  pool : Pool
  last : SessId → Option ControlState

/-- A move of the pool, and what it tells the sessions. -/
def Heard.move (opts : Options) (w : Heard) (m : Move) : Option Heard :=
  (w.pool.move opts m).map fun P' => ⟨P', fun j => if P'.daemon.rxOwner = some j then none
    else (since w.pool.daemon P'.daemon).foldr (toldLast j) (w.last j)⟩

/-- The daemon has started. -/
def Heard.init (dev : Device) (o : Startup) (contextPackets : Bool) : Heard :=
  ⟨Pool.init dev o contextPackets, fun _ => none⟩

/-- When nothing is in progress, a session that has completed `hello` and is not the owner was told
last, if it was told anything, that the channel is free exactly when it is. -/
def LastNoticeTrue (w : Heard) : Prop :=
  w.pool.Idle → ∀ j, (w.pool.daemon.sessions j).live = true →
    (w.pool.daemon.sessions j).state ≠ .awaitHello → w.pool.daemon.rxOwner ≠ some j →
      ∀ s, w.last j = some s → (s = .free ↔ w.pool.daemon.rxOwner = none)

/-- The session whose request performs an operation in a move. -/
def mover : Move → Option SessId
  | .turn i _ => some i
  | _ => none

/-- The channel changes hands only when no other session's request owes a notice. -/
def InTurn (w : Heard) (m : Move) (w' : Heard) : Prop :=
  w'.pool.daemon.rxOwner ≠ w.pool.daemon.rxOwner →
    ∀ j, mover m ≠ some j → (w.pool.track j).owes = none

/-- Whether a move is in turn can be computed. -/
instance (w : Heard) (m : Move) (w' : Heard) : Decidable (InTurn w m w') := by
  unfold InTurn
  infer_instance

/-! ## Operations that tell nothing -/

/-- The observation is no notice, and no new connection. -/
def Obs.untold : Obs → Prop
  | .connected _ => False
  | .sent _ (.event (.controlRevoked _)) => False
  | _ => True

section
variable {opts : Options} {env : Env} {m : Msg} {i j : SessId} {d d' : Daemon} {q q' : Phase}

/-- What is new in a trace. -/
theorem since_of_trace {os : List Obs} (h : d'.trace = os ++ d.trace) : since d d' = os := by
  rw [since, h, List.length_append, Nat.add_sub_cancel, List.take_left]

/-- An observation that tells nothing of the channel. -/
theorem told_of_untold {o : Obs} (h : Obs.untold o) (w : Option ControlState) : toldLast j o w = w := by
  unfold toldLast
  split
  · exact absurd h id
  · exact absurd h id
  · rfl

/-- Observations that tell nothing of the channel. -/
theorem foldr_told (h : Emits Obs.untold d d') (w : Option ControlState) :
    (since d d').foldr (toldLast j) w = w := by
  obtain ⟨os, htrace, hos⟩ := h
  rw [since_of_trace htrace]
  clear htrace
  induction os with
  | nil => rfl
  | cons o os ih =>
    obtain ⟨ho, hrest⟩ := List.forall_mem_cons.mp hos
    rw [List.foldr_cons, ih hrest, told_of_untold ho]

/-- An operation that sends a notice. -/
def tells : {β : Type} → Op β → Prop
  | _, .send (.event (.controlRevoked _)) => True
  | _, .broadcast _ (.controlRevoked _) => True
  | _, _ => False

/-- Other events tell nothing of the channel. -/
theorem untold_event {e : Event} (h : ∀ s, e ≠ .controlRevoked s) : Obs.untold (.sent j (.event e)) := by
  cases e with
  | controlRevoked s => exact absurd rfl (h s)
  | _ => trivial

/-- Nor do other frames. -/
theorem untold_sent {f : Frame} (h : ∀ s, f ≠ .event (.controlRevoked s)) : Obs.untold (.sent j f) := by
  cases f with
  | event e => exact untold_event fun s hs => h s (hs ▸ rfl)
  | _ => trivial

/-- Nor do the packets. -/
theorem untold_vitaApply (o : VitaOp) : Emits Obs.untold d (d.vitaApply o) :=
  ⟨_, rfl, forall_mem_map_obs (fun _ => trivial) _⟩

/-- An operation that sends no notice tells nothing. -/
theorem exec_untold {β : Type} {o : Op β} {b : β} (ho : ¬ tells o)
    (h : exec opts env m i β o d = some (b, d')) : Emits Obs.untold d d' := by
  refine (exec_observes h).mono fun x hx => ?_
  cases o with
  -- a frame is a notice only if it tells the state
  | send f =>
    obtain rfl := hx
    refine untold_sent ?_
    rintro s rfl
    exact ho trivial
  | broadcast skipSelf e =>
    obtain ⟨j, rfl⟩ := hx
    refine untold_event ?_
    rintro s rfl
    exact ho trivial
  | freeSession =>
    obtain rfl := hx
    trivial
  | checkResponse =>
    obtain ⟨_, _, rfl⟩ := hx
    trivial
  | makeNonce | set | bridgeStart | bridgeStopLocked | vitaSessionAdd | vitaSessionRemove
  | vitaUpdatePayloadFormat | vitaSendContextAll =>
    obtain ⟨_, rfl⟩ := hx
    trivial
  | _ => exact absurd hx id

/-- Nor does a USB buffer. -/
theorem untold_rtlCallback (buf : List UInt8) (nowMs : UInt64) (d : Daemon) :
    Emits Obs.untold d (d.rtlCallback buf nowMs) := by
  unfold Daemon.rtlCallback
  split_ifs
  · rcases measureAdcLevel buf nowMs d.adc with ⟨level, adc⟩
    cases level with
    | none => exact (Emits.of_eq rfl).trans (untold_vitaApply _)
    | some l =>
      have hevent : Emits Obs.untold { d with adc := adc }
          ({ d with adc := adc }.broadcast none (.adcOverload { d with adc := adc }.overloadStream l)) :=
        .log (forall_mem_map_obs (fun _ => trivial) _) _
      exact ((Emits.of_eq rfl).trans hevent).trans (untold_vitaApply _)
  · exact .of_eq rfl

/-! ## What a step does to the notices -/

/-- No session has connected, and none has gone back to before its `hello`. -/
def Continues (d d' : Daemon) : Prop :=
  ∀ j, (d'.sessions j).live = true → (d.sessions j).live = true ∧
    ((d.sessions j).state ≠ .awaitHello → (d'.sessions j).state ≠ .awaitHello)

/-- The sessions stay as they are. -/
theorem Continues.of_eq (h : d'.sessions = d.sessions) : Continues d d' := fun j hj => by
  rw [h] at hj ⊢
  exact ⟨hj, id⟩

/-- An operation ends no session that it does not free. -/
theorem exec_continues {β : Type} {o : Op β} {b : β} (hnext : Next q β o b q')
    (hexec : exec opts env m i β o d = some (b, d')) : Continues d d' := by
  intro j hj
  by_cases hji : j = i
  case neg =>
    rw [(exec_others hexec hji).1] at hj ⊢
    exact ⟨hj, id⟩
  subst hji
  -- a slot that keeps its descriptor stays alive
  have hkeep : ∀ {s s' : Session}, s'.fd = s.fd → s'.live = true → s.live = true := by
    intro s s' hfd hlive
    unfold Session.live at hlive ⊢
    rwa [hfd] at hlive
  cases hnext with
  | other ho =>
    obtain ⟨f, hf, hsession⟩ := (exec_aside ho hexec).session
    rw [hsession] at hj ⊢
    exact ⟨hkeep (hf.fd _) hj, hf.greeted _⟩
  | claim =>
    obtain rfl : (d.rxClaim j).2 = d' := congrArg Prod.snd (Option.some.inj hexec)
    unfold Daemon.rxClaim at hj ⊢
    split_ifs at hj ⊢
    · rw [Daemon.modify_self] at hj ⊢
      exact ⟨hj, id⟩
    · exact ⟨hj, id⟩
  | openStream | startStreaming | closeStream =>
    cases hexec
    rw [Daemon.modify_self] at hj ⊢
    exact ⟨hj, fun _ => nofun⟩
  | release | depart =>
    cases hexec
    rw [Daemon.modify_self] at hj ⊢
    exact ⟨hj, id⟩
  | reply | self | check | set | context | notice | bridgeStart | bridgeStop | join =>
    cases hexec
    exact ⟨hj, id⟩
  -- a slot that is given back is not alive
  | free =>
    cases hexec
    rw [freeSession_self] at hj
    cases hj

/-- What an operation of a session does to the channel and to the notices. -/
inductive NoticeStep (i : SessId) (d : Daemon) (owes : Option ControlState) :
    Daemon → Option ControlState → Prop where
  | none {d' : Daemon} (huntold : Emits Obs.untold d d') (howner : d'.rxOwner = d.rxOwner) :
      NoticeStep i d owes d' owes
  | claim {d' : Daemon} (huntold : Emits Obs.untold d d') (howes : owes = none)
      (hfree : d.rxOwner = none ∨ d.rxOwner = some i) (howner : d'.rxOwner = some i) :
      NoticeStep i d owes d' (some .ownedByOther)
  | release {d' : Daemon} (huntold : Emits Obs.untold d d') (hmine : d.rxOwner = some i)
      (howner : d'.rxOwner = none) : NoticeStep i d owes d' (some .free)
  | notice {s : ControlState} (howes : owes = some s) :
      NoticeStep i d owes (d.broadcast (some i) (.controlRevoked s)) none

/-- An operation changes the owner of the channel and owes a notice, pays it, or does neither. -/
theorem noticeStep (hheld : d.Holds i q) {β : Type} {o : Op β} {b : β} (hnext : Next q β o b q')
    (hexec : exec opts env m i β o d = some (b, d')) :
    NoticeStep i d q.track.owes d' q'.track.owes := by
  have huntold : ¬ tells o → Emits Obs.untold d d' := fun ho => exec_untold ho hexec
  cases hnext with
  -- neutral operations send no notice of the channel
  | other ho =>
    refine .none (huntold fun htells => ?_) (exec_aside ho hexec).rxOwner
    cases o with
    | send f =>
      obtain ⟨e, rfl, he⟩ := ho
      cases e with
      | controlRevoked s => exact he s rfl
      | _ => exact htells
    | broadcast skipSelf e =>
      cases e with
      | controlRevoked s => exact ho s rfl
      | _ => exact htells
    | _ => exact htells
  | @reply f id hid =>
    refine .none (huntold fun htells => ?_) (by cases hexec; rfl)
    cases f with
    | event e => cases hid
    | _ => exact htells
  | set x =>
    have howes : (q.track.after (.set x) b).owes = q.track.owes := by cases x <;> rfl
    show NoticeStep i d q.track.owes d' (q.track.after (.set x) b).owes
    rw [howes]
    exact .none (huntold id) (by cases hexec; rfl)
  | self | check | context | openStream | startStreaming | closeStream | bridgeStart | bridgeStop
  | join | free => exact .none (huntold id) (by cases hexec; rfl)
  -- a claim that succeeds owes the others a notice
  | claim ok hchannel howes =>
    have hclaim : d.rxClaim i = (ok, d') := Option.some.inj hexec
    unfold Daemon.rxClaim at hclaim
    split_ifs at hclaim with hfree
    · obtain ⟨rfl, rfl⟩ := Prod.mk.inj hclaim
      exact .claim (huntold id) howes hfree rfl
    · obtain ⟨rfl, rfl⟩ := Prod.mk.inj hclaim
      exact .none (huntold id) rfl
  -- a release by the owner owes the others a notice
  | release released hchannel =>
    cases hexec
    have hmine := (hheld.claimed hchannel).2
    have howes : (q.track.after .rxReleaseLocked (d.rxReleaseLocked i).1).owes = some .free := by
      simp [Track.after, Daemon.rxReleaseLocked, hmine]
    show NoticeStep i d q.track.owes _ (q.track.after .rxReleaseLocked (d.rxReleaseLocked i).1).owes
    rw [howes]
    exact .release (huntold id) hmine (if_pos hmine)
  -- a session that ends may not own the channel, and then it owes nothing
  | depart released hchannel howes =>
    cases hexec
    show NoticeStep i d q.track.owes _ (q.track.after .rxReleaseLocked (d.rxReleaseLocked i).1).owes
    by_cases hmine : d.rxOwner = some i
    · have howes' : (q.track.after .rxReleaseLocked (d.rxReleaseLocked i).1).owes = some .free := by
        simp [Track.after, Daemon.rxReleaseLocked, hmine]
      rw [howes']
      exact .release (huntold id) hmine (if_pos hmine)
    · have howes' : (q.track.after .rxReleaseLocked (d.rxReleaseLocked i).1).owes = q.track.owes := by
        simp [Track.after, Daemon.rxReleaseLocked, hmine, howes]
      rw [howes']
      exact .none (huntold id) (if_neg hmine)
  -- the notice that is owed is sent
  | notice howes =>
    cases hexec
    exact .notice howes

end

/-! ## The invariant -/

/-- What each session was told last, after a step. -/
def toldAfter (d d' : Daemon) (last : SessId → Option ControlState) (j : SessId) :
    Option ControlState :=
  if d'.rxOwner = some j then none else (since d d').foldr (toldLast j) (last j)

/-- At most one request owes a notice, what it owes is the state of the channel, and when nothing is
owed then every session has been told that last. -/
structure Converging (d : Daemon) (last owes : SessId → Option ControlState) : Prop where
  one : ∀ i j, owes i ≠ none → owes j ≠ none → i = j
  pending : ∀ i s, owes i = some s → (s = .free ↔ d.rxOwner = none) ∧
    (d.rxOwner = none ∨ d.rxOwner = some i) ∧ last i = none
  mine : ∀ j, d.rxOwner = some j → last j = none
  told : ∀ j s, (d.sessions j).live = true → last j = some s → (d.sessions j).state ≠ .awaitHello ∧
    ((∀ i, owes i = none) → (s = .free ↔ d.rxOwner = none))

section
variable {d d' : Daemon} {last owes : SessId → Option ControlState} {i j : SessId}

/-- A step that tells nothing takes back what the owner has been told, and nothing else. -/
theorem toldAfter_untold (h : Emits Obs.untold d d') :
    toldAfter d d' last j = if d'.rxOwner = some j then none else last j := by
  rw [toldAfter, foldr_told h]

/-- A notice to several sessions. -/
theorem foldr_told_sent (s : ControlState) (l : List SessId) (w : Option ControlState) :
    (l.map fun k => Obs.sent k (.event (.controlRevoked s))).foldr (toldLast j) w =
      if j ∈ l then some s else w := by
  induction l with
  | nil => rfl
  | cons k l ih =>
    rw [List.map_cons, List.foldr_cons, ih]
    by_cases hk : k = j
    · simp [toldLast, hk]
    · simp [toldLast, hk, Ne.symm hk]

/-- A notice reaches every session that has completed `hello`, but for the one that sends it. -/
theorem toldAfter_broadcast (s : ControlState) :
    toldAfter d (d.broadcast (some i) (.controlRevoked s)) last j =
      if d.rxOwner = some j then none else if (d.sessions j).live = true ∧ j ≠ i ∧
        (d.sessions j).state ≠ .awaitHello then some s else last j := by
  have htrace : (d.broadcast (some i) (.controlRevoked s)).trace =
      (d.listeners (some i)).reverse.map (fun k => Obs.sent k (.event (.controlRevoked s))) ++
        d.trace := rfl
  have hlisten : j ∈ (d.listeners (some i)).reverse ↔ (d.sessions j).live = true ∧ j ≠ i ∧
      (d.sessions j).state ≠ .awaitHello := by
    simp [Daemon.listeners, and_assoc]
  rw [toldAfter, since_of_trace htrace, foldr_told_sent]
  simp only [hlisten]
  rfl

/-- A step that tells nothing and moves nothing. -/
theorem Converging.untold (h : Converging d last owes) (hsame : d'.rxOwner = d.rxOwner)
    (huntold : Emits Obs.untold d d') (j : SessId) : toldAfter d d' last j = last j := by
  rw [toldAfter_untold huntold, hsame]
  split_ifs with hj
  · exact (h.mine j hj).symm
  · rfl

/-- One operation keeps what is told in step with what is owed. -/
theorem Converging.next (h : Converging d last owes) {o : Option ControlState}
    (hstep : NoticeStep i d (owes i) d' o) (hcontinues : Continues d d')
    (hturn : d'.rxOwner ≠ d.rxOwner → ∀ j, j ≠ i → owes j = none) :
    Converging d' (toldAfter d d' last) (Function.update owes i o) := by
  -- once the channel has changed hands, only the session that moves owes a notice
  have hchanged : ∀ {s : ControlState}, (∀ j, j ≠ i → owes j = none) →
      Emits Obs.untold d d' → (s = .free ↔ d'.rxOwner = none) →
      (d'.rxOwner = none ∨ d'.rxOwner = some i) → toldAfter d d' last i = none →
      Converging d' (toldAfter d d' last) (Function.update owes i (some s)) := by
    intro s hothers huntold hstate howner hlast
    have honly : ∀ j, Function.update owes i (some s) j ≠ none → j = i := by
      intro j hj
      by_contra hji
      rw [Function.update_of_ne hji, hothers j hji] at hj
      exact hj rfl
    refine ⟨fun a b ha hb => (honly a ha).trans (honly b hb).symm, fun k t hk => ?_,
      fun j hj => if_pos hj, fun j t hlive ht => ⟨?_, fun hnone => ?_⟩⟩
    · obtain rfl := honly k (by rw [hk]; exact nofun)
      rw [Function.update_self] at hk
      obtain rfl := Option.some.inj hk
      exact ⟨hstate, howner, hlast⟩
    · rw [toldAfter_untold huntold] at ht
      split_ifs at ht
      obtain ⟨hlive', hgreeted⟩ := hcontinues j hlive
      exact hgreeted (h.told j t hlive' ht).1
    · have hi := hnone i
      rw [Function.update_self] at hi
      cases hi
  cases hstep with
  | none huntold howner =>
    have hlast := fun j => h.untold howner huntold j
    rw [Function.update_eq_self]
    refine ⟨h.one, fun k s hk => ?_, fun j hj => if_pos hj, fun j s hlive hs => ?_⟩
    · rw [howner, hlast]
      exact h.pending k s hk
    · obtain ⟨hlive', hgreeted⟩ := hcontinues j hlive
      rw [hlast] at hs
      obtain ⟨hstate, htold⟩ := h.told j s hlive' hs
      rw [howner]
      exact ⟨hgreeted hstate, htold⟩
  | claim huntold howes hfree howner =>
    have hothers : ∀ j, j ≠ i → owes j = none := by
      intro j hj
      rcases hfree with hnone | hmine
      · exact hturn (by rw [howner, hnone]; exact nofun) j hj
      · by_contra howes'
        obtain ⟨s, hs⟩ := Option.ne_none_iff_exists'.mp howes'
        rcases (h.pending j s hs).2.1 with hnone | hmine'
        · exact nomatch hnone.symm.trans hmine
        · exact hj (Option.some.inj (hmine'.symm.trans hmine))
    refine hchanged hothers huntold ?_ (.inr howner) (if_pos howner)
    rw [howner]
    exact ⟨nofun, nofun⟩
  | release huntold hmine howner =>
    have hothers := hturn (by rw [howner, hmine]; exact nofun)
    refine hchanged hothers huntold (by simp [howner]) (.inl howner) ?_
    rw [toldAfter_untold huntold, h.mine i hmine, ite_self]
  | @notice s howes =>
    obtain ⟨hstate, howner, hlast⟩ := h.pending i s howes
    have hnone : ∀ j, Function.update owes i none j = none := by
      intro j
      by_cases hji : j = i
      · subst hji
        exact Function.update_self ..
      · rw [Function.update_of_ne hji]
        by_contra hj
        exact hji (h.one j i hj (by rw [howes]; exact nofun))
    refine ⟨fun a b ha _ => absurd (hnone a) ha, fun k t hk => (nomatch (hnone k).symm.trans hk),
      fun j hj => if_pos hj, fun j t hlive ht => ?_⟩
    rw [toldAfter_broadcast] at ht
    split_ifs at ht with hj hlistens
    · obtain rfl := Option.some.inj ht
      exact ⟨hlistens.2.2, fun _ => hstate⟩
    · -- a session that does not listen has been told nothing: it has not said hello, or it is the one
      -- that sends the notice
      have hgreeted := (h.told j t hlive ht).1
      by_cases hji : j = i
      · subst hji
        exact nomatch hlast.symm.trans ht
      · exact absurd ⟨hlive, hji, hgreeted⟩ hlistens

end

section
variable {opts : Options} {w w' : Heard} {m : Move}

/-- The invariant of the pool: every request is at a place of the protocol, and the notices
converge. -/
def Heard.Sound (w : Heard) : Prop :=
  ∃ ph, InStep w.pool ph ∧ Converging w.pool.daemon w.last fun i => (ph i).track.owes

/-- A step that tells nothing, moves nothing and changes no session. -/
theorem Converging.calm {d d' : Daemon} {last owes : SessId → Option ControlState}
    (h : Converging d last owes) (i : SessId) (huntold : Emits Obs.untold d d')
    (howner : d'.rxOwner = d.rxOwner) (hsessions : d'.sessions = d.sessions) :
    Converging d' (toldAfter d d' last) owes := by
  have hnext := h.next (.none huntold howner : NoticeStep i d (owes i) d' (owes i))
    (.of_eq hsessions) (fun hne => absurd howner hne)
  rwa [Function.update_eq_self] at hnext

/-- A connection has been told nothing. -/
theorem Converging.connect {d : Daemon} {last owes : SessId → Option ControlState}
    (h : Converging d last owes) (fd : ℕ) (stack : List Tok) :
    Converging (d.sessionCreate fd stack) (toldAfter d (d.sessionCreate fd stack) last) owes := by
  rcases sessionCreate_cases fd stack d with hd | ⟨k, -, hd⟩
  · rw [hd]
    exact h.calm 0 (.of_eq rfl) rfl rfl
  have howner : (d.sessionCreate fd stack).rxOwner = d.rxOwner := sessionCreate_owner fd stack d
  have htrace : (d.sessionCreate fd stack).trace = [.connected k] ++ d.trace := by
    rw [hd]
    rfl
  have hlast : ∀ j, toldAfter d (d.sessionCreate fd stack) last j = if j = k then none else last j := by
    intro j
    rw [toldAfter, since_of_trace htrace, howner]
    show (if d.rxOwner = some j then none else if k = j then none else last j) = _
    by_cases hj : d.rxOwner = some j
    · rw [if_pos hj, h.mine j hj, ite_self]
    · rw [if_neg hj]
      simp only [eq_comm]
  refine ⟨h.one, fun i s hs => ?_, fun j hj => if_pos hj, fun j s hlive hs => ?_⟩
  · obtain ⟨hstate, howns, hnone⟩ := h.pending i s hs
    rw [howner, hlast, hnone, ite_self]
    exact ⟨hstate, howns, rfl⟩
  · rw [hlast] at hs
    split_ifs at hs with hjk
    have hsession : (d.sessionCreate fd stack).sessions j = d.sessions j := by
      rw [hd]
      exact Function.update_of_ne hjk ..
    rw [hsession] at hlive ⊢
    rw [howner]
    exact h.told j s hlive hs

/-- One move in turn keeps the invariant; so the last notices are true. -/
theorem Heard.Sound.next (h : w.Sound) (hmove : w.move opts m = some w') (hturn : InTurn w m w') :
    w'.Sound ∧ LastNoticeTrue w' := by
  obtain ⟨P', hP', rfl⟩ := Option.map_eq_some_iff.mp hmove
  obtain ⟨ph, hin, hconv⟩ := h
  obtain ⟨ph', hin', hdone⟩ := hin.next hP'
  -- the notices converge, and a session whose threads rest owes none
  suffices hconv' : Converging P'.daemon (toldAfter w.pool.daemon P'.daemon w.last)
      fun i => (ph' i).track.owes by
    refine ⟨⟨ph', hin', hconv'⟩, fun hidle j hlive _ _ s hs => ?_⟩
    exact (hconv'.told j s hlive hs).2 fun i => by rw [hin'.idle i (hidle i)]; rfl
  have hothers : ∀ {i env}, m = .turn i env → P'.daemon.rxOwner ≠ w.pool.daemon.rxOwner →
      ∀ j, j ≠ i → (ph j).track.owes = none := by
    intro i env hm hne j hj
    rw [← hin.track j]
    refine hturn hne j fun hmover => hj ?_
    rw [hm] at hmover
    exact (Option.some.inj hmover).symm
  -- the phases change in one slot, so what is owed does too
  have hupdate : ∀ (i : SessId) (q : Phase), (fun j => (Function.update ph i q j).track.owes) =
      Function.update (fun j => (ph j).track.owes) i q.track.owes := by
    intro i q
    funext j
    by_cases hj : j = i
    · subst hj
      simp only [Function.update_self]
    · simp only [Function.update_of_ne hj]
  obtain ⟨d', threads'⟩ := P'
  cases hdone with
  | connect fd stack => exact hconv.connect fd stack
  | receive => exact hconv.calm 0 (.of_eq rfl) rfl rfl
  | disconnect => exact hconv.calm 0 (.of_eq rfl) rfl rfl
  | usb buf nowMs =>
    obtain ⟨hsessions, howner, -⟩ := rtlCallback_frame buf nowMs w.pool.daemon
    exact hconv.calm 0 (untold_rtlCallback buf nowMs _) howner hsessions
  | @go i env _ _ _ _ _ hnext hexec =>
    rw [hupdate]
    exact hconv.next (noticeStep (hin.held i) hnext hexec) (exec_continues hnext hexec) (hothers rfl)
  -- a program that ends has paid what it owes
  | @finish i env _ _ _ q _ _ hnext hexec hrests =>
    have hstart : Phase.start.track.owes = q.track.owes := hrests.owes.symm
    rw [hupdate, hstart]
    exact hconv.next (noticeStep (hin.held i) hnext hexec) (exec_continues hnext hexec) (hothers rfl)

end

/-- In every interleaving in which the channel changes hands only when no other request owes a
notice: whenever nothing is in progress, the last notices are true. -/
theorem notices_converge (opts : Options) (dev : Device) (o : Startup) (contextPackets : Bool)
    (ms : List Move) (hturn : Along (Heard.move opts) InTurn (Heard.init dev o contextPackets) ms) :
    Always (Heard.move opts) LastNoticeTrue (Heard.init dev o contextPackets) ms := by
  have hstart : (Heard.init dev o contextPackets).Sound :=
    ⟨_, inStep_init dev o contextPackets, nofun, nofun, nofun, nofun⟩
  have hnext : ∀ w m w', Heard.Sound w → Heard.move opts w m = some w' → InTurn w m w' →
      Heard.Sound w' ∧ LastNoticeTrue w' := fun _ _ _ h hmove hC => h.next hmove hC
  exact ⟨fun _ _ _ _ _ _ => nofun, along_of_invariant hnext hstart hturn⟩

/-- A request to close the first stream. -/
def closeFrame : List UInt8 := requestFrame "close_stream" "\"stream_id\":\"rx-1\""

/-- Three clients have said `hello`, and the first one has opened a stream. -/
def threeGreeted : List Move :=
  greeted ++ .connect 7 (List.replicate maxJsonTokens ⟨.undefined, 0, 0, 0⟩) ::
    handles 2 helloFrame 16 ++ handles 0 openFrame 33

/-- The first client closes its stream, and then the second one opens one. -/
def passedOn : List Move := threeGreeted ++ handles 0 closeFrame 17 ++ handles 1 openFrame 33

/-- One session closes its stream and another opens one: the third is told of both, and the last
notice is true. -/
theorem notices_converge_passed_on :
    (runActs (Heard.move openAccess) (Heard.init obedient ⟨.normal, false, false, 0, 0⟩ true)
      passedOn).any (fun w => w.pool.daemon.rxOwner = some 1 ∧
        (∀ i, (w.pool.threads i).isNone = true) ∧ w.last 2 = some .ownedByOther) = true ∧
    Always (Heard.move openAccess) LastNoticeTrue
      (Heard.init obedient ⟨.normal, false, false, 0, 0⟩ true) passedOn :=
  ⟨by decide +kernel, notices_converge openAccess obedient _ true passedOn (by decide +kernel)⟩

/-- The first client has released the channel and not told of it when the second one claims it and
tells of that. Then the first one tells the third that the channel is free, and nothing more
follows. -/
theorem told_free_while_owned :
    ∃ w, Reachable (Heard.move openAccess) (Heard.init obedient ⟨.normal, false, false, 0, 0⟩ true) w ∧
      ¬ LastNoticeTrue w := by
  have hrun : ((runActs (Heard.move openAccess) (Heard.init obedient ⟨.normal, false, false, 0, 0⟩ true)
      (threeGreeted ++ handles 0 closeFrame 14 ++ handles 1 openFrame 33 ++ turns 0 3)).any fun w =>
        (∀ i, (w.pool.threads i).isNone = true) ∧ w.pool.daemon.rxOwner = some 1 ∧
        (w.pool.daemon.sessions 2).live = true ∧ (w.pool.daemon.sessions 2).state ≠ .awaitHello ∧
        w.last 2 = some .free) = true := by
    decide +kernel
  obtain ⟨w, hw, hchecks⟩ := (Option.any_eq_true ..).mp hrun
  obtain ⟨hidle, howner, hlive, hstate, hlast⟩ := of_decide_eq_true hchecks
  refine ⟨w, ⟨_, hw⟩, fun htrue => ?_⟩
  have hfree := htrue (fun i => Option.isNone_iff_eq_none.mp (hidle i)) 2 hlive hstate
    (by rw [howner]; decide) .free hlast
  exact nomatch howner.symm.trans (hfree.mp rfl)

end SlcRtld.Property
