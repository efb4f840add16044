import SlcRtld.Property.Ownership
import Mathlib.Data.Fintype.Card

/-!
# Stream accounting

A stream that runs is recorded in four places: the session's state, its `vita_token`, the VITA slot,
and the count that keeps the USB reader running. They agree (`Accounted`) as long as no session says
`hello` again while it streams (`stream_accounting`): `cmd_hello` then puts the session back to idle
and leaves the other three records as they are (`stream_accounting_fails`).

Since at most one session has a stream open, at most one stream runs. The invariant names it
(`Flows`), and each operation is checked against the stream it may start or end.
-/

namespace SlcRtld.Property

open Control Effect Vita

/-! ## The property -/

/-- A connected session holds an active VITA slot with the session's stream. -/
def HoldsSlot (d : Daemon) (i : SessId) (k : VitaId) : Prop :=
  (d.sessions i).live = true ∧ (d.sessions i).vitaToken = k.val ∧
    (d.vita.slots k).active = true ∧
    (d.vita.slots k).vitaStreamId = (d.sessions i).vitaStreamId

/-- The sessions that stream. -/
def streamers (d : Daemon) : Finset SessId :=
  Finset.univ.filter fun i => (d.sessions i).live = true ∧ (d.sessions i).state = .streaming

/-- The four records of a running stream agree. -/
structure Accounted (d : Daemon) : Prop where
  streaming : ∀ i, (d.sessions i).live = true →
    ((d.sessions i).state = .streaming ↔ ∃ k, HoldsSlot d i k)
  slots : ∀ k, (d.vita.slots k).active = true → ∃! i, HoldsSlot d i k
  streamCount : d.bridge.streamCount = (streamers d).card
  running : d.bridge.running = true ↔ 0 < d.bridge.streamCount

/-! ## The invariant -/

/-- The daemon carries this stream, or none: a session and the slot it holds. -/
structure Flows (d : Daemon) (flow : Option (SessId × VitaId)) : Prop where
  silent : ∀ i, (d.sessions i).live = true → (∀ k, flow ≠ some (i, k)) →
    (d.sessions i).state ≠ .streaming ∧ (d.sessions i).vitaToken < 0
  flows : ∀ i k, flow = some (i, k) → (d.sessions i).state = .streaming ∧ HoldsSlot d i k
  slots : ∀ k, (d.vita.slots k).active = true → ∃ i, flow = some (i, k)
  streamCount : d.bridge.streamCount = if flow.isSome then 1 else 0
  running : d.bridge.running = flow.isSome

section
variable {d d' : Daemon} {flow : Option (SessId × VitaId)} {i : SessId} {k : VitaId}

/-- The sessions that stream. -/
theorem Flows.streamers (h : Flows d flow) :
    streamers d = match flow with | none => ∅ | some (i, _) => {i} := by
  ext j
  simp only [Property.streamers, Finset.mem_filter, Finset.mem_univ, true_and]
  cases flow with
  | none =>
    simp only [Finset.notMem_empty, iff_false, not_and]
    exact fun hlive => (h.silent j hlive (by simp)).1
  | some f =>
    obtain ⟨i, k⟩ := f
    obtain ⟨hstate, hholds⟩ := h.flows i k rfl
    simp only [Finset.mem_singleton]
    constructor
    · rintro ⟨hlive, hj⟩
      by_contra hne
      exact (h.silent j hlive (fun k hk => hne (by cases hk; rfl))).1 hj
    · rintro rfl
      exact ⟨hholds.1, hstate⟩

/-- A daemon that carries one stream or none accounts for it. -/
theorem Flows.accounted (h : Flows d flow) : Accounted d where
  streaming := fun i hlive => by
    constructor
    · intro hstate
      by_contra hnone
      refine (h.silent i hlive fun k hk => hnone ⟨k, ?_⟩).1 hstate
      exact (h.flows i k hk).2
    · rintro ⟨k, -, htoken, hactive, -⟩
      by_contra hstate
      -- a silent session has no token
      have hneg := (h.silent i hlive fun l hl => hstate (h.flows i l hl).1).2
      omega
  slots := fun k hk => by
    obtain ⟨i, hi⟩ := h.slots k hk
    refine ⟨i, (h.flows i k hi).2, fun j hj => ?_⟩
    by_contra hne
    have hneg := (h.silent j hj.1 fun l hl => hne (by rw [hi] at hl; cases hl; rfl)).2
    have htoken := hj.2.1
    omega
  streamCount := by
    rw [h.streamCount, h.streamers]
    rcases flow with _ | ⟨i, k⟩ <;> rfl
  running := by
    rw [h.running, h.streamCount]
    cases flow <;> simp

/-! ## Steps that leave the stream alone -/

/-- Every slot has the stream it had. -/
def SameSlots (d d' : Daemon) : Prop :=
  ∀ k, (d'.vita.slots k).active = (d.vita.slots k).active ∧
    (d'.vita.slots k).vitaStreamId = (d.vita.slots k).vitaStreamId

/-- A step of a session that leaves the slots, the reader and the other sessions alone. -/
theorem Flows.of_step (h : Flows d flow) (hslots : SameSlots d d')
    (hbridge : d'.bridge = d.bridge) (hothers : ∀ j, j ≠ i → d'.sessions j = d.sessions j)
    (hsilent : (d'.sessions i).live = true → (∀ k, flow ≠ some (i, k)) →
      (d'.sessions i).state ≠ .streaming ∧ (d'.sessions i).vitaToken < 0)
    (hflows : ∀ k, flow = some (i, k) → (d'.sessions i).state = .streaming ∧
      (d'.sessions i).streamFields = (d.sessions i).streamFields) : Flows d' flow where
  silent := fun j hlive hj => by
    by_cases hji : j = i
    · subst hji
      exact hsilent hlive hj
    · rw [hothers j hji] at hlive ⊢
      exact h.silent j hlive hj
  flows := fun j k hj => by
    obtain ⟨hstate, hlive, htoken, hactive, hid⟩ := h.flows j k hj
    rw [← (hslots k).1] at hactive
    rw [← (hslots k).2] at hid
    by_cases hji : j = i
    · subst hji
      obtain ⟨hstate', hfields⟩ := hflows k hj
      have hfd := congrArg StreamFields.fd hfields
      have htoken' := congrArg StreamFields.vitaToken hfields
      have hid' := congrArg StreamFields.vitaStreamId hfields
      simp only [Session.streamFields] at hfd htoken' hid'
      exact ⟨hstate', by rwa [Session.live, hfd], htoken'.trans htoken, hactive, hid.trans hid'.symm⟩
    · unfold HoldsSlot
      rw [hothers j hji]
      exact ⟨hstate, hlive, htoken, hactive, hid⟩
  slots := fun k hk => h.slots k ((hslots k).1 ▸ hk)
  streamCount := hbridge ▸ h.streamCount
  running := hbridge ▸ h.running

/-- A step that changes no session, no slot and not the reader. -/
theorem Flows.congr (h : Flows d flow) (hslots : SameSlots d d')
    (hbridge : d'.bridge = d.bridge) (hsessions : d'.sessions = d.sessions) : Flows d' flow := by
  refine h.of_step (i := 0) hslots hbridge (fun j _ => congrFun hsessions j) ?_ ?_
  · rw [hsessions]
    exact h.silent 0
  · rw [hsessions]
    exact fun k hk => ⟨(h.flows 0 k hk).1, rfl⟩

/-- A change that concerns one session alone does not touch its stream, unless it takes the session
out of the streaming state. -/
theorem Flows.of_private (h : Flows d flow) (hp : Private i d d')
    (hstate : (d.sessions i).state = .streaming → (d'.sessions i).state = .streaming) :
    Flows d' flow := by
  refine h.of_step (i := i) (fun k => by rw [hp.vita]; exact ⟨rfl, rfl⟩) hp.bridge hp.others ?_ ?_
  · intro hlive hk
    have hfd := congrArg StreamFields.fd hp.streamFields
    have htoken := congrArg StreamFields.vitaToken hp.streamFields
    simp only [Session.streamFields] at hfd htoken
    rw [Session.live, hfd] at hlive
    obtain ⟨hsilent, hneg⟩ := h.silent i hlive hk
    refine ⟨?_, htoken ▸ hneg⟩
    rcases hp.state with hs | hs
    · rwa [hs]
    · rw [hs]
      decide
  · exact fun k hk => ⟨hstate (h.flows i k hk).1, hp.streamFields⟩

/-! ## Steps of the stream -/

/-- A daemon that carries nothing, with no session that streams or has a token. -/
theorem flows_none (hsilent : ∀ i, (d.sessions i).live = true →
      (d.sessions i).state ≠ .streaming ∧ (d.sessions i).vitaToken < 0)
    (hslots : ∀ k, (d.vita.slots k).active = false) (hcount : d.bridge.streamCount = 0)
    (hrunning : d.bridge.running = false) : Flows d none where
  silent := fun i hlive _ => hsilent i hlive
  flows := fun _ _ h => by cases h
  slots := fun k hk => by simp [hslots k] at hk
  streamCount := hcount
  running := hrunning

/-- The stream that a session ends is the one that the daemon carries. -/
theorem Flows.of_streaming (h : Flows d flow) (hlive : (d.sessions i).live = true)
    (hstate : (d.sessions i).state = .streaming) : ∃ k, flow = some (i, k) := by
  by_contra hnone
  exact (h.silent i hlive fun k hk => hnone ⟨k, hk⟩).1 hstate

/-- A session without the stream has no slot to remove. -/
theorem Flows.removeVita (h : Flows d flow) (hlive : (d.sessions i).live = true)
    (hstate : (d.sessions i).state ≠ .streaming) : d.removeVita i = d := by
  have hneg := (h.silent i hlive fun k hk => hstate (h.flows i k hk).1).2
  exact if_neg (by omega)

/-- The last stream stops the reader. -/
theorem stopReading_last (hcount : d.bridge.streamCount = 1) (hrunning : d.bridge.running = true) :
    d.stopReading.bridge.streamCount = 0 ∧ d.stopReading.bridge.running = false := by
  simp [Daemon.stopReading, Daemon.bridgeStopLocked, Rtl.rtlBridgeStopLocked, Rtl.pthreadJoin,
    Daemon.log, hcount, hrunning]

/-- What is left when the session with the stream has removed its slot and stopped the reader. -/
theorem Flows.stop (h : Flows d (some (i, k))) :
    ((d.removeVita i).stopReading.sessions i = { d.sessions i with vitaToken := -1 }) ∧
      (∀ l, ((d.removeVita i).stopReading.vita.slots l).active = false) ∧
      (d.removeVita i).stopReading.bridge.streamCount = 0 ∧
      (d.removeVita i).stopReading.bridge.running = false := by
  obtain ⟨-, -, htoken, -⟩ := h.flows i k rfl
  have hremove : d.removeVita i = (d.vitaApply (.remove k.val)).modify i (Session.setToken (-1)) := by
    unfold Daemon.removeVita
    rw [if_pos (by omega), htoken]
  rw [hremove]
  refine ⟨Daemon.modify_self .., fun l => ?_, stopReading_last h.streamCount h.running⟩
  show ((vitaSessionRemove k.val d.vita).1.slots l).active = false
  rw [vitaSessionRemove_slots (slotOf_val k)]
  by_cases hl : l = k
  · rw [hl, Function.update_self]
    rfl
  · rw [Function.update_of_ne hl, Bool.eq_false_iff]
    intro hactive
    obtain ⟨j, hj⟩ := h.slots l hactive
    cases hj
    exact hl rfl

/-- The session with the stream has ended it, and is in another state or gone. -/
theorem Flows.stopped (h : Flows d (some (i, k)))
    (hothers : ∀ j, j ≠ i → d'.sessions j = d.sessions j)
    (hself : (d'.sessions i).live = true →
      (d'.sessions i).state ≠ .streaming ∧ (d'.sessions i).vitaToken < 0)
    (hvita : d'.vita = (d.removeVita i).stopReading.vita)
    (hbridge : d'.bridge = (d.removeVita i).stopReading.bridge) : Flows d' none := by
  obtain ⟨-, hslots, hcount, hrunning⟩ := h.stop
  refine flows_none (fun j hlive => ?_) (fun l => hvita ▸ hslots l) (hbridge ▸ hcount)
    (hbridge ▸ hrunning)
  by_cases hj : j = i
  · subst hj
    exact hself hlive
  · rw [hothers j hj] at hlive ⊢
    refine h.silent j hlive fun l hl => hj ?_
    cases hl
    rfl

/-- A stream of another session cannot be open. -/
theorem Flows.none_of_open (h : Flows d flow) (hown : Owned d)
    (hlive : (d.sessions i).live = true) (hopen : (d.sessions i).streamOpen = true)
    (hstate : (d.sessions i).state ≠ .streaming) : flow = none := by
  rcases flow with _ | ⟨j, k⟩
  · rfl
  · obtain ⟨hstate', hlive', -⟩ := h.flows j k rfl
    obtain ⟨howner, howns, -⟩ := hown.agrees i hlive
    obtain ⟨howner', howns', hopen'⟩ := hown.agrees j hlive'
    have hij : i = j := Option.some.inj ((howner.mpr (howns.mpr hopen)).symm.trans
      (howner'.mpr (howns'.mpr (hopen' (.inr hstate')))))
    exact absurd (hij ▸ hstate') hstate

/-- A slot that has been added and the reader that has been started carry the session's stream. -/
theorem Flows.start (h : Flows d none) (hlive : (d.sessions i).live = true)
    {p : StreamParams} (hp : p.vitaStreamId = (d.sessions i).vitaStreamId)
    (htoken : 0 ≤ (vitaSessionAdd p d.vita).1)
    (hothers : ∀ j, j ≠ i → d'.sessions j = d.sessions j)
    (hself : d'.sessions i = { d.sessions i with
      vitaToken := (vitaSessionAdd p d.vita).1, state := .streaming })
    (hvita : d'.vita = (vitaSessionAdd p d.vita).2.1) (hcount : d'.bridge.streamCount = 1)
    (hrunning : d'.bridge.running = true) : ∃ k, Flows d' (some (i, k)) := by
  rcases vitaSessionAdd_cases p d.vita with hfull | ⟨k, -, hk, hactive, hid, hrest⟩
  · rw [hfull] at htoken
    exact absurd (show (0 : ℤ) ≤ -1 from htoken) (by decide)
  refine ⟨k, ⟨fun j hj hne => ?_, ?_, fun l hl => ?_, hcount, hrunning⟩⟩
  · by_cases hji : j = i
    · exact absurd rfl (hji ▸ hne k)
    · rw [hothers j hji] at hj ⊢
      exact h.silent j hj nofun
  · rintro j l hj
    cases hj
    unfold HoldsSlot
    rw [hself, hvita]
    exact ⟨rfl, hlive, hk, hactive, hid.trans hp⟩
  · by_cases hlk : l = k
    · exact ⟨i, by rw [hlk]⟩
    · rw [hvita, hrest l hlk] at hl
      obtain ⟨j, hj⟩ := h.slots l hl
      cases hj

/-- The first stream starts the reader, or fails to. -/
theorem bridgeStart_first {created ok : Bool} (h : d.bridgeStart created = (ok, d'))
    (hcount : d.bridge.streamCount = 0) :
    d'.bridge.streamCount = (if ok then 1 else 0) ∧ d'.bridge.running = ok ∧ d'.vita = d.vita := by
  cases created with
  | true | false =>
    simp only [Daemon.bridgeStart, Rtl.rtlBridgeStart, hcount] at h
    obtain ⟨rfl, rfl⟩ := Prod.mk.inj h
    exact ⟨rfl, rfl, rfl⟩

/-- Adding a stream to a table that has none, and removing it, leaves a table that has none. -/
theorem remove_added {v : Table} {p : StreamParams} (htoken : 0 ≤ (vitaSessionAdd p v).1)
    (hnone : ∀ l, (v.slots l).active = false) (l : VitaId) :
    ((vitaSessionRemove (vitaSessionAdd p v).1 (vitaSessionAdd p v).2.1).1.slots l).active =
      false := by
  rcases remove_added_slots htoken l with hsame | ⟨hzero, -⟩
  · rw [hsame, hnone l]
  · rw [hzero]
    rfl

/-- Where nothing flows no slot is active. -/
theorem Flows.inactive (h : Flows d none) (l : VitaId) : (d.vita.slots l).active = false := by
  rw [Bool.eq_false_iff]
  intro hl
  obtain ⟨j, hj⟩ := h.slots l hl
  cases hj

/-- A session that does not stream and has no slot, beside others that are as they were. -/
theorem Flows.silent_of_self (h : Flows d none) (hothers : ∀ j, j ≠ i → d'.sessions j = d.sessions j)
    (hstate : (d'.sessions i).state ≠ .streaming) (htoken : (d'.sessions i).vitaToken < 0) (j : SessId)
    (hlive : (d'.sessions j).live = true) :
    (d'.sessions j).state ≠ .streaming ∧ (d'.sessions j).vitaToken < 0 := by
  by_cases hji : j = i
  · subst hji
    exact ⟨hstate, htoken⟩
  · rw [hothers j hji] at hlive ⊢
    exact h.silent j hlive nofun

/-- There is no slot for another stream: nothing is added. -/
theorem Flows.startBusy (h : Flows d none) {p : StreamParams} {s : Session}
    (htoken : (vitaSessionAdd p d.vita).1 < 0)
    (hothers : ∀ j, j ≠ i → d'.sessions j = d.sessions j)
    (hself : d'.sessions i = s.setToken (vitaSessionAdd p d.vita).1) (hstate : s.state ≠ .streaming)
    (hvita : d'.vita = (vitaSessionAdd p d.vita).2.1) (hbridge : d'.bridge = d.bridge) :
    Flows d' none := by
  have hfull : (vitaSessionAdd p d.vita).2.1 = d.vita := by
    rcases vitaSessionAdd_cases p d.vita with hfull | ⟨k, -, hk, -⟩
    · rw [hfull]
    · omega
  refine flows_none (h.silent_of_self hothers (hself ▸ hstate) (hself ▸ htoken)) (fun l => ?_)
    (hbridge ▸ h.streamCount) (hbridge ▸ h.running)
  rw [hvita, hfull]
  exact h.inactive l

/-- The reader cannot be started: the slot that was added is removed again. -/
theorem Flows.startFailed (h : Flows d none) {p : StreamParams} {s : Session}
    (htoken : 0 ≤ (vitaSessionAdd p d.vita).1)
    (hothers : ∀ j, j ≠ i → d'.sessions j = d.sessions j)
    (hself : d'.sessions i = s.setToken (-1)) (hstate : s.state ≠ .streaming)
    (hvita : d'.vita = (vitaSessionRemove (vitaSessionAdd p d.vita).1 (vitaSessionAdd p d.vita).2.1).1)
    (hcount : d'.bridge.streamCount = 0) (hrunning : d'.bridge.running = false) : Flows d' none := by
  have hnone : (s.setToken (-1)).vitaToken < 0 := Int.negSucc_lt_zero 0
  refine flows_none (h.silent_of_self hothers (hself ▸ hstate) (hself ▸ hnone)) (fun l => ?_)
    hcount hrunning
  rw [hvita]
  exact remove_added htoken h.inactive l

/-- A session without an open stream does not carry one. -/
theorem Flows.ne_of_closed (h : Flows d flow) (hown : Owned d)
    (hopen : (d.sessions i).streamOpen = false) (k : VitaId) : flow ≠ some (i, k) := by
  intro hk
  obtain ⟨hstate, hlive, -⟩ := h.flows i k hk
  have := (hown.agrees i hlive).2.2 (.inr hstate)
  rw [hopen] at this
  cases this

/-- A session that gets or gives up the channel, and does not stream before or after. -/
theorem Flows.aside {s : Session} (h : Flows d flow) (hs : Streams i d d')
    (hslots : d'.vita = d.vita) (hbridge : d'.bridge = d.bridge) (hne : ∀ k, flow ≠ some (i, k))
    (hself : d'.sessions i = s)
    (hstate : (d.sessions i).state ≠ .streaming → s.state ≠ .streaming)
    (htoken : s.vitaToken = (d.sessions i).vitaToken) : Flows d' flow := by
  refine h.of_step (i := i) (fun k => by rw [hslots]; exact ⟨rfl, rfl⟩) hbridge hs.others ?_
    (fun k hk => absurd hk (hne k))
  intro hlive _
  rw [Session.live, hs.fd] at hlive
  obtain ⟨hsilent, hneg⟩ := h.silent i hlive hne
  rw [hself]
  exact ⟨hstate hsilent, htoken ▸ hneg⟩

end

section
variable {opts : Options} {env : Env} {m : Json.Msg} {d d' : Daemon}
  {flow : Option (SessId × VitaId)} {i : SessId}

/-- A stream command starts a stream, ends the one that is carried, or does neither. -/
theorem streamOutcome_flows {c : Command} (h : StreamOutcome env m i d c d') (hown : Owned d)
    (hlive : (d.sessions i).live = true) (hc : Flows d flow) : ∃ flow', Flows d' flow' := by
  have hs := streamOutcome_streams h hown hlive
  cases h with
  -- the channel is claimed, and given back or kept
  | refused hopen d₁ hclaim =>
    obtain ⟨-, rfl⟩ := rxClaim_eq hclaim
    have hself : (({ d with rxOwner := some i }.modify i Session.own).rxRelease i).sessions i =
        (d.sessions i).own.disown := by
      rw [rxRelease_sessions, Daemon.modify_self, Daemon.modify_self]
    exact ⟨flow, hc.aside hs rxRelease_vita rxRelease_bridge (hc.ne_of_closed hown hopen) hself
      (fun h => h) rfl⟩
  | opened hopen d₁ hclaim addr port =>
    obtain ⟨-, rfl⟩ := rxClaim_eq hclaim
    have hself : ((({ d with rxOwner := some i }.modify i Session.own).allocStreamId.2.modify i
        (Session.openStream (d.streamCounter + 1) addr port)).sessions i) =
          (d.sessions i).own.openStream (d.streamCounter + 1) addr port := by
      rw [Daemon.modify_self]
      exact congrArg _ (Daemon.modify_self ..)
    exact ⟨flow, hc.aside hs rfl rfl (hc.ne_of_closed hown hopen) hself
      (fun _ => by simp [Session.openStream]) rfl⟩
  -- the session owns the channel and does not stream, so nobody does
  | startBusy hopen hstate p htoken =>
    obtain rfl := hc.none_of_open hown hlive hopen hstate
    exact ⟨none, hc.startBusy htoken hs.others (Daemon.modify_self ..) hstate rfl rfl⟩
  | startFailed hopen hstate p htoken d₁ hstart =>
    obtain rfl := hc.none_of_open hown hlive hopen hstate
    obtain ⟨hsessions, -⟩ := bridgeStart_frame hstart
    obtain ⟨hcount, hrunning, hvita⟩ := bridgeStart_first hstart hc.streamCount
    have hadded : d₁.sessions i = (d.sessions i).setToken (vitaSessionAdd p d.vita).1 :=
      (congrFun hsessions i).trans (Daemon.modify_self ..)
    refine ⟨none, hc.startFailed htoken hs.others (Daemon.modify_self ..) ?_ ?_ hcount hrunning⟩
    · exact (congrArg Session.state hadded).trans_ne hstate
    · exact congrArg (fun v => (vitaSessionRemove (vitaSessionAdd p d.vita).1 v).1) hvita
  | started hopen hstate p hp htoken d₁ hstart =>
    obtain rfl := hc.none_of_open hown hlive hopen hstate
    obtain ⟨hsessions, -⟩ := bridgeStart_frame hstart
    obtain ⟨hcount, hrunning, hvita⟩ := bridgeStart_first hstart hc.streamCount
    have hadded : d₁.sessions i = (d.sessions i).setToken (vitaSessionAdd p d.vita).1 :=
      (congrFun hsessions i).trans (Daemon.modify_self ..)
    have hself : (d₁.modify i (Session.setState .streaming)).sessions i =
        ((d.sessions i).setToken (vitaSessionAdd p d.vita).1).setState .streaming := by
      rw [Daemon.modify_self, hadded]
    obtain ⟨k, hk⟩ := hc.start hlive (by rw [hp]; rfl) htoken hs.others hself hvita hcount hrunning
    exact ⟨some (i, k), hk⟩
  -- the stream that is carried is the session's own
  | stopped hopen hstate =>
    obtain ⟨k, rfl⟩ := hc.of_streaming hlive hstate
    have hself := Daemon.modify_self i (Session.setState .streamOpen) (d.removeVita i).stopReading
    rw [hc.stop.1] at hself
    refine ⟨none, hc.stopped hs.others (fun _ => ⟨?_, ?_⟩) rfl rfl⟩
    · exact (congrArg Session.state hself).trans_ne (by simp [Session.setState])
    · exact (congrArg Session.vitaToken hself).trans_lt (by simp [Session.setState])
  | closed hopen hstate =>
    rw [hc.removeVita hlive hstate] at hs ⊢
    have hself : ((d.modify i Session.closeStream).rxRelease i).sessions i =
        (d.sessions i).closeStream.disown := by
      rw [rxRelease_sessions, Daemon.modify_self, Daemon.modify_self]
    exact ⟨flow, hc.aside hs rxRelease_vita rxRelease_bridge
      (fun k hk => hstate (hc.flows i k hk).1) hself
      (fun _ => by simp [Session.closeStream, Session.disown]) rfl⟩
  | closedStreaming hopen hstate =>
    obtain ⟨k, rfl⟩ := hc.of_streaming hlive hstate
    have hself : (((d.removeVita i).stopReading.modify i Session.closeStream).rxRelease i).sessions i =
        ({ d.sessions i with vitaToken := -1 } : Session).closeStream.disown := by
      rw [rxRelease_sessions, Daemon.modify_self, Daemon.modify_self, hc.stop.1]
    refine ⟨none, hc.stopped hs.others (fun _ => ⟨?_, ?_⟩) rxRelease_vita rxRelease_bridge⟩
    · exact (congrArg Session.state hself).trans_ne (by simp [Session.closeStream, Session.disown])
    · exact (congrArg Session.vitaToken hself).trans_lt
        (by simp [Session.closeStream, Session.disown])

/-- A message other than an accepted `hello` of a session that streams. -/
theorem outcome_flows {c : Option Command} (h : Outcome opts env m i d c d') (hown : Owned d)
    (hlive : (d.sessions i).live = true)
    (hhello : (d.sessions i).state = .streaming → ¬ (c = some .hello ∧ OffersVersion m))
    (hc : Flows d flow) : ∃ flow', Flows d' flow' := by
  cases h with
  | ignored => exact ⟨flow, hc⟩
  | answered | status => exact ⟨flow, hc.of_private (Private.send ..) fun h => h⟩
  | auth h =>
    refine ⟨flow, hc.of_private h.isPrivate fun hstate => ?_⟩
    rcases h.state with ⟨rfl, hm⟩ | hsame
    · exact absurd ⟨rfl, hm⟩ (hhello hstate)
    · exact hsame.trans hstate
  | config _ _ h =>
    exact ⟨flow, hc.congr h.configures.identity h.configures.bridge h.configures.sessions⟩
  | stream _ h => exact streamOutcome_flows h hown hlive hc

/-- The end of a session that streams ends its stream. -/
theorem Flows.destroy (hc : Flows d flow) (hlive : (d.sessions i).live = true)
    (dev : Rtl.Device) : ∃ flow', Flows (d.destroy opts dev i) flow' := by
  have hothers : ∀ j, j ≠ i → (d.destroy opts dev i).sessions j = d.sessions j :=
    fun j hj => destroy_of_ne opts dev hj
  have hgone : ((d.destroy opts dev i).sessions i).live ≠ true := by
    rw [destroy_self]
    decide
  by_cases hstate : (d.sessions i).state = .streaming
  · obtain ⟨k, rfl⟩ := hc.of_streaming hlive hstate
    have hend : d.endStream i = (d.removeVita i).stopReading.broadcast (some i)
        (.streamState (d.sessions i).streamId false .controlLost) := if_pos hstate
    refine ⟨none, hc.stopped hothers (fun h => absurd h hgone) ?_ ?_⟩
    · rw [destroy_vita, hend]
      rfl
    · rw [destroy_bridge, hend]
      rfl
  · have hend : d.endStream i = d := (if_neg hstate).trans (hc.removeVita hlive hstate)
    refine ⟨flow, hc.of_step (i := i) (fun k => ?_) ?_ hothers (fun h => absurd h hgone)
      (fun k hk => absurd (hc.flows i k hk).1 hstate)⟩
    · rw [destroy_vita, hend]
      exact ⟨rfl, rfl⟩
    · rw [destroy_bridge, hend]

/-- A connection takes a slot that carries nothing. -/
theorem Flows.sessionCreate (hc : Flows d flow) (fd : ℕ) (stack : List Json.Tok) :
    Flows (d.sessionCreate fd stack) flow := by
  rcases sessionCreate_cases fd stack d with h | ⟨i, hfree, h⟩
  · rwa [h]
  · have hself : (d.sessionCreate fd stack).sessions i = Session.new fd := by
      rw [h]
      exact Function.update_self ..
    refine hc.of_step (i := i) (fun k => ?_) ?_ (fun j hj => ?_) (fun _ _ => ?_) (fun k hk => ?_)
    · rw [h]
      exact ⟨rfl, rfl⟩
    · rw [h]
      rfl
    · rw [h]
      exact Function.update_of_ne hj ..
    · rw [hself]
      exact ⟨nofun, show (-1 : ℤ) < 0 by decide⟩
    · have hlive := (hc.flows i k hk).2.1
      simp [Session.live, hfree] at hlive

/-! ## Runs -/

/-- A `hello` that is accepted on a session that streams. -/
def HelloWhileStreaming (opts : Options) (d : Daemon) : Action → Prop
  | .request i frame env => (d.sessions i).state = .streaming ∧
      d.command opts i frame env = some (some .hello) ∧ OffersVersion (d.received i frame env)
  | _ => False

/-- Every other step keeps the account. -/
theorem flows_next {a : Action} (hown : Owned d) (hc : Flows d flow)
    (hstep : step opts d a = some d') (hhello : ¬ HelloWhileStreaming opts d a) :
    ∃ flow', Flows d' flow' := by
  cases stepped_of_step hstep with
  | connect fd stack => exact ⟨flow, hc.sessionCreate fd stack⟩
  | request i frame env c d₁ hlive hcommand hout =>
    have hown' : Owned (d.tokenise i frame) := hown.congr rfl rfl
    have hc' : Flows (d.tokenise i frame) flow := hc.congr (fun _ => ⟨rfl, rfl⟩) rfl rfl
    obtain ⟨flow₁, hc₁⟩ := outcome_flows hout hown' hlive
      (fun hstate ⟨hcmd, hm⟩ => hhello ⟨hstate, hcommand.trans (congrArg _ hcmd), hm⟩) hc'
    have hlive₁ : (d₁.sessions i).live = true := by
      rw [Session.live, (outcome_serves hout hown' hlive).fd]
      exact hlive
    split_ifs
    · exact hc₁.destroy hlive₁ env.device
    · exact ⟨flow₁, hc₁⟩
  | disconnect i env hlive => exact hc.destroy hlive env.device
  | usb buf nowMs =>
    obtain ⟨hsessions, -, -, hbridge, hslots⟩ := rtlCallback_frame buf nowMs d
    exact ⟨flow, hc.congr hslots hbridge hsessions⟩

/-- At the start nothing flows. -/
theorem flows_init (dev : Rtl.Device) (o : Rtl.Startup) (contextPackets : Bool) :
    Flows (Daemon.init dev o contextPackets) none :=
  flows_none (fun _ h => absurd (show Session.zero.live = true from h) (by decide)) (fun _ => rfl)
    rfl rfl

end

/-- In every run in which no session says an accepted `hello` while it streams, the records of a
stream agree in every state. -/
theorem stream_accounting (opts : Options) (dev : Rtl.Device) (o : Rtl.Startup)
    (contextPackets : Bool) (acts : List Action)
    (hruns : Along (step opts) (fun d a _ => ¬ HelloWhileStreaming opts d a)
      (Daemon.init dev o contextPackets) acts) :
    Always (step opts) Accounted (Daemon.init dev o contextPackets) acts := by
  have hinit := flows_init dev o contextPackets
  refine ⟨hinit.accounted, along_of_invariant (I := fun d => Owned d ∧ ∃ flow, Flows d flow)
    (fun d a d' ⟨hown, flow, hc⟩ hstep hhello => ?_) ⟨owned_init dev o contextPackets, _, hinit⟩
    hruns⟩
  obtain ⟨flow', hc'⟩ := flows_next hown hc hstep hhello
  exact ⟨⟨hown.next hstep, flow', hc'⟩, hc'.accounted⟩

/-- A `start_rx` for the first stream. -/
def startFrame : List UInt8 := requestFrame "start_rx" "\"stream_id\":\"rx-1\""

/-- A client that starts a stream. -/
def streamingClient : List Action :=
  [connect, .request 0 helloFrame (quiet 0), .request 0 openFrame (quiet 0),
    .request 0 startFrame (quiet 0)]

/-- A client that says `hello` once, opens a stream and starts it, is accounted for. -/
theorem stream_accounting_one_stream :
    ∃ d, runActs (step openAccess) started streamingClient = some d ∧ 0 ∈ streamers d ∧
      Accounted d := by
  have hrun : ((runActs (step openAccess) started streamingClient).any fun d =>
      (d.sessions 0).live && (d.sessions 0).state = .streaming) = true := by
    decide +kernel
  -- no message of a session that streams is a `hello`
  have hhello : Along (step openAccess) (fun d a _ => (match a with
      | .request i frame env => (d.sessions i).state = .streaming &&
          d.command openAccess i frame env = some (some .hello)
      | _ => false) = false) started streamingClient := by
    decide +kernel
  obtain ⟨d, hd, hstreaming⟩ := (Option.any_eq_true ..).mp hrun
  simp only [Bool.and_eq_true, decide_eq_true_eq] at hstreaming
  refine ⟨d, hd, by simpa [streamers] using hstreaming, ?_⟩
  refine (stream_accounting openAccess obedient _ true streamingClient (hhello.mono ?_)).last hd
  intro d a d' _ hcheck hbad
  cases a with
  | request i frame env => simp [hbad.1, hbad.2.1] at hcheck
  | connect | disconnect | usb => exact hbad

/-- The same client says `hello` again. Its session is idle, and still holds an active slot and
keeps the reader running. -/
theorem stream_accounting_fails :
    ∃ d, runActs (step openAccess) started
        (streamingClient ++ [.request 0 helloFrame (quiet 0)]) = some d ∧
      (d.sessions 0).state = .idle ∧ HoldsSlot d 0 0 ∧ d.bridge.streamCount = 1 ∧
      d.bridge.running = true ∧ ¬ Accounted d := by
  have hrun : ((runActs (step openAccess) started
      (streamingClient ++ [.request 0 helloFrame (quiet 0)])).any fun d =>
        (d.sessions 0).state = .idle && ((d.sessions 0).live && (d.sessions 0).vitaToken = 0 &&
          (d.vita.slots 0).active && (d.vita.slots 0).vitaStreamId = (d.sessions 0).vitaStreamId) &&
          d.bridge.streamCount = 1 && d.bridge.running) = true := by
    decide +kernel
  obtain ⟨d, hd, hchecks⟩ := (Option.any_eq_true ..).mp hrun
  simp only [Bool.and_eq_true, decide_eq_true_eq, and_assoc] at hchecks
  obtain ⟨hidle, hlive, htoken, hactive, hid, hcount, hrunning⟩ := hchecks
  have hholds : HoldsSlot d 0 0 := ⟨hlive, htoken, hactive, hid⟩
  refine ⟨d, hd, hidle, hholds, hcount, hrunning, fun hacc => ?_⟩
  have hstreaming := (hacc.streaming 0 hlive).mpr ⟨0, hholds⟩
  rw [hidle] at hstreaming
  cases hstreaming

end SlcRtld.Property
