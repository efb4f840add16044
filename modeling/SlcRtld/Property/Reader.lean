import SlcRtld.Control.Turn
import SlcRtld.Property.Accounting

/-!
# The reader thread is joined before it is replaced

`rtl_bridge_stop` gives up its mutex before it joins the reader, so that a `rtl_bridge_start` of
another session could create a second reader in between, and the join would then wait for that one.
No handler gets there: the session that waits for the reader still owns the channel, and only the
owner starts a reader. The reader's variables are settled except while a session waits (`Reads`),
and each operation on them goes from one of the two to the other.
-/

namespace SlcRtld.Property

open Libc Rtl Auth Vita Json Control Effect

/-! ## The reader's variables -/

/-- There is one reader while streams are counted, and none otherwise. -/
structure ReaderSettled (b : Bridge) : Prop where
  count : 0 ≤ b.streamCount
  running : b.running = true ↔ 1 ≤ b.streamCount
  readers : b.readers = if b.running then [b.asyncTid] else []

/-- The reader has been told to stop, and is to be joined. -/
structure ReaderCancelled (b : Bridge) : Prop where
  count : b.streamCount = 0
  running : b.running = false
  readers : b.readers = [b.asyncTid]

section
variable {b : Bridge}

/-- Without streams the reader does not run. -/
theorem ReaderSettled.stopped (h : ReaderSettled b) (hcount : b.streamCount = 0) : b.running = false :=
  Bool.eq_false_of_not_eq_true fun hrunning => by have := h.running.mp hrunning; omega

/-- The first stream starts a reader, or fails to. -/
theorem ReaderSettled.start (h : ReaderSettled b) (created : Bool) :
    ReaderSettled (rtlBridgeStart created b).2.2 := by
  have hcount := h.count
  unfold rtlBridgeStart
  by_cases hfirst : b.streamCount + 1 = 1
  · have hzero : b.streamCount = 0 := by omega
    have hreaders := h.readers
    rw [h.stopped hzero] at hreaders
    cases created with
    | true =>
      simp only [hfirst, if_true]
      exact ⟨zero_le_one, by simp, by simp [hreaders]⟩
    | false =>
      simp only [hfirst, if_true, Bool.false_eq_true, if_false]
      exact ⟨hcount, by simp [hzero], by simp [hreaders]⟩
  · simp only [hfirst, if_false]
    refine ⟨by show 0 ≤ b.streamCount + 1; omega, h.running.trans ?_, h.readers⟩
    show 1 ≤ b.streamCount ↔ 1 ≤ b.streamCount + 1
    omega

/-- A stop that does not have to join leaves the variables settled. -/
theorem ReaderSettled.stop (h : ReaderSettled b) (hjoin : (rtlBridgeStopLocked b).1 = false) :
    ReaderSettled (rtlBridgeStopLocked b).2 := by
  have hcount := h.count
  have hrunning := h.running
  unfold rtlBridgeStopLocked at hjoin ⊢
  dsimp only at hjoin ⊢
  split_ifs at hjoin ⊢ with hlast
  refine ⟨le_max_right .., hrunning.trans ?_, h.readers⟩
  show 1 ≤ b.streamCount ↔ 1 ≤ max (b.streamCount - 1) 0
  -- a running reader has another stream left
  simp only [Bool.and_eq_true, decide_eq_true_eq, not_and] at hlast
  by_cases hzero : max (b.streamCount - 1) 0 = 0
  · have := hrunning.not.mp (hlast hzero)
    omega
  · omega

/-- A stop that has to join finds one reader, the one that it cancels. -/
theorem ReaderSettled.cancel (h : ReaderSettled b) (hjoin : (rtlBridgeStopLocked b).1 = true) :
    b.readers = [b.asyncTid] ∧
      (rtlBridgeStopLocked b).2 = { b with streamCount := 0, running := false } := by
  unfold rtlBridgeStopLocked at hjoin ⊢
  dsimp only at hjoin ⊢
  split_ifs at hjoin ⊢ with hlast
  simp only [Bool.and_eq_true, decide_eq_true_eq] at hlast
  have hreaders := h.readers
  rw [hlast.2, if_pos rfl] at hreaders
  exact ⟨hreaders, by rw [hlast.1]⟩

/-- A reader that has been cancelled ends, and there is none. -/
theorem ReaderCancelled.join (h : ReaderCancelled b) :
    (pthreadJoin b).readers = [] ∧ ReaderSettled (pthreadJoin b) := by
  have hreaders : (pthreadJoin b).readers = [] := by
    show b.readers.erase b.asyncTid = []
    rw [h.readers, List.erase_cons_head]
  refine ⟨hreaders, le_of_eq h.count.symm, ?_, ?_⟩
  · show b.running = true ↔ 1 ≤ b.streamCount
    rw [h.running, h.count]
    decide
  · rw [hreaders, if_neg (by show ¬ b.running = true; rw [h.running]; decide)]

/-- What a step of the system does to the reader's variables, and to who waits for the reader. -/
inductive ReaderStep (b : Bridge) : Option SessId → Bridge → Option SessId → Prop where
  | none (w : Option SessId) : ReaderStep b w b w
  | start (created : Bool) : ReaderStep b .none (rtlBridgeStart created b).2.2 .none
  | stop (i : SessId) :
      ReaderStep b .none (rtlBridgeStopLocked b).2
        (if (rtlBridgeStopLocked b).1 then some i else .none)
  | join (i : SessId) : ReaderStep b (some i) (pthreadJoin b) .none

/-- The variables are settled, unless a session waits for the reader. -/
def Reads (b : Bridge) : Option SessId → Prop
  | none => ReaderSettled b
  | some _ => ReaderCancelled b

/-- One step of the reader's variables keeps the count of the readers. -/
theorem Reads.next {w w' : Option SessId} {b' : Bridge} (h : Reads b w)
    (hstep : ReaderStep b w b' w') : Reads b' w' := by
  cases hstep with
  | none => exact h
  | start created => exact ReaderSettled.start h created
  | stop i =>
    cases hjoin : (rtlBridgeStopLocked b).1 with
    | true =>
      obtain ⟨hreaders, hb'⟩ := ReaderSettled.cancel h hjoin
      rw [hb']
      exact ⟨rfl, rfl, hreaders⟩
    | false => exact ReaderSettled.stop h hjoin
  | join i => exact (ReaderCancelled.join h).2

/-- There is never more than one reader. -/
theorem Reads.readers_length {w : Option SessId} (h : Reads b w) : b.readers.length ≤ 1 := by
  cases w with
  | none =>
    rw [ReaderSettled.readers h]
    split <;> simp
  | some i => rw [ReaderCancelled.readers h, List.length_singleton]

end

/-! ## The threads -/

section
variable {opts : Options} {env : Env} {m : Msg} {d d' : Daemon} {P P' : Pool} {i : SessId}
  {ph ph' : SessId → Phase} {q : Phase} {w : Option SessId}

/-- The session that waits for the reader. -/
def Waits (ph : SessId → Phase) (w : Option SessId) : Prop :=
  ∀ i, (ph i).track.joining = true ↔ w = some i

/-- A step of a thread that does not change whether it waits. -/
theorem Waits.update (hw : Waits ph w) (h : q.track.joining = (ph i).track.joining) :
    Waits (Function.update ph i q) w := by
  intro j
  by_cases hji : j = i
  · subst hji
    rw [Function.update_self, h]
    exact hw j
  · rw [Function.update_of_ne hji]
    exact hw j

/-- Where no other session waits, the place of the session tells who does. -/
theorem waits_of_others (hothers : ∀ j, j ≠ i → (ph j).track.joining ≠ true) :
    Waits (Function.update ph i q) (if q.track.joining then some i else none) := by
  intro j
  by_cases hji : j = i
  · subst hji
    rw [Function.update_self]
    split <;> simp_all
  · rw [Function.update_of_ne hji]
    refine iff_of_false (hothers j hji) fun hsome => hji ?_
    split at hsome
    · exact (Option.some.inj hsome).symm
    · cases hsome

/-- When the owner of the channel goes on, nobody waits: who waits is the owner. -/
theorem Waits.none_of_opened (hw : Waits ph w) (hheld : ∀ j, d.Holds j (ph j))
    (hchannel : (ph i).channel = .opened) (hready : (ph i).Ready) : w = none := by
  cases hwaits : w with
  | none => rfl
  | some j =>
    have hjoining := (hw j).mpr hwaits
    have howner := (hheld j).owned ((hheld j).joining hjoining)
    obtain rfl : i = j := Option.some.inj (((hheld i).owned hchannel).symm.trans howner)
    exact nomatch hready.1.symm.trans hjoining

/-- An operation of a request does one of the steps. -/
theorem reader_op {β : Type} {o : Op β} {b : β} (hw : Waits ph w) (hheld : ∀ j, d.Holds j (ph j))
    (hnext : Next (ph i) β o b q) (hexec : exec opts env m i β o d = some (b, d')) :
    ∃ w', Waits (Function.update ph i q) w' ∧ ReaderStep d.bridge w d'.bridge w' := by
  -- an operation that leaves the bridge alone, and waits for nobody, is no step of the reader
  have hsame : d'.bridge = d.bridge → q.track.joining = (ph i).track.joining →
      ∃ w', Waits (Function.update ph i q) w' ∧ ReaderStep d.bridge w d'.bridge w' :=
    fun hbridge hjoining => ⟨w, hw.update hjoining, hbridge ▸ .none w⟩
  cases hnext with
  | other ho => exact hsame (exec_aside ho hexec).bridge rfl
  | claim ok =>
    have hclaim : d.rxClaim i = (ok, d') := Option.some.inj hexec
    refine hsame ?_ (by cases ok <;> rfl)
    unfold Daemon.rxClaim at hclaim
    split_ifs at hclaim
    · exact (congrArg (·.2.bridge) hclaim).symm
    · exact (congrArg (·.2.bridge) hclaim).symm
  -- no session waits while another starts the bridge, since it holds the channel
  | bridgeStart ok hchannel hready =>
    obtain rfl := hw.none_of_opened hheld hchannel hready
    cases hexec
    exact ⟨none, hw.update rfl, .start _⟩
  | bridgeStop join hchannel hready =>
    obtain rfl := hw.none_of_opened hheld hchannel hready
    cases hexec
    exact ⟨_, waits_of_others fun j _ hj => (nomatch (hw j).mp hj), .stop i⟩
  | join hjoin =>
    obtain rfl := (hw i).mp hjoin
    cases hexec
    exact ⟨none, waits_of_others fun j hji hj => hji (Option.some.inj ((hw j).mp hj)).symm, .join i⟩
  | set x b =>
    cases hexec
    exact hsame rfl (by cases x <;> rfl)
  | _ =>
    cases hexec
    exact hsame rfl rfl

/-- A move of the pool does one of the steps. -/
theorem reader_move {mv : Move} (h : InStep P ph) (hw : Waits ph w)
    (hturn : Turn opts P.daemon ph mv d' ph') :
    ∃ w', Waits ph' w' ∧ ReaderStep P.daemon.bridge w d'.bridge w' := by
  cases hturn with
  | connect fd stack =>
    refine ⟨w, hw, ?_⟩
    rcases sessionCreate_cases fd stack P.daemon with hd | ⟨k, -, hd⟩
    · rw [hd]
      exact .none w
    · rw [hd]
      exact .none w
  | receive | disconnect => exact ⟨w, hw, .none w⟩
  | go hnext hexec => exact reader_op hw h.held hnext hexec
  | finish hnext hexec hrests =>
    obtain ⟨w', hw', hstep⟩ := reader_op hw h.held hnext hexec
    refine ⟨w', ?_, hstep⟩
    have hrest := hw'.update (q := .start) (by rw [Function.update_self]; exact hrests.joining.symm)
    rwa [Function.update_idem] at hrest
  | usb buf nowMs =>
    refine ⟨w, hw, ?_⟩
    rw [(rtlCallback_frame buf nowMs P.daemon).2.2.2.1]
    exact .none w

/-- What holds of the reader in every state of the pool. -/
def OneReader (P : Pool) : Prop :=
  ∃ ph w, InStep P ph ∧ Waits ph w ∧ Reads P.daemon.bridge w

/-- At the start there is no reader. -/
theorem OneReader.init (dev : Device) (o : Startup) (contextPackets : Bool) :
    OneReader (Pool.init dev o contextPackets) := by
  refine ⟨_, none, inStep_init dev o contextPackets, fun i => ⟨nofun, nofun⟩, le_rfl, ?_, rfl⟩
  exact iff_of_false Bool.false_ne_true (by decide : ¬ (1 : ℤ) ≤ 0)

/-- A move is a step between states with that. -/
theorem OneReader.next {mv : Move} (h : OneReader P) (hmove : P.move opts mv = some P') :
    OneReader P' ∧ ∃ w w', Reads P.daemon.bridge w ∧
      ReaderStep P.daemon.bridge w P'.daemon.bridge w' ∧
      (∀ i, (P.track i).joining = true ↔ w = some i) ∧
      ∀ i, (P'.track i).joining = true ↔ w' = some i := by
  obtain ⟨ph, w, hsound, hw, hreads⟩ := h
  obtain ⟨ph', hsound', hturn⟩ := hsound.next hmove
  obtain ⟨w', hw', hstep⟩ := reader_move hsound hw hturn
  refine ⟨⟨ph', w', hsound', hw', hreads.next hstep⟩, w, w', hreads, hstep, fun i => ?_, fun i => ?_⟩
  · rw [hsound.track i]
    exact hw i
  · rw [hsound'.track i]
    exact hw' i

end

/-! ## What is promised -/

/-- What is promised of the reader in a state of the pool, and from there on. -/
structure ReaderPromise (opts : Options) (P : Pool) : Prop where
  /-- There is at most one reader. -/
  one : P.daemon.bridge.readers.length ≤ 1
  /-- The reader that a `rtl_bridge_stop` decides to stop is the one that `s_async_tid` names. -/
  decides : ∀ m P' i, P.move opts m = some P' →
    (P.track i).joining = false → (P'.track i).joining = true →
    P.daemon.bridge.readers = [P.daemon.bridge.asyncTid] ∧
      P'.daemon.bridge.readers = [P.daemon.bridge.asyncTid] ∧
      P'.daemon.bridge.asyncTid = P.daemon.bridge.asyncTid
  /-- Until it has been joined, no reader is created, and `s_async_tid` names this one. -/
  waits : ∀ ms P' i, runActs (Pool.move opts) P ms = some P' →
    Always (Pool.move opts) (fun Q => (Q.track i).joining = true) P ms →
    P'.daemon.bridge = P.daemon.bridge
  /-- The thread that is joined is this one, and none is left. -/
  joins : ∀ m P' i, P.move opts m = some P' →
    (P.track i).joining = true → (P'.track i).joining = false →
    P.daemon.bridge.readers = [P.daemon.bridge.asyncTid] ∧ P'.daemon.bridge.readers = []

section
variable {opts : Options} {P P' : Pool} {i : SessId}

/-- The thread that decides to stop the reader cancels the only one. -/
theorem OneReader.decides {m : Move} (h : OneReader P) (hmove : P.move opts m = some P')
    (hbefore : (P.track i).joining = false) (hafter : (P'.track i).joining = true) :
    P.daemon.bridge.readers = [P.daemon.bridge.asyncTid] ∧
      P'.daemon.bridge.readers = [P.daemon.bridge.asyncTid] ∧
      P'.daemon.bridge.asyncTid = P.daemon.bridge.asyncTid := by
  obtain ⟨-, w, w', hreads, hstep, hw, hw'⟩ := h.next hmove
  generalize P'.daemon.bridge = b' at hstep ⊢
  have hwaits := (hw' i).mp hafter
  cases hstep with
  | none => exact nomatch hbefore.symm.trans ((hw i).mpr hwaits)
  | start | join => cases hwaits
  | stop j =>
    split_ifs at hwaits with hjoin
    obtain ⟨hreaders, hb'⟩ := ReaderSettled.cancel hreads hjoin
    rw [hb']
    exact ⟨hreaders, hreaders, rfl⟩

/-- While a session waits, a move leaves the reader's variables alone. -/
theorem OneReader.waits {m : Move} (h : OneReader P) (hmove : P.move opts m = some P')
    (hbefore : (P.track i).joining = true) (hafter : (P'.track i).joining = true) :
    P'.daemon.bridge = P.daemon.bridge := by
  obtain ⟨-, w, w', hreads, hstep, hw, hw'⟩ := h.next hmove
  obtain rfl := (hw i).mp hbefore
  obtain rfl := (hw' i).mp hafter
  generalize P'.daemon.bridge = b' at hstep ⊢
  cases hstep
  rfl

/-- The thread that waits for the reader leaves none behind. -/
theorem OneReader.joins {m : Move} (h : OneReader P) (hmove : P.move opts m = some P')
    (hbefore : (P.track i).joining = true) (hafter : (P'.track i).joining = false) :
    P.daemon.bridge.readers = [P.daemon.bridge.asyncTid] ∧ P'.daemon.bridge.readers = [] := by
  obtain ⟨-, w, w', hreads, hstep, hw, hw'⟩ := h.next hmove
  obtain rfl := (hw i).mp hbefore
  generalize P'.daemon.bridge = b' at hstep ⊢
  cases hstep with
  | none => exact nomatch hafter.symm.trans ((hw' i).mpr rfl)
  | join => exact ⟨ReaderCancelled.readers hreads, (ReaderCancelled.join hreads).1⟩

/-- The same for as long as it waits. -/
theorem OneReader.waits_run {ms : List Move} (h : OneReader P)
    (hrun : runActs (Pool.move opts) P ms = some P')
    (hwaits : Always (Pool.move opts) (fun Q => (Q.track i).joining = true) P ms) :
    P'.daemon.bridge = P.daemon.bridge := by
  induction ms generalizing P with
  | nil =>
    obtain rfl := Option.some.inj hrun
    rfl
  | cons m ms ih =>
    rw [runActs_cons, Option.bind_eq_some_iff] at hrun
    obtain ⟨P₁, hmove, hrun⟩ := hrun
    obtain ⟨hafter, hrest⟩ := hwaits.2 P₁ hmove
    rw [ih (h.next hmove).1 hrun ⟨hafter, hrest⟩]
    exact h.waits hmove hwaits.1 hafter

/-- In any interleaving of requests and disconnects the reader thread is joined before it is
replaced. -/
theorem reader_joined_before_replaced {dev : Device} {o : Startup} {contextPackets : Bool}
    (h : Reachable (Pool.move opts) (Pool.init dev o contextPackets) P) : ReaderPromise opts P := by
  have hone : OneReader P := h.invariant (I := OneReader) (.init dev o contextPackets)
    fun _ _ _ hP hmove => (OneReader.next hP hmove).1
  obtain ⟨_, _, -, -, hreads⟩ := id hone
  exact ⟨hreads.readers_length, fun _ _ _ hmove => hone.decides hmove,
    fun _ _ _ hrun => hone.waits_run hrun, fun _ _ _ hmove => hone.joins hmove⟩

/-- A `stop_rx` of the first stream. -/
def stopFrame : List UInt8 := requestFrame "stop_rx" "\"stream_id\":\"rx-1\""

/-- The first client's `stop_rx` waits for the reader, and the second one asks for a stream. -/
theorem reader_joined_before_replaced_meanwhile :
    ∃ P, Reachable (Pool.move openAccess) (Pool.init obedient ⟨.normal, false, false, 0, 0⟩ true) P ∧
      (P.track 0).joining = true ∧ (P.threads 1).isSome ∧ P.daemon.bridge.asyncTid = 1 ∧
      ReaderPromise openAccess P := by
  have hrun : ((runActs (step openAccess) started (streamingClient ++ [connect])).any fun d =>
      (runActs (Pool.move openAccess) ⟨d, fun _ => none⟩
        (.receive 0 stopFrame :: List.replicate 15 (.turn 0 (quiet 0)) ++
          [.receive 1 openFrame])).any fun P =>
      (P.track 0).joining && (P.threads 1).isSome && P.daemon.bridge.asyncTid = 1) = true := by
    decide +kernel
  obtain ⟨d, hd, hmoves⟩ := (Option.any_eq_true ..).mp hrun
  obtain ⟨P, hP, hchecks⟩ := (Option.any_eq_true ..).mp hmoves
  simp only [Bool.and_eq_true, decide_eq_true_eq, and_assoc] at hchecks
  obtain ⟨hjoining, hbusy, htid⟩ := hchecks
  have hreach := reachable_after hd hP
  exact ⟨P, hreach, hjoining, hbusy, htid, reader_joined_before_replaced hreach⟩

end

end SlcRtld.Property
