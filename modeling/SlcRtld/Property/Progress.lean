import SlcRtld.Control.Mutexes
import Mathlib.Algebra.Order.BigOperators.Group.Finset

/-!
# Calls complete

`send_framed` takes a `send_mutex`, and `broadcast` takes `s_table_mutex` and in its loop one
`send_mutex` after the other. Nobody who holds a `send_mutex` waits for the table, so some thread
can always go on (`someone_goes_on`), and each step leaves less to do (`work_step`): whatever is
under way ends.
-/

namespace SlcRtld.Property

open Control Control.Sockets Wire Effect

/-! ## Somebody can go on -/

/-- A thread is inside a call that touches a socket or the table. -/
def busy : Point → Bool
  | .running => false
  | .finished => false
  | _ => true

/-- A step that starts no call. -/
def worksOn : Act → Bool
  | .go _ .step => true
  | .go _ (.sendLength _) => true
  | .go _ (.send _) => true
  | .go _ .fail => true
  | _ => false

/-- Only sessions are destroyed. -/
def LeaverHasSlot (S : Sockets) : Prop :=
  ∀ t, (S.task t).point = .leaving → ∃ i, (S.task t).role = .session i

section
variable {S S' : Sockets} {t : Tid} {x : Choice}

/-- One step keeps the leavers' slots. -/
theorem leaverHasSlot_step (h : LeaverHasSlot S) {a : Act} (hs : S.step a = some S') :
    LeaverHasSlot S' := by
  intro u hu
  cases a with
  | accept fd =>
    rcases step_accept hs with rfl | ⟨i, -, -, -, -, rfl⟩
    · exact h u hu
    · by_cases hborn : u = S.born
      · rw [hborn, create_task_born] at hu
        cases hu
      · rw [create_task_ne hborn] at hu ⊢
        exact h u hu
  | go t x =>
    have hd := go_did hs
    rw [hd.role]
    -- only `cp_session_destroy` leads to the leaving point, and a session's thread calls it
    by_cases hut : u = t
    · subst hut
      cases hd with
      | destroy i hrole => exact ⟨i, hrole⟩
      | hello => exact h u hu
      | call round c x S₁ stage hpoint hcall =>
        rw [goTo_point] at hu
        cases stage with
        | some => cases hu
        | none =>
          cases round with
          | none | some => cases hu
      | reply | announce | enter | pass | relay | exit | free | close =>
        rw [goTo_point] at hu
        cases hu
    · rw [hd.other hut] at hu
      exact h u hu

/-- They have them at any time. -/
theorem leaverHasSlot_reachable (h : Reachable Sockets.step Sockets.init S) : LeaverHasSlot S := by
  refine h.invariant (fun t ht => ?_) fun _ _ _ hI hs => leaverHasSlot_step hI hs
  rcases init_quiet t with hq | hq <;> rw [hq] at ht <;> cases ht

/-- Who holds a `send_mutex` waits for nobody. -/
theorem holder_goes_on {i : SessId} (h : heldAt (S.task t).point = some i) :
    ∃ a, worksOn a = true ∧ (S.step a).isSome = true := by
  obtain ⟨round, c, hpoint, -, hlock⟩ := heldAt_eq_some h
  obtain ⟨slot, fd, m, stage⟩ := c
  cases stage with
  | lock => exact absurd rfl hlock
  | length =>
    refine ⟨.go t .fail, rfl, ?_⟩
    simp [Sockets.step, go, hpoint, callStep]
  | body sent =>
    by_cases hsent : m.text.length ≤ sent
    · refine ⟨.go t .step, rfl, ?_⟩
      simp [Sockets.step, go, hpoint, callStep, hsent]
    · refine ⟨.go t .fail, rfl, ?_⟩
      simp [Sockets.step, go, hpoint, callStep, Nat.lt_of_not_le hsent]
  | unlock =>
    refine ⟨.go t .step, rfl, ?_⟩
    simp [Sockets.step, go, hpoint, callStep]

/-- Who waits for a free `send_mutex` gets it. -/
theorem lock_goes_on {round : Option Round} {c : Call} (hpoint : (S.task t).point = .calling round c)
    (hfree : (S.slots c.slot).sendMutex = none) :
    ∃ a, worksOn a = true ∧ (S.step a).isSome = true := by
  by_cases hlock : c.stage = .lock
  · refine ⟨.go t .step, rfl, ?_⟩
    simp [Sockets.step, go, hpoint, callStep, hlock, hfree]
  · refine holder_goes_on (t := t) (i := c.slot) ?_
    rw [hpoint]
    exact if_neg hlock

/-- As long as a call is under way somebody can go on with one. -/
theorem someone_goes_on (h : Reachable Sockets.step Sockets.init S)
    (hbusy : busy (S.task t).point = true) : ∃ a, worksOn a = true ∧ (S.step a).isSome = true := by
  obtain ⟨-, hL⟩ := locked_reachable h
  -- the holder of a `send_mutex`, else the thread in the loop of a broadcast, else any
  by_cases hheld : ∃ u i, heldAt (S.task u).point = some i
  · obtain ⟨u, i, hu⟩ := hheld
    exact holder_goes_on hu
  have hfree : ∀ i, (S.slots i).sendMutex = none := by
    intro i
    cases hmutex : (S.slots i).sendMutex with
    | none => rfl
    | some u => exact absurd ⟨u, i, (hL.mutex i u).mp hmutex⟩ hheld
  have hcall : ∀ {u round c}, (S.task u).point = .calling round c →
      ∃ a, worksOn a = true ∧ (S.step a).isSome = true := fun hu => lock_goes_on hu (hfree _)
  cases htable : S.tableMutex with
  | some u =>
    have hu := (hL.table u).mpr htable
    cases hpoint : (S.task u).point with
    | looping b i => exact ⟨.go u .step, rfl, by simp [Sockets.step, go, hpoint]⟩
    | calling => exact hcall hpoint
    | running | entering | leaving | closing | finished =>
      rw [hpoint] at hu
      cases hu
  | none =>
    cases hpoint : (S.task t).point with
    | calling => exact hcall hpoint
    | looping => exact ⟨.go t .step, rfl, by simp [Sockets.step, go, hpoint]⟩
    | entering => exact ⟨.go t .step, rfl, by simp [Sockets.step, go, hpoint, htable]⟩
    | closing => exact ⟨.go t .step, rfl, by simp [Sockets.step, go, hpoint]⟩
    | leaving =>
      obtain ⟨i, hi⟩ := leaverHasSlot_reachable h t hpoint
      exact ⟨.go t .step, rfl, by simp [Sockets.step, go, hpoint, htable, hi]⟩
    | running | finished =>
      rw [hpoint] at hbusy
      cases hbusy

end

/-! ## Less and less is left to do -/

/-- The steps that a call of `send_framed` may still take. -/
def callWork (c : Call) : ℕ :=
  match c.stage with
  | .lock => c.message.text.length + 4
  | .length => c.message.text.length + 3
  | .body sent => c.message.text.length - sent + 2
  | .unlock => 1

/-- The steps that the loop of a broadcast may still take from a slot on. -/
def loopWork (b : Round) (i : ℕ) : ℕ := (maxSessions - i) * (b.message.text.length + 6) + 1

/-- The steps that a thread may still take in what it is doing. -/
def pointWork : Point → ℕ
  | .running => 0
  | .calling round c => callWork c + round.elim 0 fun b => loopWork b (c.slot + 1)
  | .entering b => loopWork b 0 + 1
  | .looping b i => loopWork b i
  | .leaving => 2
  | .closing _ => 1
  | .finished => 0

/-- The steps that may still be taken. -/
def work (S : Sockets) : ℕ := ∑ t ∈ Finset.range S.born, pointWork (S.task t).point

section
variable {S S' : Sockets} {t : Tid} {x : Choice}

/-- A call always has something left to do. -/
theorem callWork_pos (c : Call) : 0 < callWork c := by
  unfold callWork
  cases c.stage with
  | lock | length | body | unlock => exact Nat.succ_pos _

/-- The way through the loop gets shorter by at least a whole call. -/
theorem loopWork_succ (b : Round) (i : SessId) :
    loopWork b (i + 1) + (b.message.text.length + 6) = loopWork b i := by
  have hi := i.isLt
  obtain ⟨k, hk⟩ : ∃ k, maxSessions - i.val = k + 1 := ⟨maxSessions - i.val - 1, by omega⟩
  have hk' : maxSessions - (i.val + 1) = k := by omega
  unfold loopWork
  rw [hk, hk', Nat.succ_mul]
  omega

/-- Each step inside `send_framed` leaves less of it. -/
theorem callWork_called {ticket : Option ℕ} {c : Call} {stage : Stage}
    (h : Called t ticket c S x S' (some stage)) : callWork { c with stage := stage } < callWork c := by
  unfold callWork
  cases h with
  | lock hstage => simp only [hstage]; omega
  | length conn hstage => simp only [hstage]; omega
  | lengthPart conn n hstage => simp only [hstage]; omega
  | body conn sent n hstage hsocket hok hpos hn => simp only [hstage]; omega
  | fail hstage => rcases hstage with hstage | ⟨sent, hstage, -⟩ <;> simp only [hstage] <;> omega

/-- Each step on a call leaves its thread less to do. -/
theorem pointWork_did (hd : Did t S x S') (hx : worksOn (.go t x) = true) :
    pointWork (S'.task t).point < pointWork (S.task t).point := by
  -- each move of a thread that is not a choice of its own brings it nearer to its end
  cases hd with
  | reply | announce | hello | destroy => cases hx
  | call round c x S₁ stage hpoint hcall =>
    rw [goTo_point, hpoint]
    cases stage with
    | some stage => exact Nat.add_lt_add_right (callWork_called hcall) _
    | none =>
      cases round with
      | none => exact Nat.lt_of_lt_of_le (callWork_pos c) (Nat.le_add_right ..)
      | some b => exact Nat.lt_add_of_pos_left (callWork_pos c)
  | enter b hpoint =>
    rw [goTo_point, hpoint]
    exact Nat.lt_succ_self _
  | pass b i hpoint =>
    rw [goTo_point, hpoint]
    have hloop := loopWork_succ b i
    show loopWork b (i + 1) < loopWork b i
    omega
  -- a frame that begins costs what its call costs, which the loop has counted
  | relay b i hpoint =>
    rw [goTo_point, hpoint]
    have hloop := loopWork_succ b i
    show b.message.text.length + 4 + loopWork b (i + 1) < loopWork b i
    omega
  | free i hrole hpoint =>
    rw [goTo_point, hpoint]
    exact Nat.lt_succ_self _
  | exit b i hpoint | close fd hpoint =>
    rw [goTo_point, hpoint]
    exact Nat.succ_pos _

/-- A step of a thread starts no other. -/
theorem born_did (hd : Did t S x S') : S'.born = S.born := by
  cases hd with
  | call round c x S₁ stage hpoint hcall => exact hcall.framed.born
  | reply | announce | hello | destroy | enter | pass | relay | exit | free | close => rfl

/-- Each step on a call leaves less to do. -/
theorem work_step (hT : Tenure S) {a : Act} (ha : worksOn a = true) (hs : S.step a = some S') :
    work S' < work S := by
  cases a with
  | accept => cases ha
  | go t x =>
    have hd := go_did hs
    have hless := pointWork_did hd ha
    -- a thread that makes a step has been born
    have hborn : t < S.born := by
      by_contra hle
      have hover := hT.unborn t (Nat.le_of_not_lt hle)
      cases hpoint : (S.task t).point with
      | finished =>
        rw [hpoint] at hless
        exact absurd hless (Nat.not_lt_zero _)
      | running | calling | entering | looping | leaving | closing =>
        rw [hpoint] at hover
        cases hover
    unfold work
    rw [born_did hd]
    refine Finset.sum_lt_sum (fun u _ => ?_) ⟨t, Finset.mem_range.mpr hborn, hless⟩
    by_cases hut : u = t
    · rw [hut]
      exact Nat.le_of_lt hless
    · rw [hd.other hut]

/-- A run of steps on calls is no longer than what there was to do. -/
theorem length_add_work_le {acts : List Act} (hI : Tenure S ∧ Locked S)
    (hacts : ∀ a ∈ acts, worksOn a = true) (hrun : runActs Sockets.step S acts = some S') :
    acts.length + work S' ≤ work S := by
  induction acts generalizing S with
  | nil =>
    rw [runActs_nil, Option.some.injEq] at hrun
    rw [hrun, List.length_nil, Nat.zero_add]
  | cons a acts ih =>
    obtain ⟨ha, hacts⟩ := List.forall_mem_cons.mp hacts
    obtain ⟨S₁, hs, hrun⟩ := Option.bind_eq_some_iff.mp hrun
    have hless := work_step hI.1 ha hs
    have hrest := ih (locked_step hI hs) hacts hrun
    rw [List.length_cons]
    omega

/-- Nothing is under way. -/
structure AtRest (S : Sockets) : Prop where
  points : ∀ t, busy (S.task t).point = false
  table : S.tableMutex = none
  mutexes : ∀ i, (S.slots i).sendMutex = none

/-- Threads that are in no call hold no mutex. -/
theorem atRest_of_points (hL : Locked S) (h : ∀ t, busy (S.task t).point = false) : AtRest S := by
  refine ⟨h, ?_, fun i => ?_⟩
  · cases htable : S.tableMutex with
    | none => rfl
    | some t =>
      have hloop := (hL.table t).mpr htable
      have hidle := h t
      cases hpoint : (S.task t).point with
      | looping | calling =>
        rw [hpoint] at hidle
        cases hidle
      | running | entering | leaving | closing | finished =>
        rw [hpoint] at hloop
        cases hloop
  · cases hmutex : (S.slots i).sendMutex with
    | none => rfl
    | some t =>
      obtain ⟨round, c, hpoint, -⟩ := heldAt_eq_some ((hL.mutex i t).mp hmutex)
      have hidle := h t
      rw [hpoint] at hidle
      cases hidle

/-- How the calls under way in a state go on. -/
structure Completes (S : Sockets) : Prop where
  /-- They are through after a number of steps that is known beforehand. -/
  bounded : ∀ acts S', (∀ a ∈ acts, worksOn a = true) → runActs Sockets.step S acts = some S' →
    acts.length ≤ work S
  /-- They do not stop before: where no step is possible any more, no call is under way and no mutex
  is held. -/
  ends : ∀ acts S', (∀ a ∈ acts, worksOn a = true) → runActs Sockets.step S acts = some S' →
    (∀ a, worksOn a = true → S'.step a = none) → AtRest S'

/-- Writers and broadcasts never block each other for good, whatever the order of their steps, and
however the kernel takes their bytes, provided that every `send` returns. -/
theorem calls_complete (h : Reachable Sockets.step Sockets.init S) : Completes S := by
  constructor
  case bounded =>
    intro acts S' hacts hrun
    exact Nat.le_of_add_right_le (length_add_work_le (locked_reachable h) hacts hrun)
  case ends =>
    intro acts S' _ hrun hstuck
    obtain ⟨before, hbefore⟩ := h
    have h' : Reachable Sockets.step Sockets.init S' :=
      ⟨before ++ acts, by rw [runActs_append, hbefore]; exact hrun⟩
    refine atRest_of_points (locked_reachable h').2 fun t => ?_
    by_contra hbusy
    rw [Bool.not_eq_false] at hbusy
    obtain ⟨a, ha, hsome⟩ := someone_goes_on h' hbusy
    rw [hstuck a ha] at hsome
    cases hsome

end

/-- One client's thread is about to answer and another announces something to all, while the USB
thread is in the middle of a broadcast. -/
def allAtOnce : List Act :=
  [.accept 3, .accept 4, .go 1 .hello, .go 2 .hello, .go 0 (.announce false emptyObject), .go 0 .step,
    .go 0 .step, .go 0 .step, .go 1 (.reply emptyObject), .go 2 (.announce true emptyObject)]

/-- The two clients' threads wait for the USB thread, and all three complete. -/
theorem calls_complete_all_at_once : ∃ S, runActs Sockets.step Sockets.init allAtOnce = some S ∧
    (S.go 1 .step).isNone = true ∧ (S.go 2 .step).isNone = true ∧ work S = 70 ∧ Completes S := by
  have hrun : (runActs Sockets.step Sockets.init allAtOnce).any (fun S =>
      (S.go 1 .step).isNone = true ∧ (S.go 2 .step).isNone = true ∧ work S = 70) = true := by
    decide +kernel
  obtain ⟨S, hS, hchecks⟩ := (Option.any_eq_true ..).mp hrun
  obtain ⟨hfirst, hsecond, hwork⟩ := of_decide_eq_true hchecks
  exact ⟨S, hS, hfirst, hsecond, hwork, calls_complete ⟨allAtOnce, hS⟩⟩

end SlcRtld.Property
