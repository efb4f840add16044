import SlcRtld.Control.Sockets

/-!
# Who holds what

Two invariants of the writers. `Tenure`: each session's thread has a slot of its own, and the
descriptors of the slots, and of the threads that are about to close one, are open and all
different; so a number that the kernel gives out again never stands for somebody else's connection.
`Locked`: each mutex is held by the thread that is where its holder should be. They hold in every
state that is reached (`locked_reachable`).
-/

namespace SlcRtld.Control.Sockets

open Wire Effect

/-! ## Threads, slots and descriptors -/

/-- How far a thread's life has come. -/
inductive Life where
  | serving
  | closing (fd : Fd)
  | ended
deriving DecidableEq

/-- The life of a thread at a point. -/
def lifeAt : Point → Life
  | .closing fd => .closing fd
  | .finished => .ended
  | _ => .serving

/-- Who holds which descriptor: a thread that serves a session has a slot of its own; the
descriptors of the slots and those about to be closed are open, and all different. -/
structure Tenure (S : Sockets) : Prop where
  unborn : ∀ t, S.born ≤ t → lifeAt (S.task t).point = .ended
  serves : ∀ t i, (S.task t).role = .session i → lifeAt (S.task t).point = .serving →
    (S.slots i).fd ≠ 0
  alone : ∀ t u i, (S.task t).role = .session i → (S.task u).role = .session i →
    lifeAt (S.task t).point = .serving → lifeAt (S.task u).point = .serving → t = u
  opened : ∀ i, (S.slots i).fd ≠ 0 → ∃ c, S.socket (S.slots i).fd = some c
  apart : ∀ i j, (S.slots i).fd ≠ 0 → (S.slots i).fd = (S.slots j).fd → i = j
  closing : ∀ t fd, lifeAt (S.task t).point = .closing fd →
    fd ≠ 0 ∧ (∃ c, S.socket fd = some c) ∧ ∀ i, (S.slots i).fd ≠ fd
  closingApart : ∀ t u fd, lifeAt (S.task t).point = .closing fd →
    lifeAt (S.task u).point = .closing fd → t = u
  conn : ∀ fd fd' c, S.socket fd = some c → S.socket fd' = some c → fd = fd'
  known : ∀ fd c, S.socket fd = some c → c < S.conns

/-- The descriptors and the lives of the threads are as before. -/
structure SameTenure (S S' : Sockets) : Prop where
  fd : ∀ i, (S'.slots i).fd = (S.slots i).fd
  socket : S'.socket = S.socket
  conns : S'.conns = S.conns
  born : S'.born = S.born
  role : ∀ t, (S'.task t).role = (S.task t).role
  life : ∀ t, lifeAt (S'.task t).point = lifeAt (S.task t).point

section
variable {S S' : Sockets} {t : Tid} {x : Choice}

/-- A step that no thread, slot or descriptor sees. -/
theorem Tenure.same (h : Tenure S) (hs : SameTenure S S') : Tenure S' where
  unborn t ht := by
    rw [hs.life]
    exact h.unborn t (hs.born ▸ ht)
  serves t i hr hl := by
    rw [hs.fd]
    exact h.serves t i (hs.role t ▸ hr) (hs.life t ▸ hl)
  alone t u i hr hr' hl hl' :=
    h.alone t u i (hs.role t ▸ hr) (hs.role u ▸ hr') (hs.life t ▸ hl) (hs.life u ▸ hl')
  opened i hi := by
    rw [hs.fd] at hi
    rw [hs.fd, hs.socket]
    exact h.opened i hi
  apart i j hi hij := by
    rw [hs.fd] at hi
    rw [hs.fd, hs.fd] at hij
    exact h.apart i j hi hij
  closing t fd hl := by
    obtain ⟨hfd, hopen, hslots⟩ := h.closing t fd (hs.life t ▸ hl)
    rw [hs.socket]
    exact ⟨hfd, hopen, fun i => hs.fd i ▸ hslots i⟩
  closingApart t u fd hl hl' := h.closingApart t u fd (hs.life t ▸ hl) (hs.life u ▸ hl')
  conn fd fd' c := by
    rw [hs.socket]
    exact h.conn fd fd' c
  known fd c hc := by
    rw [hs.conns]
    exact h.known fd c (hs.socket ▸ hc)

/-- A thread that goes on at the same stage of its life changes no tenure. -/
theorem sameTenure_goTo {S₁ : Sockets} {p : Point} (hfd : ∀ i, (S₁.slots i).fd = (S.slots i).fd)
    (hsocket : S₁.socket = S.socket) (hconns : S₁.conns = S.conns) (hborn : S₁.born = S.born)
    (htask : S₁.task = S.task) (hlife : lifeAt p = lifeAt (S.task t).point) :
    SameTenure S (S₁.goTo t p) where
  fd := hfd
  socket := hsocket
  conns := hconns
  born := hborn
  role u := by rw [goTo_role, htask]
  life u := by
    by_cases hu : u = t
    · rw [hu, goTo_point, hlife]
    · rw [goTo_task_ne hu, htask]

/-- A thread serves through every stage of `send_framed`. -/
theorem lifeAt_after (round : Option Round) (c : Call) (stage : Option Stage) :
    lifeAt (.after round c stage) = .serving := by
  cases stage with
  | some => rfl
  | none =>
    cases round with
    | none | some => rfl

/-- The steps that change a tenure are those that end one. -/
theorem tenure_cases (h : Did t S x S') :
    (∃ i, (S.task t).role = .session i ∧ (S.task t).point = .leaving ∧ S.tableMutex = none ∧
      S' = (S.setSlot i Slot.free).goTo t (.closing (S.slots i).fd)) ∨
    (∃ fd, (S.task t).point = .closing fd ∧
      S' = { S with socket := Function.update S.socket fd none }.goTo t .finished) ∨
    SameTenure S S' := by
  cases h with
  | free i hrole hpoint hfree => exact .inl ⟨i, hrole, hpoint, hfree, rfl⟩
  | close fd hpoint => exact .inr (.inl ⟨fd, hpoint, rfl⟩)
  | hello i =>
    refine .inr (.inr ⟨fun j => ?_, rfl, rfl, rfl, fun _ => rfl, fun _ => rfl⟩)
    by_cases hj : j = i
    · rw [hj, setSlot_self]
    · rw [setSlot_ne hj]
  | call round c x S₁ stage hpoint hcall =>
    have hf := hcall.framed
    exact .inr (.inr (sameTenure_goTo hf.fd hf.socket hf.conns hf.born hf.task
      (by rw [hpoint, lifeAt_after]; rfl)))
  | reply | announce | destroy | enter | pass | relay | exit =>
    exact .inr (.inr (sameTenure_goTo (fun _ => rfl) rfl rfl rfl rfl (by simp [*, lifeAt])))

section
variable {i : SessId} (h : Tenure S) (hrole : (S.task t).role = .session i)
  (hpoint : (S.task t).point = .leaving)
include h hrole hpoint

/-! The step that frees a slot: the threads that still serve are others, and so are their slots. -/

/-- A thread that still serves is another one, and so is its slot. -/
theorem Tenure.free_serves {u : Tid} {j : SessId}
    (hl : lifeAt (((S.setSlot i Slot.free).goTo t (.closing (S.slots i).fd)).task u).point = .serving)
    (hr : (S.task u).role = .session j) :
    u ≠ t ∧ lifeAt (S.task u).point = .serving ∧ j ≠ i ∧ (S.slots j).fd ≠ 0 := by
  have hut : u ≠ t := by
    rintro rfl
    rw [goTo_point] at hl
    cases hl
  rw [goTo_task_ne hut] at hl
  refine ⟨hut, hl, ?_, h.serves u j hr hl⟩
  rintro rfl
  exact hut (h.alone u t j hr hrole hl (by rw [hpoint]; rfl))

/-- The descriptor that is left over belongs to no slot and to no other thread. -/
theorem Tenure.free_closing {u : Tid} {fd : Fd}
    (hl : lifeAt (((S.setSlot i Slot.free).goTo t (.closing (S.slots i).fd)).task u).point = .closing fd) :
    fd ≠ 0 ∧ (∃ c, S.socket fd = some c) ∧ (∀ j, j ≠ i → (S.slots j).fd ≠ fd) ∧
      (fd = (S.slots i).fd → u = t) := by
  have hfd : (S.slots i).fd ≠ 0 := h.serves t i hrole (by rw [hpoint]; rfl)
  by_cases hut : u = t
  · rw [hut, goTo_point] at hl
    obtain rfl := Life.closing.inj hl
    exact ⟨hfd, h.opened i hfd, fun j hji hj => hji (h.apart i j hfd hj.symm).symm, fun _ => hut⟩
  · rw [goTo_task_ne hut] at hl
    obtain ⟨hfd', hopen, hfds⟩ := h.closing u fd hl
    exact ⟨hfd', hopen, fun j _ => hfds j, fun hsame => absurd hsame.symm (hfds i)⟩

/-- A session's thread gives its slot up, and keeps the descriptor. -/
theorem Tenure.free : Tenure ((S.setSlot i Slot.free).goTo t (.closing (S.slots i).fd)) := by
  set S' := (S.setSlot i Slot.free).goTo t (.closing (S.slots i).fd) with hS'
  have hother : ∀ u, u ≠ t → S'.task u = S.task u := fun u hu => goTo_task_ne hu
  have hroles : ∀ u, (S'.task u).role = (S.task u).role := fun u => goTo_role
  have hslots : ∀ j, j ≠ i → S'.slots j = S.slots j := fun j hj => setSlot_ne hj
  -- a slot that is taken afterwards is not the one that has been freed
  have hne : ∀ j, (S'.slots j).fd ≠ 0 → j ≠ i := by
    rintro j hj rfl
    exact hj (congrArg Slot.fd setSlot_self)
  constructor
  case unborn =>
    intro u hu
    have hut : u ≠ t := by
      rintro rfl
      have hover := h.unborn u hu
      rw [hpoint] at hover
      cases hover
    rw [hother u hut]
    exact h.unborn u hu
  case serves =>
    intro u j hr hl
    obtain ⟨-, -, hji, hfd⟩ := h.free_serves hrole hpoint hl (hroles u ▸ hr)
    rwa [hslots j hji]
  case alone =>
    intro u v j hr hr' hl hl'
    obtain ⟨-, hl, -⟩ := h.free_serves hrole hpoint hl (hroles u ▸ hr)
    obtain ⟨-, hl', -⟩ := h.free_serves hrole hpoint hl' (hroles v ▸ hr')
    exact h.alone u v j (hroles u ▸ hr) (hroles v ▸ hr') hl hl'
  case opened =>
    intro j hj
    have hji := hne j hj
    rw [hslots j hji] at hj ⊢
    exact h.opened j hj
  case apart =>
    intro j k hj hjk
    have hji := hne j hj
    have hki := hne k (hjk ▸ hj)
    rw [hslots j hji] at hj hjk
    rw [hslots k hki] at hjk
    exact h.apart j k hj hjk
  case closing =>
    intro u fd hl
    obtain ⟨hfd, hopen, hfds, -⟩ := h.free_closing hrole hpoint hl
    refine ⟨hfd, hopen, fun j hj => ?_⟩
    have hji := hne j (by rwa [hj])
    exact hfds j hji (hslots j hji ▸ hj)
  case closingApart =>
    intro u v fd hl hl'
    obtain ⟨-, -, -, hu⟩ := h.free_closing hrole hpoint hl
    obtain ⟨-, -, -, hv⟩ := h.free_closing hrole hpoint hl'
    by_cases hmine : fd = (S.slots i).fd
    · rw [hu hmine, hv hmine]
    · -- another descriptor, which two other threads would be about to close
      have hclosing : ∀ w, lifeAt (S'.task w).point = .closing fd → w ≠ t := by
        rintro w hw rfl
        rw [hS', goTo_point] at hw
        exact hmine (Life.closing.inj hw).symm
      rw [hother u (hclosing u hl)] at hl
      rw [hother v (hclosing v hl')] at hl'
      exact h.closingApart u v fd hl hl'
  case conn => exact h.conn
  case known => exact h.known

end

/-- A session's thread closes the descriptor that it kept. -/
theorem Tenure.close (h : Tenure S) {fd : Fd} (hpoint : (S.task t).point = .closing fd) :
    Tenure ({ S with socket := Function.update S.socket fd none }.goTo t .finished) := by
  have hlife : lifeAt (S.task t).point = .closing fd := by rw [hpoint]; rfl
  obtain ⟨-, -, hslots⟩ := h.closing t fd hlife
  set S' := { S with socket := Function.update S.socket fd none }.goTo t .finished with hS'
  have hself : lifeAt (S'.task t).point = .ended := by rw [hS', goTo_point]; rfl
  have hother : ∀ u, u ≠ t → S'.task u = S.task u := fun u hu => goTo_task_ne hu
  -- the threads that have not ended are others
  have hne : ∀ u, lifeAt (S'.task u).point ≠ .ended → u ≠ t := by
    rintro u hu rfl
    exact hu hself
  have hopen : ∀ fd', fd' ≠ fd → S'.socket fd' = S.socket fd' := fun fd' hfd' =>
    Function.update_of_ne hfd' ..
  -- what is still open has been open before
  have hsome : ∀ fd' c, S'.socket fd' = some c → S.socket fd' = some c := by
    intro fd' c hc
    have hfd' : fd' ≠ fd := by
      rintro rfl
      rw [hS'] at hc
      simp only [goTo_socket, Function.update_self] at hc
      cases hc
    rw [← hopen fd' hfd', hc]
  constructor
  case unborn =>
    intro u hu
    by_cases hut : u = t
    · rw [hut, hself]
    · rw [hother u hut]
      exact h.unborn u hu
  case serves =>
    intro u i hr hl
    rw [hother u (hne u (by rw [hl]; decide))] at hr hl
    exact h.serves u i hr hl
  case alone =>
    intro u v i hr hr' hl hl'
    rw [hother u (hne u (by rw [hl]; decide))] at hr hl
    rw [hother v (hne v (by rw [hl']; decide))] at hr' hl'
    exact h.alone u v i hr hr' hl hl'
  case opened =>
    intro i hi
    have hrest := hopen (S.slots i).fd (hslots i)
    exact hrest ▸ h.opened i hi
  case apart => exact h.apart
  case closing =>
    intro u fd' hl
    have hut := hne u (by rw [hl]; exact Life.noConfusion)
    rw [hother u hut] at hl
    obtain ⟨hfd', hopened, hfds⟩ := h.closing u fd' hl
    refine ⟨hfd', ?_, hfds⟩
    rw [hopen fd' (by rintro rfl; exact hut (h.closingApart u t fd' hl hlife))]
    exact hopened
  case closingApart =>
    intro u v fd' hl hl'
    rw [hother u (hne u (by rw [hl]; exact Life.noConfusion))] at hl
    rw [hother v (hne v (by rw [hl']; exact Life.noConfusion))] at hl'
    exact h.closingApart u v fd' hl hl'
  case conn =>
    intro fd' fd'' c hc hc'
    exact h.conn fd' fd'' c (hsome fd' c hc) (hsome fd'' c hc')
  case known =>
    intro fd' c hc
    exact h.known fd' c (hsome fd' c hc)

section
variable {fd : Fd} {i : SessId} (h : Tenure S) (hpos : 0 < fd) (hclosed : S.socket fd = none)
  (hfree : (S.slots i).fd = 0)

/-! The step that takes a slot: what it takes, nobody has had. -/

include hclosed in
/-- A descriptor that is open is not the new one. -/
theorem fd_ne_of_open {fd' : Fd} (hopen : ∃ c, S.socket fd' = some c) : fd' ≠ fd := by
  rintro rfl
  obtain ⟨c, hc⟩ := hopen
  rw [hclosed] at hc
  cases hc

include h hfree in
/-- The new thread is the only one that serves the slot. -/
theorem Tenure.create_alone {u : Tid} (hr : ((S.create fd i).task u).role = .session i)
    (hl : lifeAt ((S.create fd i).task u).point = .serving) : u = S.born := by
  by_contra hu
  rw [create_task_ne hu] at hr hl
  exact h.serves u i hr hl hfree

include h hclosed in
/-- The new descriptor is in no other slot. -/
theorem Tenure.create_apart {j : SessId} (hj : ((S.create fd i).slots j).fd ≠ 0)
    (hsame : ((S.create fd i).slots j).fd = fd) : j = i := by
  by_contra hji
  rw [create_slots_ne hji] at hj hsame
  exact fd_ne_of_open hclosed (h.opened j hj) hsame

include h in
/-- The new connection is on no other descriptor. -/
theorem Tenure.create_conn {fd' : Fd} (hc : (S.create fd i).socket fd' = some S.conns) : fd' = fd := by
  by_contra hfd
  rw [create_socket_ne hfd] at hc
  exact Nat.lt_irrefl _ (h.known fd' _ hc)

include h hpos hclosed hfree in
/-- A connection is given a free slot, a descriptor that is not open, and a thread. -/
theorem Tenure.create : Tenure (S.create fd i) := by
  have hborn : ∀ u, lifeAt ((S.create fd i).task u).point ≠ .serving → u ≠ S.born := by
    rintro u hu rfl
    rw [create_task_born] at hu
    exact hu rfl
  -- a thread that serves another slot has been there before
  have hold : ∀ u j, ((S.create fd i).task u).role = .session j → j ≠ i → u ≠ S.born := by
    rintro u j hr hji rfl
    rw [create_task_born] at hr
    exact hji (Role.session.inj hr).symm
  constructor
  case unborn =>
    intro u hu
    rw [create_task_ne (by rintro rfl; exact absurd hu (Nat.not_succ_le_self _))]
    exact h.unborn u (Nat.le_of_succ_le hu)
  case serves =>
    intro u j hr hl
    by_cases hji : j = i
    · rw [hji, create_fd_self]
      exact hpos.ne'
    · have hu := hold u j hr hji
      rw [create_task_ne hu] at hr hl
      rw [create_slots_ne hji]
      exact h.serves u j hr hl
  case alone =>
    intro u v j hr hr' hl hl'
    by_cases hji : j = i
    · rw [h.create_alone hfree (hji ▸ hr) hl, h.create_alone hfree (hji ▸ hr') hl']
    · have hu := hold u j hr hji
      have hv := hold v j hr' hji
      rw [create_task_ne hu] at hr hl
      rw [create_task_ne hv] at hr' hl'
      exact h.alone u v j hr hr' hl hl'
  case opened =>
    intro j hj
    by_cases hji : j = i
    · rw [hji, create_fd_self]
      exact ⟨_, create_socket_self⟩
    · rw [create_slots_ne hji] at hj ⊢
      rw [create_socket_ne (fd_ne_of_open hclosed (h.opened j hj))]
      exact h.opened j hj
  case apart =>
    intro j k hj hjk
    by_cases hnew : ((S.create fd i).slots j).fd = fd
    · have hj' := h.create_apart hclosed hj hnew
      have hk' := h.create_apart hclosed (hjk ▸ hj) (hjk ▸ hnew)
      rw [hj', hk']
    · have hji : j ≠ i := by
        rintro rfl
        exact hnew create_fd_self
      have hki : k ≠ i := by
        rintro rfl
        exact hnew (hjk.trans create_fd_self)
      rw [create_slots_ne hji] at hj hjk
      rw [create_slots_ne hki] at hjk
      exact h.apart j k hj hjk
  case closing =>
    intro u fd' hl
    rw [create_task_ne (hborn u (by rw [hl]; exact Life.noConfusion))] at hl
    obtain ⟨hfd', hopened, hfds⟩ := h.closing u fd' hl
    have hne := fd_ne_of_open hclosed hopened
    rw [create_socket_ne hne]
    refine ⟨hfd', hopened, fun j => ?_⟩
    by_cases hj : j = i
    · rw [hj, create_fd_self]
      exact hne.symm
    · rw [create_slots_ne hj]
      exact hfds j
  case closingApart =>
    intro u v fd' hl hl'
    rw [create_task_ne (hborn u (by rw [hl]; exact Life.noConfusion))] at hl
    rw [create_task_ne (hborn v (by rw [hl']; exact Life.noConfusion))] at hl'
    exact h.closingApart u v fd' hl hl'
  case conn =>
    intro fd' fd'' c hc hc'
    by_cases hnew : c = S.conns
    · subst hnew
      rw [h.create_conn hc, h.create_conn hc']
    · have hne : ∀ f, (S.create fd i).socket f = some c → f ≠ fd := by
        rintro f hf rfl
        rw [create_socket_self] at hf
        exact hnew (Option.some.inj hf).symm
      rw [create_socket_ne (hne fd' hc)] at hc
      rw [create_socket_ne (hne fd'' hc')] at hc'
      exact h.conn fd' fd'' c hc hc'
  case known =>
    intro fd' c hc
    show c < S.conns + 1
    by_cases hfd : fd' = fd
    · rw [hfd, create_socket_self] at hc
      obtain rfl := Option.some.inj hc
      exact Nat.lt_succ_self _
    · rw [create_socket_ne hfd] at hc
      exact Nat.lt_succ_of_lt (h.known fd' c hc)

end

end

/-! ## Mutexes -/

/-- A thread in the loop of a broadcast, or in a `send_framed` called from there. -/
def inLoop : Point → Bool
  | .looping _ _ => true
  | .calling (some _) _ => true
  | _ => false

/-- The slot whose `send_mutex` a thread holds. -/
def heldAt : Point → Option SessId
  | .calling _ c => if c.stage = .lock then none else some c.slot
  | _ => none

/-- A mutex is held by a thread in `send_framed`, after it has taken it. -/
theorem heldAt_eq_some {p : Point} {i : SessId} (h : heldAt p = some i) :
    ∃ round c, p = .calling round c ∧ c.slot = i ∧ c.stage ≠ .lock := by
  cases p with
  | calling round c =>
    simp only [heldAt] at h
    split_ifs at h with hstage
    exact ⟨round, c, rfl, Option.some.inj h, hstage⟩
  | running | entering | looping | leaving | closing | finished => cases h

/-- Each mutex is held by the thread that is where its holder should be, and the variables of
`send_framed` are those of the slot it was called for. -/
structure Locked (S : Sockets) : Prop where
  table : ∀ t, inLoop (S.task t).point = true ↔ S.tableMutex = some t
  call : ∀ t round c, (S.task t).point = .calling round c →
    c.fd = (S.slots c.slot).fd ∧ c.fd ≠ 0 ∧ (round = none → (S.task t).role = .session c.slot) ∧
    ∀ b, round = some b → (S.slots c.slot).greeted = true ∧ b.skip ≠ some c.slot
  mutex : ∀ i t, (S.slots i).sendMutex = some t ↔ heldAt (S.task t).point = some i

section
variable {S S' : Sockets} {t : Tid} {x : Choice}

/-- A thread is in the loop of a broadcast through every stage of `send_framed`. -/
theorem inLoop_after (round : Option Round) (c : Call) (stage : Option Stage) :
    inLoop (.after round c stage) = inLoop (.calling round c) := by
  cases stage with
  | some => cases round with
    | none | some => rfl
  | none => cases round with
    | none | some => rfl

/-- A thread that stays inside or outside of the loop. -/
theorem table_goTo (h : ∀ u, inLoop (S.task u).point = true ↔ S.tableMutex = some u) {S₁ : Sockets}
    {p : Point} (htable : S₁.tableMutex = S.tableMutex) (htask : S₁.task = S.task)
    (hp : inLoop p = inLoop (S.task t).point) (u : Tid) :
    inLoop ((S₁.goTo t p).task u).point = true ↔ (S₁.goTo t p).tableMutex = some u := by
  rw [goTo_tableMutex, htable]
  by_cases hu : u = t
  · rw [hu, goTo_point, hp]
    exact h t
  · rw [goTo_task_ne hu, htask]
    exact h u

/-- The mutex of the table is held through the loop of a broadcast, and at no other time. -/
theorem table_did (h : ∀ u, inLoop (S.task u).point = true ↔ S.tableMutex = some u)
    (hd : Did t S x S') : ∀ u, inLoop (S'.task u).point = true ↔ S'.tableMutex = some u := by
  cases hd with
  | call round c x S₁ stage hpoint hcall =>
    exact table_goTo h hcall.framed.tableMutex hcall.framed.task (by rw [inLoop_after, hpoint])
  | hello => exact h
  | enter b hpoint hfree =>
    intro u
    by_cases hu : u = t
    · rw [hu, goTo_point]
      exact ⟨fun _ => rfl, fun _ => rfl⟩
    · have hout := (h u).not
      rw [hfree] at hout
      rw [goTo_task_ne hu]
      refine ⟨fun hin => absurd hin (hout.mpr (Option.some_ne_none u).symm), fun heq => ?_⟩
      exact absurd (Option.some.inj heq).symm hu
  | exit b i hpoint =>
    have hheld : S.tableMutex = some t := (h t).mp (by rw [hpoint]; rfl)
    intro u
    by_cases hu : u = t
    · rw [hu, goTo_point]
      exact ⟨fun hin => absurd hin (by decide), fun heq => absurd heq.symm (Option.some_ne_none t)⟩
    · have hout := h u
      rw [hheld] at hout
      rw [goTo_task_ne hu]
      refine ⟨fun hin => absurd (Option.some.inj (hout.mp hin)).symm hu, fun heq => ?_⟩
      exact absurd heq.symm (Option.some_ne_none u)
  | reply | announce | destroy | pass | relay | free | close =>
    exact table_goTo h rfl rfl (by simp [*, inLoop])

/-- Nobody is in `send_framed` for a slot that is about to be freed. -/
theorem Locked.not_called (hT : Tenure S) (hL : Locked S) {i : SessId}
    (hrole : (S.task t).role = .session i) (hpoint : (S.task t).point = .leaving)
    (hfree : S.tableMutex = none) {u : Tid} {round : Option Round} {c : Call}
    (hu : (S.task u).point = .calling round c) : c.slot ≠ i := by
  rintro rfl
  obtain ⟨-, -, hown, -⟩ := hL.call u round c hu
  cases round with
  | none =>
    have hsame := hT.alone u t c.slot (hown rfl) hrole (by rw [hu]; rfl) (by rw [hpoint]; rfl)
    rw [hsame, hpoint] at hu
    cases hu
  | some b =>
    -- a broadcast holds the mutex of the table
    have hheld := (hL.table u).mp (by rw [hu]; rfl)
    rw [hfree] at hheld
    cases hheld

/-- A call of `send_framed` is for a slot that is taken and that the thread may send to. -/
theorem call_did (hT : Tenure S) (hL : Locked S) (hd : Did t S x S')
    {u : Tid} {round : Option Round} {c : Call} (hu : (S'.task u).point = .calling round c) :
    c.fd = (S'.slots c.slot).fd ∧ c.fd ≠ 0 ∧ (round = none → (S'.task u).role = .session c.slot) ∧
    ∀ b, round = some b → (S'.slots c.slot).greeted = true ∧ b.skip ≠ some c.slot := by
  -- the slot was like that before the step
  have hbefore : c.fd = (S.slots c.slot).fd ∧ c.fd ≠ 0 ∧
      (round = none → (S.task u).role = .session c.slot) ∧
      ∀ b, round = some b → (S.slots c.slot).greeted = true ∧ b.skip ≠ some c.slot := by
    by_cases hut : u = t
    · subst hut
      rcases hd.calling hu with ⟨c', hc', hslot, hfd⟩ | hnew
      · have hold := hL.call u round c' hc'
        rwa [hslot, hfd] at hold
      · exact ⟨hnew.1, hnew.2.1, hnew.2.2.1, hnew.2.2.2.1⟩
    · exact hL.call u round c (hd.other hut ▸ hu)
  obtain ⟨hfd, hpos, hown, hround⟩ := hbefore
  rw [hd.role u]
  rcases hd.slot c.slot with ⟨hsame, hgreeted⟩ | ⟨hserves, hleaving, hfree⟩
  · exact ⟨hfd.trans hsame.symm, hpos, hown, fun b hb => ⟨hgreeted (hround b hb).1, (hround b hb).2⟩⟩
  · -- the slot is freed, which nobody writes to
    have hut : u ≠ t := by
      rintro rfl
      rcases hd.calling hu with ⟨c', hc', -, -⟩ | ⟨-, -, -, -, hstay⟩
      · rw [hleaving] at hc'
        cases hc'
      · exact hstay hleaving
    have hcalling : (S.task u).point = .calling round c := hd.other hut ▸ hu
    exact absurd rfl (hL.not_called hT hserves hleaving hfree hcalling)

/-- A thread that holds the same `send_mutex` as before, or none as before. -/
theorem mutex_goTo (h : ∀ i u, (S.slots i).sendMutex = some u ↔ heldAt (S.task u).point = some i)
    {S₁ : Sockets} {p : Point} (hmutex : ∀ i, (S₁.slots i).sendMutex = (S.slots i).sendMutex)
    (htask : S₁.task = S.task) (hp : heldAt p = heldAt (S.task t).point) (i : SessId) (u : Tid) :
    ((S₁.goTo t p).slots i).sendMutex = some u ↔ heldAt ((S₁.goTo t p).task u).point = some i := by
  rw [goTo_slots, hmutex]
  by_cases hu : u = t
  · rw [hu, goTo_point, hp]
    exact h i t
  · rw [goTo_task_ne hu, htask]
    exact h i u

/-- The mutex of the slot. -/
theorem setMutex_self {i : SessId} {holder : Option Tid} :
    ((S.setMutex i holder).slots i).sendMutex = holder := by
  unfold setMutex
  rw [setSlot_self]

/-- The other slots stay. -/
theorem setMutex_ne {i j : SessId} {holder : Option Tid} (hj : j ≠ i) :
    (S.setMutex i holder).slots j = S.slots j := by
  unfold setMutex
  rw [setSlot_ne hj]

/-- A step of `send_framed` takes the mutex of the slot, keeps it, or gives it back. -/
theorem mutex_called (h : ∀ i u, (S.slots i).sendMutex = some u ↔ heldAt (S.task u).point = some i)
    {round : Option Round} {c : Call} {S₁ : Sockets} {stage : Option Stage}
    (hpoint : (S.task t).point = .calling round c)
    (hcall : Called t (round.map Round.ticket) c S x S₁ stage) (i : SessId) (u : Tid) :
    ((S₁.goTo t (.after round c stage)).slots i).sendMutex = some u ↔
      heldAt ((S₁.goTo t (.after round c stage)).task u).point = some i := by
  cases hcall with
  -- the mutex is free and is taken
  | lock hstage hfree =>
    have hnot : heldAt (S.task t).point = none := by rw [hpoint]; exact if_pos hstage
    rw [goTo_slots]
    by_cases hu : u = t
    · subst hu
      rw [goTo_point]
      have hheld : heldAt (.after round c (some .length)) = some c.slot := rfl
      rw [hheld]
      by_cases hi : i = c.slot
      · rw [hi, setMutex_self]
        exact ⟨fun _ => rfl, fun _ => rfl⟩
      · rw [setMutex_ne hi, h i u, hnot]
        exact ⟨fun hno => absurd hno.symm (Option.some_ne_none i),
          fun hno => absurd (Option.some.inj hno).symm hi⟩
    · rw [goTo_task_ne hu]
      show _ ↔ heldAt (S.task u).point = some i
      rw [← h i u]
      by_cases hi : i = c.slot
      · rw [hi, setMutex_self, hfree]
        exact ⟨fun hno => absurd (Option.some.inj hno).symm hu,
          fun hno => absurd hno.symm (Option.some_ne_none u)⟩
      · rw [setMutex_ne hi]
  -- the thread has the mutex and gives it back
  | release hstage =>
    have hheld : heldAt (S.task t).point = some c.slot := by
      rw [hpoint]
      refine if_neg ?_
      rcases hstage with hstage | ⟨sent, hstage, -⟩ <;> rw [hstage] <;> exact Stage.noConfusion
    have hafter : heldAt (.after round c none) = none := by
      cases round with
      | none | some => rfl
    rw [goTo_slots]
    by_cases hu : u = t
    · subst hu
      rw [goTo_point, hafter]
      by_cases hi : i = c.slot
      · rw [hi, setMutex_self]
        exact ⟨fun hno => absurd hno.symm (Option.some_ne_none u),
          fun hno => absurd hno.symm (Option.some_ne_none _)⟩
      · rw [setMutex_ne hi, h i u, hheld]
        exact ⟨fun hno => absurd (Option.some.inj hno).symm hi,
          fun hno => absurd hno.symm (Option.some_ne_none i)⟩
    · rw [goTo_task_ne hu]
      show _ ↔ heldAt (S.task u).point = some i
      rw [← h i u]
      by_cases hi : i = c.slot
      · rw [hi, setMutex_self, (h c.slot t).mpr hheld]
        exact ⟨fun hno => absurd hno.symm (Option.some_ne_none u),
          fun hno => absurd (Option.some.inj hno).symm hu⟩
      · rw [setMutex_ne hi]
  -- in between the thread keeps it
  | length conn hstage | lengthPart conn n hstage | body conn sent n hstage =>
    exact mutex_goTo h (fun _ => rfl) rfl (by simp [hpoint, heldAt, Point.after, hstage]) i u
  | fail hstage =>
    refine mutex_goTo h (fun j => ?_) ?_ ?_ i u
    · cases S.socket c.fd with
      | none | some => rfl
    · cases S.socket c.fd with
      | none | some => rfl
    · rcases hstage with hstage | ⟨sent, hstage, -⟩ <;>
        simp [hpoint, heldAt, Point.after, hstage]

/-- The mutex of a slot is held by the thread that is in `send_framed` for it. -/
theorem mutex_did (hT : Tenure S) (hL : Locked S) (hd : Did t S x S') (i : SessId) (u : Tid) :
    (S'.slots i).sendMutex = some u ↔ heldAt (S'.task u).point = some i := by
  cases hd with
  | call round c x S₁ stage hpoint hcall => exact mutex_called hL.mutex hpoint hcall i u
  | hello j =>
    show _ ↔ heldAt (S.task u).point = some i
    rw [← hL.mutex i u]
    by_cases hi : i = j
    · rw [hi, setSlot_self]
    · rw [setSlot_ne hi]
  | free j hrole hpoint hfree =>
    by_cases hi : i = j
    · subst hi
      -- the slot's mutex is free, and stays so
      refine ⟨fun hno => ?_, fun hheld => ?_⟩
      · rw [goTo_slots, setSlot_self] at hno
        cases hno
      · have hut : u ≠ t := by
          rintro rfl
          rw [goTo_point] at hheld
          cases hheld
        rw [goTo_task_ne hut] at hheld
        obtain ⟨round, c, hc, hslot, -⟩ := heldAt_eq_some hheld
        exact absurd hslot (hL.not_called hT hrole hpoint hfree hc)
    · rw [goTo_slots, setSlot_ne hi, hL.mutex i u]
      by_cases hut : u = t
      · rw [hut, goTo_point, hpoint]
        exact Iff.rfl
      · rw [goTo_task_ne hut]
        exact Iff.rfl
  | reply | announce | destroy | enter | pass | relay | exit | close =>
    exact mutex_goTo hL.mutex (fun _ => rfl) rfl (by simp [*, heldAt]) i u

/-- One step keeps the mutexes. -/
theorem Locked.did (hT : Tenure S) (hL : Locked S) (hd : Did t S x S') : Locked S' where
  table := table_did hL.table hd
  call _ _ _ hu := call_did hT hL hd hu
  mutex := mutex_did hT hL hd

/-- One step keeps the threads, slots and descriptors. -/
theorem Tenure.did (hT : Tenure S) (hd : Did t S x S') : Tenure S' := by
  rcases tenure_cases hd with ⟨i, hrole, hpoint, -, rfl⟩ | ⟨fd, hpoint, rfl⟩ | hsame
  · exact hT.free hrole hpoint
  · exact hT.close hpoint
  · exact hT.same hsame

/-- A new connection takes no mutex. -/
theorem Locked.create (hT : Tenure S) (hL : Locked S) {fd : Fd} {i : SessId}
    (hfree : (S.slots i).fd = 0) : Locked (S.create fd i) := by
  have hborn : (S.task S.born).point = .finished := by
    have hover := hT.unborn S.born (Nat.le_refl _)
    cases hpoint : (S.task S.born).point with
    | finished => rfl
    | running | calling | entering | looping | leaving | closing =>
      rw [hpoint] at hover
      cases hover
  -- nobody is in `send_framed` for a free slot
  have hnot : ∀ u round c, (S.task u).point = .calling round c → c.slot ≠ i := by
    rintro u round c hu rfl
    obtain ⟨hfd, hpos, -⟩ := hL.call u round c hu
    exact hpos (hfd.trans hfree)
  constructor
  case table =>
    intro u
    show _ ↔ S.tableMutex = some u
    rw [← hL.table u]
    by_cases hu : u = S.born
    · rw [hu, create_task_born, hborn]
      exact Iff.rfl
    · rw [create_task_ne hu]
  case call =>
    intro u round c hu
    have hut : u ≠ S.born := by
      rintro rfl
      rw [create_task_born] at hu
      cases hu
    rw [create_task_ne hut] at hu ⊢
    rw [create_slots_ne (hnot u round c hu)]
    exact hL.call u round c hu
  case mutex =>
    intro j u
    by_cases hj : j = i
    · have hmutex : ((S.create fd i).slots i).sendMutex = none :=
        congrArg Slot.sendMutex (setSlot_self (s := ⟨fd, false, none⟩))
      rw [hj, hmutex]
      refine ⟨fun hno => absurd hno.symm (Option.some_ne_none u), fun hheld => ?_⟩
      have hut : u ≠ S.born := by
        rintro rfl
        rw [create_task_born] at hheld
        cases hheld
      rw [create_task_ne hut] at hheld
      obtain ⟨round, c, hc, hslot, -⟩ := heldAt_eq_some hheld
      exact absurd hslot (hnot u round c hc)
    · rw [create_slots_ne hj, hL.mutex j u]
      by_cases hu : u = S.born
      · rw [hu, create_task_born, hborn]
        exact Iff.rfl
      · rw [create_task_ne hu]

end

/-! ## Every run -/

section
variable {S S' : Sockets}

/-- At the start there is the thread of the receiver, and no other. -/
theorem init_task {t : Tid} (ht : t ≠ 0) : Sockets.init.task t = ⟨.usb, .finished⟩ := by
  have htask := Function.update_of_ne ht ⟨.usb, .running⟩
    (fun _ : Tid => (⟨.usb, .finished⟩ : Task))
  exact htask

/-- At the start nobody has a slot or a descriptor. -/
theorem tenure_init : Tenure Sockets.init := by
  have hover : ∀ t, t ≠ 0 → Sockets.init.task t = ⟨.usb, .finished⟩ := fun t ht => init_task ht
  have hrole : ∀ t i, (Sockets.init.task t).role ≠ .session i := by
    intro t i hr
    by_cases ht : t = 0
    · rw [ht] at hr
      cases hr
    · rw [hover t ht] at hr
      cases hr
  have hclosing : ∀ t fd, lifeAt (Sockets.init.task t).point ≠ .closing fd := by
    intro t fd hl
    by_cases ht : t = 0
    · rw [ht] at hl
      cases hl
    · rw [hover t ht] at hl
      cases hl
  constructor
  case unborn =>
    intro t ht
    rw [hover t (Nat.ne_of_gt ht)]
    rfl
  case serves => exact fun t i hr => absurd hr (hrole t i)
  case alone => exact fun t _ i hr => absurd hr (hrole t i)
  case opened => exact fun i hi => absurd rfl hi
  case apart => exact fun i _ hi => absurd rfl hi
  case closing => exact fun t fd hl => absurd hl (hclosing t fd)
  case closingApart => exact fun t _ fd hl => absurd hl (hclosing t fd)
  case conn => exact fun _ _ _ hc => absurd hc.symm (Option.some_ne_none _)
  case known => exact fun _ _ hc => absurd hc.symm (Option.some_ne_none _)

/-- At the start no thread is on its way. -/
theorem init_quiet (t : Tid) :
    (Sockets.init.task t).point = .running ∨ (Sockets.init.task t).point = .finished := by
  by_cases ht : t = 0
  · rw [ht]
    exact .inl rfl
  · rw [init_task ht]
    exact .inr rfl

/-- At the start nobody holds a mutex. -/
theorem locked_init : Locked Sockets.init := by
  constructor
  case table =>
    intro t
    rcases init_quiet t with h | h <;> rw [h] <;>
      exact ⟨fun hno => absurd hno (by decide), fun hno => absurd hno.symm (Option.some_ne_none t)⟩
  case call =>
    intro t round c hc
    rcases init_quiet t with h | h <;> rw [h] at hc <;> cases hc
  case mutex =>
    intro i t
    rcases init_quiet t with h | h <;> rw [h] <;>
      exact ⟨fun hno => absurd hno.symm (Option.some_ne_none t),
        fun hno => absurd hno.symm (Option.some_ne_none i)⟩

/-- A connection that finds a slot, or none. -/
theorem step_accept {fd : Fd} (h : S.step (.accept fd) = some S') :
    S' = S ∨ ∃ i, 0 < fd ∧ S.socket fd = none ∧ S.tableMutex = none ∧ (S.slots i).fd = 0 ∧
      S' = S.create fd i := by
  obtain ⟨⟨hpos, hclosed, hfree⟩, h⟩ := Option.ite_none_right_eq_some.mp h
  obtain rfl := Option.some.inj h
  cases hfind : (List.finRange maxSessions).find? fun i => (S.slots i).fd = 0 with
  | none => exact .inl rfl
  | some i =>
    have hi : (S.slots i).fd = 0 := by simpa using List.find?_some hfind
    exact .inr ⟨i, hpos, hclosed, hfree, hi, rfl⟩

/-- Tenure and mutexes are in order in every state that is reached. -/
theorem locked_step (h : Tenure S ∧ Locked S) {a : Act} (hs : S.step a = some S') :
    Tenure S' ∧ Locked S' := by
  cases a with
  | accept fd =>
    rcases step_accept hs with rfl | ⟨i, hpos, hclosed, -, hfree, rfl⟩
    · exact h
    · exact ⟨h.1.create hpos hclosed hfree, h.2.create h.1 hfree⟩
  | go t x =>
    have hd := go_did hs
    exact ⟨h.1.did hd, h.2.did h.1 hd⟩

/-- Both hold at any time. -/
theorem locked_reachable (h : Reachable Sockets.step Sockets.init S) : Tenure S ∧ Locked S :=
  h.invariant ⟨tenure_init, locked_init⟩ fun _ _ _ hI hs => locked_step hI hs

end

end SlcRtld.Control.Sockets
