import SlcRtld.Control.Mutexes

/-!
# Whom a broadcast reaches

`broadcast` goes through the session table under `s_table_mutex`, while the sessions go on answering
their own clients and others wait to announce something themselves. `Ticketed` says what the frames
begun so far have to do with the broadcasts under way; from it, a broadcast begins no second frame
on a connection. `Telling` follows one broadcast from the head of its loop to its end
(`broadcast_exactly_once`).
-/

namespace SlcRtld.Property

open Control Control.Sockets Wire Effect

/-- The broadcast that a thread is in. -/
def roundAt : Point → Option Round
  | .entering b => some b
  | .looping b _ => some b
  | .calling round _ => round
  | _ => none

/-- The loop of a broadcast is past a slot, or has tried to begin a frame for it. -/
def Passed : Point → SessId → Prop
  | .looping _ i, j => j.val < i
  | .calling _ c, j => j < c.slot ∨ j = c.slot ∧ c.stage ≠ .lock ∧ c.stage ≠ .length
  | _, _ => False

/-- A broadcast has begun frames only for slots that its loop is past, none of them twice. -/
structure Ticketed (S : Sockets) : Prop where
  issued : ∀ e ∈ S.begun, ∀ k, e.ticket = some k → k < S.tickets
  mine : ∀ t b, roundAt (S.task t).point = some b → b.ticket < S.tickets
  differ : ∀ t u b b', roundAt (S.task t).point = some b → roundAt (S.task u).point = some b' →
    b.ticket = b'.ticket → t = u
  carries : ∀ t b c, (S.task t).point = .calling (some b) c → c.message = b.message
  passed : ∀ t b, roundAt (S.task t).point = some b → ∀ e ∈ S.begun, e.ticket = some b.ticket →
    ∃ j, Passed (S.task t).point j ∧ (S.slots j).fd ≠ 0 ∧ S.socket (S.slots j).fd = some e.conn
  once : ∀ k c, (S.begun.filter fun e => e.ticket = some k ∧ e.conn = c).length ≤ 1

section
variable {S S' : Sockets} {t : Tid} {x : Choice}

/-- A broadcast that has passed a slot is in its loop. -/
theorem inLoop_of_passed {p : Point} {b : Round} {j : SessId} (hround : roundAt p = some b)
    (hpassed : Passed p j) : inLoop p = true := by
  cases p with
  | looping => rfl
  | calling round c =>
    obtain rfl : round = some b := hround
    rfl
  | running | entering | leaving | closing | finished => exact absurd hpassed id

/-- The descriptor of a slot stays open through every step of a thread. -/
theorem socket_kept (hT : Tenure S) (hd : Did t S x S') (j : SessId) :
    S'.socket (S.slots j).fd = S.socket (S.slots j).fd := by
  cases hd with
  | call round c x S₁ stage hpoint hcall => rw [goTo_socket, hcall.framed.socket]
  | close fd hpoint =>
    obtain ⟨-, -, hslots⟩ := hT.closing t fd (by rw [hpoint]; rfl)
    exact Function.update_of_ne (hslots j) ..
  | reply | announce | hello | destroy | enter | pass | relay | exit | free => rfl

/-- While some thread is in the loop of a broadcast, no slot changes hands. -/
theorem slot_kept (hL : Locked S) (hd : Did t S x S') {u : Tid}
    (hu : inLoop (S.task u).point = true) (j : SessId) :
    (S'.slots j).fd = (S.slots j).fd ∧
      ((S.slots j).greeted = true → (S'.slots j).greeted = true) := by
  rcases hd.slot j with hsame | ⟨-, -, hfree⟩
  · exact hsame
  · have hheld := (hL.table u).mp hu
    rw [hfree] at hheld
    exact absurd hheld.symm (Option.some_ne_none u)

/-- A step that begins no frame, in which a thread goes on in its broadcast or leaves it. -/
theorem Ticketed.same (hT : Tenure S) (hL : Locked S) (h : Ticketed S) (hd : Did t S x S')
    (hbegun : S'.begun = S.begun) (htickets : S'.tickets = S.tickets)
    (hround : ∀ b, roundAt (S'.task t).point = some b → roundAt (S.task t).point = some b)
    (hcarries : ∀ b c, (S'.task t).point = .calling (some b) c → c.message = b.message)
    (hpassed : ∀ b j, roundAt (S'.task t).point = some b → Passed (S.task t).point j →
      Passed (S'.task t).point j) : Ticketed S' := by
  -- only the thread that moves can leave its broadcast, and nobody joins one
  have hback : ∀ u b, roundAt (S'.task u).point = some b → roundAt (S.task u).point = some b := by
    intro u b hu
    by_cases hut : u = t
    · subst hut
      exact hround b hu
    · rwa [hd.other hut] at hu
  constructor
  case issued =>
    rw [hbegun, htickets]
    exact h.issued
  case mine =>
    intro u b hu
    rw [htickets]
    exact h.mine u b (hback u b hu)
  case differ =>
    intro u v b b' hu hv
    exact h.differ u v b b' (hback u b hu) (hback v b' hv)
  case carries =>
    intro u b c hu
    by_cases hut : u = t
    · subst hut
      exact hcarries b c hu
    · rw [hd.other hut] at hu
      exact h.carries u b c hu
  -- the slots do not change hands while a loop runs over them
  case passed =>
    intro u b hu e he hticket
    obtain ⟨j, hj, hfd, hconn⟩ := h.passed u b (hback u b hu) e (hbegun ▸ he) hticket
    have hsame := (slot_kept hL hd (inLoop_of_passed (hback u b hu) hj) j).1
    refine ⟨j, ?_, by rwa [hsame], by rw [hsame, socket_kept hT hd, hconn]⟩
    by_cases hut : u = t
    · subst hut
      exact hpassed b j hu hj
    · rwa [hd.other hut]
  case once =>
    rw [hbegun]
    exact h.once

/-- A thread that has nothing to do with a broadcast after its step. -/
theorem Ticketed.idle (hT : Tenure S) (hL : Locked S) (h : Ticketed S) (hd : Did t S x S')
    (hbegun : S'.begun = S.begun) (htickets : S'.tickets = S.tickets)
    (hround : roundAt (S'.task t).point = none) : Ticketed S' := by
  have hno : ∀ b, roundAt (S'.task t).point ≠ some b := by
    intro b hb
    rw [hround] at hb
    exact absurd hb.symm (Option.some_ne_none b)
  refine h.same hT hL hd hbegun htickets (fun b hb => absurd hb (hno b)) (fun b c hc => ?_)
    (fun b j hb => absurd hb (hno b))
  exact absurd (by rw [hc]; rfl) (hno b)

/-- What occurs at most once still does after something is added that has not occurred. -/
theorem filter_concat_le_one {α : Type} {p : α → Bool} {l : List α} {a : α}
    (hl : (l.filter p).length ≤ 1) (ha : p a = true → ∀ e ∈ l, p e = false) :
    ((l ++ [a]).filter p).length ≤ 1 := by
  rw [List.filter_append, List.length_append]
  cases hp : p a with
  | false => rwa [List.filter_cons_of_neg (by rw [hp]; exact Bool.false_ne_true), List.filter_nil]
  | true =>
    have hnone : l.filter p = [] := List.filter_eq_nil_iff.mpr fun e he => by simp [ha hp e he]
    rw [hnone, List.length_nil, Nat.zero_add]
    exact List.length_filter_le ..

section
variable {round : Option Round} {c : Call} {conn : Conn}
  (hpoint : (S.task t).point = .calling round c) (hstage : c.stage = .length)
include hpoint hstage

/-! The kernel takes the length of a frame: a thread's broadcast begins one at the slot that it is
at, and has begun one at no other slot but those behind it. -/

/-- The slots that the broadcast has passed are those before the one that it is at. -/
theorem passed_at_length {j : SessId} (hj : Passed (S.task t).point j) : j < c.slot := by
  rw [hpoint] at hj
  rcases hj with hlt | ⟨-, -, hno⟩
  · exact hlt
  · exact absurd hstage hno

/-- The frames that this broadcast has begun went to other connections. -/
theorem Ticketed.fresh (hT : Tenure S) (hL : Locked S) (h : Ticketed S)
    (hsocket : S.socket c.fd = some conn) {b : Round} (hb : round = some b) {e : Begun}
    (he : e ∈ S.begun) (hticket : e.ticket = some b.ticket) : e.conn ≠ conn := by
  rintro rfl
  obtain ⟨hfd, -⟩ := hL.call t round c hpoint
  obtain ⟨j, hj, hfdj, hconn⟩ := h.passed t b (by rw [hpoint]; exact hb) e he hticket
  -- two slots would have the same connection
  rw [hfd] at hsocket
  exact Fin.ne_of_lt (passed_at_length hpoint hstage hj)
    (hT.apart j c.slot hfdj (hT.conn _ _ _ hconn hsocket))

/-- The new frame is the first of this broadcast for its connection, and is counted once. -/
theorem Ticketed.length (hT : Tenure S) (hL : Locked S) (h : Ticketed S)
    (hsocket : S.socket c.fd = some conn) :
    Ticketed ((S.beginFrame conn c.message (round.map Round.ticket)).goTo t
      (.after round c (some (.body 0)))) := by
  obtain ⟨hfd, hpos, -⟩ := hL.call t round c hpoint
  have hround : roundAt (S.task t).point = round := by rw [hpoint]; rfl
  set S' := (S.beginFrame conn c.message (round.map Round.ticket)).goTo t
    (.after round c (some (.body 0))) with hS'
  have hbegun : S'.begun = S.begun ++ [⟨conn, c.message, round.map Round.ticket⟩] := rfl
  have hother : ∀ u, u ≠ t → S'.task u = S.task u := fun u hu => goTo_task_ne hu
  have hself : (S'.task t).point = .calling round { c with stage := .body 0 } := goTo_point
  -- a thread that has written the length is in the broadcast it was in
  have hback : ∀ u, roundAt (S'.task u).point = roundAt (S.task u).point := by
    intro u
    by_cases hut : u = t
    · rw [hut, hself, hround]
      rfl
    · rw [hother u hut]
  constructor
  case issued =>
    intro e he k hk
    rw [hbegun, List.mem_append, List.mem_singleton] at he
    rcases he with he | rfl
    · exact h.issued e he k hk
    · obtain ⟨b, hb, rfl⟩ := Option.map_eq_some_iff.mp hk
      exact h.mine t b (hround.trans hb)
  case mine =>
    intro u b hu
    exact h.mine u b (hback u ▸ hu)
  case differ =>
    intro u v b b' hu hv
    exact h.differ u v b b' (hback u ▸ hu) (hback v ▸ hv)
  case carries =>
    intro u b c' hu
    by_cases hut : u = t
    · rw [hut, hself] at hu
      obtain ⟨rfl, rfl⟩ := Point.calling.inj hu
      exact h.carries t b c hpoint
    · rw [hother u hut] at hu
      exact h.carries u b c' hu
  case passed =>
    intro u b hu e he hticket
    rw [hback] at hu
    rw [hbegun, List.mem_append, List.mem_singleton] at he
    rcases he with he | rfl
    · obtain ⟨j, hj, hfdj, hconn⟩ := h.passed u b hu e he hticket
      refine ⟨j, ?_, hfdj, hconn⟩
      by_cases hut : u = t
      · subst hut
        rw [hself]
        exact .inl (passed_at_length hpoint hstage hj)
      · rwa [hother u hut]
    · -- the new frame belongs to the thread's own broadcast, and the slot has now been passed
      obtain ⟨b', hb', hsame⟩ := Option.map_eq_some_iff.mp hticket
      obtain rfl := h.differ t u b' b (hround.trans hb') hu hsame
      refine ⟨c.slot, ?_, fun hzero => hpos (hfd.trans hzero),
        (congrArg S.socket hfd).symm.trans hsocket⟩
      rw [hself]
      exact .inr ⟨rfl, Stage.noConfusion, Stage.noConfusion⟩
  -- a second frame of one broadcast for one connection would have passed its slot already
  case once =>
    intro k c'
    rw [hbegun]
    refine filter_concat_le_one (h.once k c') fun hnew e he => decide_eq_false ?_
    obtain ⟨hk, rfl⟩ := of_decide_eq_true hnew
    obtain ⟨b, hb, rfl⟩ := Option.map_eq_some_iff.mp hk
    rintro ⟨hticket, hconn⟩
    exact h.fresh hpoint hstage hT hL hsocket hb he hticket hconn

end

/-- A step inside `send_framed`. -/
theorem Ticketed.called (hT : Tenure S) (hL : Locked S) (h : Ticketed S) {round : Option Round}
    {c : Call} {S₁ : Sockets} {stage : Option Stage} (hpoint : (S.task t).point = .calling round c)
    (hcall : Called t (round.map Round.ticket) c S x S₁ stage) :
    Ticketed (S₁.goTo t (.after round c stage)) := by
  have hd : Did t S x (S₁.goTo t (.after round c stage)) := .call round c x S₁ stage hpoint hcall
  have hround : roundAt (S.task t).point = round := by rw [hpoint]; rfl
  -- at any other stage the thread stays with its slot
  have hstay : ∀ {S₁ : Sockets} {s : Stage}, Did t S x (S₁.goTo t (.after round c (some s))) →
      S₁.begun = S.begun → S₁.tickets = S.tickets →
      (c.stage = .lock ∨ s ≠ .lock ∧ s ≠ .length) →
      Ticketed (S₁.goTo t (.after round c (some s))) := by
    intro S₁ s hd hbegun htickets hc
    refine h.same hT hL hd hbegun htickets ?_ ?_ ?_
    · intro b hb
      rw [goTo_point] at hb
      rw [hround]
      exact hb
    · intro b c' hc'
      rw [goTo_point] at hc'
      obtain ⟨rfl, rfl⟩ := Point.calling.inj hc'
      exact h.carries t b c hpoint
    · intro b j _ hj
      rw [hpoint] at hj
      rw [goTo_point]
      rcases hj with hlt | ⟨rfl, hno, -⟩
      · exact .inl hlt
      · rcases hc with hc | hc
        · exact absurd hc hno
        · exact .inr ⟨rfl, hc⟩
  have hlate : Stage.unlock ≠ .lock ∧ Stage.unlock ≠ .length :=
    ⟨Stage.noConfusion, Stage.noConfusion⟩
  cases hcall with
  | lock hstage hfree => exact hstay hd rfl rfl (.inl hstage)
  | length conn hstage hsocket hok => exact h.length hpoint hstage hT hL hsocket
  | lengthPart => exact hstay hd rfl rfl (.inr hlate)
  | body conn sent n =>
    exact hstay hd rfl rfl (.inr ⟨Stage.noConfusion, Stage.noConfusion⟩)
  | fail =>
    cases hsocket : S.socket c.fd with
    | none =>
      rw [hsocket] at hd
      exact hstay hd rfl rfl (.inr hlate)
    | some conn =>
      rw [hsocket] at hd
      exact hstay hd rfl rfl (.inr hlate)
  | release hstage =>
    cases round with
    | none => exact h.idle hT hL hd rfl rfl (by rw [goTo_point]; rfl)
    | some b =>
      refine h.same hT hL hd rfl rfl ?_ ?_ ?_
      · intro b' hb'
        rw [goTo_point] at hb'
        rw [hround]
        exact hb'
      · intro b' c' hc'
        rw [goTo_point] at hc'
        cases hc'
      · intro b' j _ hj
        rw [hpoint] at hj
        rw [goTo_point]
        rcases hj with hlt | ⟨rfl, -⟩
        · exact Nat.lt_succ_of_lt hlt
        · exact Nat.lt_succ_self _

/-- A new broadcast has a ticket of its own. -/
theorem Ticketed.announce (h : Ticketed S) {b : Round} (hpoint : (S.task t).point = .running)
    (hticket : b.ticket = S.tickets) :
    Ticketed ({ S with tickets := S.tickets + 1 }.goTo t (.entering b)) := by
  set S' := ({ S with tickets := S.tickets + 1 } : Sockets).goTo t (.entering b) with hS'
  have hother : ∀ u, u ≠ t → S'.task u = S.task u := fun u hu => goTo_task_ne hu
  have hself : (S'.task t).point = .entering b := goTo_point
  -- only the thread itself has the new broadcast
  have hnew : ∀ u b', roundAt (S'.task u).point = some b' →
      u = t ∧ b' = b ∨ u ≠ t ∧ roundAt (S.task u).point = some b' := by
    intro u b' hu
    by_cases hut : u = t
    · rw [hut, hself] at hu
      exact .inl ⟨hut, (Option.some.inj hu).symm⟩
    · rw [hother u hut] at hu
      exact .inr ⟨hut, hu⟩
  constructor
  case issued => exact fun e he k hk => Nat.lt_succ_of_lt (h.issued e he k hk)
  case mine =>
    intro u b' hu
    rcases hnew u b' hu with ⟨-, rfl⟩ | ⟨-, hu⟩
    · rw [hticket]
      exact Nat.lt_succ_self _
    · exact Nat.lt_succ_of_lt (h.mine u b' hu)
  case differ =>
    intro u v b₁ b₂ hu hv hsame
    rcases hnew u b₁ hu with ⟨hut, hb₁⟩ | ⟨-, hu'⟩ <;> rcases hnew v b₂ hv with ⟨hvt, hb₂⟩ | ⟨-, hv'⟩
    · rw [hut, hvt]
    · rw [hb₁, hticket] at hsame
      exact absurd hsame.symm (Nat.ne_of_lt (h.mine v b₂ hv'))
    · rw [hb₂, hticket] at hsame
      exact absurd hsame (Nat.ne_of_lt (h.mine u b₁ hu'))
    · exact h.differ u v b₁ b₂ hu' hv' hsame
  case carries =>
    intro u b' c hu
    by_cases hut : u = t
    · rw [hut, hself] at hu
      cases hu
    · rw [hother u hut] at hu
      exact h.carries u b' c hu
  -- nothing has been begun with a ticket that has just been issued
  case passed =>
    intro u b' hu e he hk
    rcases hnew u b' hu with ⟨rfl, rfl⟩ | ⟨hut, hu⟩
    · exact absurd hticket (Nat.ne_of_lt (h.issued e he _ hk))
    · rw [hother u hut]
      exact h.passed u b' hu e he hk
  case once => exact h.once

/-- One step keeps the count. -/
theorem Ticketed.did (hT : Tenure S) (hL : Locked S) (h : Ticketed S) (hd : Did t S x S') :
    Ticketed S' := by
  have hd' := hd
  cases hd with
  | announce skipSelf b hpoint hticket => exact h.announce hpoint hticket
  | call round c x S₁ stage hpoint hcall => exact h.called hT hL hpoint hcall
  | hello i hrole hpoint => exact h.idle hT hL hd' rfl rfl (congrArg roundAt hpoint)
  -- the loop starts at slot 0, so nothing has been passed
  | enter b hpoint hfree =>
    refine h.same hT hL hd' rfl rfl (fun b' hb' => ?_) (fun b' c hc => ?_) (fun b' j _ hj => ?_)
    · rw [goTo_point] at hb'
      rw [hpoint]
      exact hb'
    · rw [goTo_point] at hc
      cases hc
    · rw [hpoint] at hj
      exact absurd hj id
  -- a slot that is skipped is passed
  | pass b i hpoint =>
    refine h.same hT hL hd' rfl rfl (fun b' hb' => ?_) (fun b' c hc => ?_) (fun b' j _ hj => ?_)
    · rw [goTo_point] at hb'
      rw [hpoint]
      exact hb'
    · rw [goTo_point] at hc
      cases hc
    · rw [hpoint] at hj
      rw [goTo_point]
      exact Nat.lt_succ_of_lt hj
  -- a slot that gets its frame is not passed yet, those before it are
  | relay b i hpoint hfd hskip hgreeted =>
    refine h.same hT hL hd' rfl rfl (fun b' hb' => ?_) (fun b' c hc => ?_) (fun b' j _ hj => ?_)
    · rw [goTo_point] at hb'
      rw [hpoint]
      exact hb'
    · rw [goTo_point] at hc
      obtain ⟨hb, rfl⟩ := Point.calling.inj hc
      obtain rfl := Option.some.inj hb
      rfl
    · rw [hpoint] at hj
      rw [goTo_point]
      exact .inl hj
  | reply | destroy | exit | free | close =>
    exact h.idle hT hL hd' rfl rfl (by rw [goTo_point]; rfl)

/-- A new connection has been given nothing yet. -/
theorem Ticketed.create (h : Ticketed S) {fd : Fd} {i : SessId}
    (hclosed : S.socket fd = none) (hfree : (S.slots i).fd = 0) : Ticketed (S.create fd i) := by
  -- the thread that is born is in no broadcast
  have hback : ∀ u b, roundAt ((S.create fd i).task u).point = some b →
      u ≠ S.born ∧ roundAt (S.task u).point = some b := by
    intro u b hu
    by_cases hub : u = S.born
    · rw [hub, create_task_born] at hu
      cases hu
    · rw [create_task_ne hub] at hu
      exact ⟨hub, hu⟩
  constructor
  case issued => exact h.issued
  case mine => exact fun u b hu => h.mine u b (hback u b hu).2
  case differ =>
    intro u v b b' hu hv
    exact h.differ u v b b' (hback u b hu).2 (hback v b' hv).2
  case carries =>
    intro u b c hu
    obtain ⟨hub, -⟩ := hback u b (by rw [hu]; rfl)
    rw [create_task_ne hub] at hu
    exact h.carries u b c hu
  case passed =>
    intro u b hu e he hticket
    obtain ⟨hub, hu⟩ := hback u b hu
    obtain ⟨j, hj, hfd, hconn⟩ := h.passed u b hu e he hticket
    -- the slot that is taken was free, and a slot that has been passed was not
    have hji : j ≠ i := by
      rintro rfl
      exact hfd hfree
    have hother : (S.slots j).fd ≠ fd := fd_ne_of_open hclosed ⟨_, hconn⟩
    refine ⟨j, by rwa [create_task_ne hub], by rwa [create_slots_ne hji], ?_⟩
    rw [create_slots_ne hji, create_socket_ne hother, hconn]
  case once => exact h.once

/-- At the start there are no broadcasts. -/
theorem ticketed_init : Ticketed Sockets.init := by
  have hnone : ∀ t b, roundAt (Sockets.init.task t).point ≠ some b := by
    intro t b hb
    rcases init_quiet t with h | h <;> rw [h] at hb <;> cases hb
  exact ⟨fun _ he => absurd he List.not_mem_nil, fun t b hb => absurd hb (hnone t b),
    fun t _ b _ hb => absurd hb (hnone t b), fun t b c hc => absurd (by rw [hc]; rfl) (hnone t b),
    fun t b hb => absurd hb (hnone t b), fun _ _ => Nat.zero_le _⟩

/-- What holds of the writers at any time. -/
structure Orderly (S : Sockets) : Prop where
  tenure : Tenure S
  locked : Locked S
  ticketed : Ticketed S

/-- One step keeps all of it. -/
theorem orderly_step (h : Orderly S) {a : Act} (hs : S.step a = some S') : Orderly S' := by
  obtain ⟨hT, hL⟩ := locked_step ⟨h.tenure, h.locked⟩ hs
  refine ⟨hT, hL, ?_⟩
  cases a with
  | accept fd =>
    rcases step_accept hs with rfl | ⟨i, -, hclosed, -, hfree, rfl⟩
    · exact h.ticketed
    · exact h.ticketed.create hclosed hfree
  | go t x => exact h.ticketed.did h.tenure h.locked (go_did hs)

/-- It holds at any time. -/
theorem orderly_reachable (h : Reachable Sockets.step Sockets.init S) : Orderly S :=
  h.invariant ⟨tenure_init, locked_init, ticketed_init⟩ fun _ _ _ hI hs => orderly_step hI hs

end

/-! ## One broadcast from its loop's head to its end -/

/-- A session that a broadcast is for, as it finds the table. -/
structure Wanted (S₀ : Sockets) (b : Round) (j : SessId) (conn : Conn) : Prop where
  taken : (S₀.slots j).fd ≠ 0
  socket : S₀.socket (S₀.slots j).fd = some conn
  greeted : (S₀.slots j).greeted = true
  notSkipped : b.skip ≠ some j

/-- A broadcast has begun its frame on a connection, unless the connection is broken. -/
def Given (S : Sockets) (b : Round) (conn : Conn) : Prop :=
  S.failed conn = true ∨ ⟨conn, b.message, some b.ticket⟩ ∈ S.begun

/-- The frames of a broadcast carry its message to sessions other than the one left out. -/
def Only (S₀ : Sockets) (b : Round) (S : Sockets) : Prop :=
  ∀ e ∈ S.begun, e.ticket = some b.ticket → e.message = b.message ∧
    ∃ j, (S₀.slots j).fd ≠ 0 ∧ S₀.socket (S₀.slots j).fd = some e.conn ∧ b.skip ≠ some j

/-- A broadcast in its loop: the table is as it was, and the slots passed have been given the
message. -/
structure Telling (S₀ : Sockets) (b : Round) (t : Tid) (S : Sockets) : Prop where
  round : roundAt (S.task t).point = some b
  loop : inLoop (S.task t).point = true
  fd : ∀ j, (S.slots j).fd = (S₀.slots j).fd
  greeted : ∀ j, (S₀.slots j).greeted = true → (S.slots j).greeted = true
  socket : ∀ j, S.socket (S₀.slots j).fd = S₀.socket (S₀.slots j).fd
  given : ∀ j conn, Passed (S.task t).point j → Wanted S₀ b j conn → Given S b conn

/-- A broadcast that is over. -/
structure Told (S₀ : Sockets) (b : Round) (S : Sockets) : Prop where
  issued : b.ticket < S.tickets
  ended : ∀ u b', roundAt (S.task u).point = some b' → b'.ticket ≠ b.ticket
  given : ∀ j conn, Wanted S₀ b j conn → Given S b conn

section
variable {S₀ S S' : Sockets} {t u : Tid} {x : Choice} {b : Round} {conn : Conn}

/-- A frame is begun where the kernel takes a length, and nowhere else. -/
theorem begun_did (hd : Did t S x S') : S'.begun = S.begun ∨
    ∃ round c conn, (S.task t).point = .calling round c ∧ S.socket c.fd = some conn ∧
      S'.begun = S.begun ++ [⟨conn, c.message, round.map Round.ticket⟩] := by
  cases hd with
  | call round c x S₁ stage hpoint hcall =>
    cases hcall with
    | length conn hstage hsocket hok => exact .inr ⟨round, c, conn, hpoint, hsocket, rfl⟩
    | fail =>
      left
      cases S.socket c.fd with
      | none | some => rfl
    | lock | lengthPart | body | release => exact .inl rfl
  | reply | announce | hello | destroy | enter | pass | relay | exit | free | close => exact .inl rfl

/-- A broken connection stays broken. -/
theorem failed_did (hd : Did t S x S') (h : S.failed conn = true) : S'.failed conn = true := by
  cases hd with
  | call round c x S₁ stage hpoint hcall =>
    cases hcall with
    | fail =>
      cases hsocket : S.socket c.fd with
      | none => exact h
      | some conn' =>
        rw [goTo_failed]
        show Function.update S.failed conn' true conn = true
        by_cases hconn : conn = conn'
        · rw [hconn, Function.update_self]
        · rwa [Function.update_of_ne hconn]
    | lock | length | lengthPart | body | release => exact h
  | reply | announce | hello | destroy | enter | pass | relay | exit | free | close => exact h

/-- A frame that has been given stays given. -/
theorem Given.did (h : Given S b conn) (hd : Did t S x S') : Given S' b conn := by
  rcases h with h | h
  · exact .inl (failed_did hd h)
  · rcases begun_did hd with hsame | ⟨_, _, _, -, -, hmore⟩
    · exact .inr (hsame ▸ h)
    · exact .inr (hmore ▸ List.mem_append_left _ h)

/-- The frames of a broadcast are begun by its own thread. -/
theorem Only.did (hO : Orderly S) (h : Only S₀ b S) (hd : Did u S x S')
    (hmine : ∀ b', roundAt (S.task u).point = some b' → b'.ticket = b.ticket → Telling S₀ b u S) :
    Only S₀ b S' := by
  rcases begun_did hd with hsame | ⟨round, c, conn, hpoint, hsocket, hmore⟩
  · unfold Only
    rw [hsame]
    exact h
  · intro e he hticket
    rw [hmore, List.mem_append, List.mem_singleton] at he
    rcases he with he | rfl
    · exact h e he hticket
    · obtain ⟨b', rfl, hb'⟩ := Option.map_eq_some_iff.mp hticket
      have hround : roundAt (S.task u).point = some b' := by rw [hpoint]; rfl
      have hT := hmine b' hround hb'
      obtain rfl : b' = b := Option.some.inj (hround.symm.trans hT.round)
      obtain ⟨hfd, hpos, -, hgreeted⟩ := hO.locked.call u _ c hpoint
      rw [hfd, hT.fd] at hsocket hpos
      rw [hT.socket] at hsocket
      exact ⟨hO.ticketed.carries u b' c hpoint, c.slot, hpos, hsocket, (hgreeted b' rfl).2⟩

/-- Another thread moves. -/
theorem Telling.other (hO : Orderly S) (h : Telling S₀ b t S) (hd : Did u S x S') (hut : t ≠ u) :
    Telling S₀ b t S' := by
  have hslot := slot_kept hO.locked hd h.loop
  have htask := hd.other hut
  constructor
  case round => rw [htask, h.round]
  case loop => rw [htask, h.loop]
  case fd => exact fun j => (hslot j).1.trans (h.fd j)
  case greeted => exact fun j hj => (hslot j).2 (h.greeted j hj)
  case socket =>
    intro j
    rw [← h.socket j, ← h.fd j]
    exact socket_kept hO.tenure hd j
  case given =>
    intro j conn hj hw
    rw [htask] at hj
    exact (h.given j conn hj hw).did hd

/-- The broadcast goes on in its loop. -/
theorem Telling.goes_on (hO : Orderly S) (h : Telling S₀ b t S) (hd : Did t S x S')
    (hround : roundAt (S'.task t).point = some b) (hloop : inLoop (S'.task t).point = true)
    (hgiven : ∀ j conn, Passed (S'.task t).point j → ¬ Passed (S.task t).point j →
      Wanted S₀ b j conn → Given S' b conn) : Telling S₀ b t S' := by
  have hslot := slot_kept hO.locked hd h.loop
  constructor
  case round => exact hround
  case loop => exact hloop
  case fd => exact fun j => (hslot j).1.trans (h.fd j)
  case greeted => exact fun j hj => (hslot j).2 (h.greeted j hj)
  case socket =>
    intro j
    rw [← h.socket j, ← h.fd j]
    exact socket_kept hO.tenure hd j
  case given =>
    intro j conn hj hw
    by_cases hbefore : Passed (S.task t).point j
    · exact (h.given j conn hbefore hw).did hd
    · exact hgiven j conn hj hbefore hw

/-- The broadcast's thread makes a step inside `send_framed`. -/
theorem Telling.called (hO : Orderly S) (h : Telling S₀ b t S) {c : Call} {S₁ : Sockets}
    {stage : Option Stage} (hpoint : (S.task t).point = .calling (some b) c)
    (hcall : Called t (some b.ticket) c S x S₁ stage) (hx : ∀ n, x = .sendLength n → n = 4) :
    Telling S₀ b t (S₁.goTo t (.after (some b) c stage)) := by
  have hd : Did t S x (S₁.goTo t (.after (some b) c stage)) := .call _ c x S₁ stage hpoint hcall
  have hmessage := hO.ticketed.carries t b c hpoint
  obtain ⟨hfd, -⟩ := hO.locked.call t _ c hpoint
  -- the connection that the slot had when the loop began
  have hconn : ∀ {conn}, Wanted S₀ b c.slot conn → S.socket c.fd = some conn := by
    intro conn hw
    rw [hfd, h.fd, h.socket]
    exact hw.socket
  refine h.goes_on hO hd ?_ ?_ ?_
  · rw [goTo_point]
    cases stage with
    | none | some => rfl
  · rw [goTo_point]
    cases stage with
    | none | some => rfl
  · intro j conn hafter hbefore hw
    rw [goTo_point] at hafter
    rw [hpoint] at hbefore
    unfold Passed at hbefore
    rw [not_or] at hbefore
    -- the only slot that may be passed now is the thread's own
    have hj : j = c.slot := by
      cases stage with
      | none => exact Fin.ext (Nat.le_antisymm (Nat.le_of_lt_succ hafter) (Nat.le_of_not_lt hbefore.1))
      | some s =>
        rcases hafter with hlt | ⟨rfl, -⟩
        · exact absurd hlt hbefore.1
        · rfl
    subst hj
    have hstage : c.stage = .lock ∨ c.stage = .length := by
      by_contra hno
      rw [not_or] at hno
      exact hbefore.2 ⟨rfl, hno⟩
    cases hcall with
    | lock => exact absurd rfl (hafter.resolve_left (Fin.lt_irrefl _)).2.2
    | length conn' _ hsocket =>
      obtain rfl := Option.some.inj (hsocket.symm.trans (hconn hw))
      refine .inr (List.mem_append_right _ (List.mem_singleton.mpr ?_))
      rw [hmessage]
    | lengthPart conn' n _ _ _ hn => exact absurd (hx n rfl) hn
    | body conn' sent n hbody => rcases hstage with hstage | hstage <;> rw [hbody] at hstage <;> cases hstage
    | fail =>
      rw [hconn hw]
      exact .inl (Function.update_self ..)
    | release hlate =>
      rcases hlate with hlate | ⟨sent, hlate, -⟩ <;> rcases hstage with hstage | hstage <;>
        rw [hlate] at hstage <;> cases hstage

/-- The broadcast's thread moves: it stays in its loop, or is through with the table. -/
theorem Telling.own (hO : Orderly S) (h : Telling S₀ b t S) (hd : Did t S x S')
    (hx : ∀ n, x = .sendLength n → n = 4) : Telling S₀ b t S' ∨ Told S₀ b S' := by
  have hround := h.round
  have hloop := h.loop
  have hd' := hd
  cases hd with
  | call round c x S₁ stage hpoint hcall =>
    rw [hpoint] at hround
    obtain rfl : round = some b := hround
    exact .inl (h.called hO hpoint hcall hx)
  -- a slot that is passed over is free, the sender's own, or has not said hello
  | pass b' i hpoint hpass =>
    rw [hpoint] at hround
    obtain rfl : b' = b := Option.some.inj hround
    refine .inl (h.goes_on hO hd' (by rw [goTo_point]; rfl) (by rw [goTo_point]; rfl) ?_)
    intro j conn hafter hbefore hw
    rw [goTo_point] at hafter
    rw [hpoint] at hbefore
    obtain rfl : j = i :=
      Fin.ext (Nat.le_antisymm (Nat.le_of_lt_succ hafter) (Nat.le_of_not_lt hbefore))
    rcases hpass with hfree | hskip | hnew
    · exact absurd ((h.fd j).symm.trans hfree) hw.taken
    · exact absurd hskip hw.notSkipped
    · exact absurd (hnew.symm.trans (h.greeted j hw.greeted)) Bool.false_ne_true
  -- the loop calls `send_framed` and has not passed the slot yet
  | relay b' i hpoint hfd hskip hgreeted =>
    rw [hpoint] at hround
    obtain rfl : b' = b := Option.some.inj hround
    refine .inl (h.goes_on hO hd' (by rw [goTo_point]; rfl) (by rw [goTo_point]; rfl) ?_)
    intro j conn hafter hbefore _
    rw [goTo_point] at hafter
    rw [hpoint] at hbefore
    rcases hafter with hlt | ⟨-, hno, -⟩
    · exact absurd hlt hbefore
    · exact absurd rfl hno
  -- after the last slot everyone has been given the message
  | exit b' i hpoint hi =>
    rw [hpoint] at hround
    obtain rfl : b' = b := Option.some.inj hround
    have hfirst := hO.ticketed.mine t b' (by rw [hpoint]; rfl)
    refine .inr ⟨hfirst, fun u b₁ hu hsame => ?_, fun j conn hw => ?_⟩
    · by_cases hut : u = t
      · rw [hut, goTo_point] at hu
        cases hu
      · rw [goTo_task_ne hut] at hu
        exact hut (hO.ticketed.differ u t b₁ b' hu (by rw [hpoint]; rfl) hsame)
    · refine (h.given j conn ?_ hw).did hd'
      rw [hpoint]
      exact Nat.lt_of_lt_of_le j.isLt hi
  | reply | announce | hello | destroy | enter | free | close =>
    simp [*, inLoop] at hloop

/-- A thread gets into a broadcast only by starting one. -/
theorem round_did (hd : Did u S x S') {v : Tid} {b' : Round}
    (h : roundAt (S'.task v).point = some b') :
    roundAt (S.task v).point = some b' ∨ b'.ticket = S.tickets := by
  by_cases hvu : v = u
  · subst hvu
    cases hd with
    | announce skipSelf b hpoint hticket =>
      rw [goTo_point] at h
      obtain rfl := Option.some.inj h
      exact .inr hticket
    | call round c x S₁ stage hpoint hcall =>
      rw [goTo_point] at h
      rw [hpoint]
      cases stage with
      | some => exact .inl h
      | none =>
        cases round with
        | none => cases h
        | some => exact .inl h
    | hello => exact .inl h
    | enter b hpoint | pass b i hpoint | relay b i hpoint =>
      rw [goTo_point] at h
      rw [hpoint]
      exact .inl h
    | reply | destroy | exit | free | close =>
      rw [goTo_point] at h
      cases h
  · rw [hd.other hvu] at h
    exact .inl h

/-- Tickets are not taken back. -/
theorem tickets_did (hd : Did u S x S') : S.tickets ≤ S'.tickets := by
  cases hd with
  | announce => exact Nat.le_succ _
  | call round c x S₁ stage hpoint hcall => exact (hcall.framed.tickets).ge
  | reply | hello | destroy | enter | pass | relay | exit | free | close => exact Nat.le_refl _

/-- A step after the end of the broadcast. -/
theorem Told.did (h : Told S₀ b S) (hd : Did u S x S') : Told S₀ b S' where
  issued := Nat.lt_of_lt_of_le h.issued (tickets_did hd)
  ended v b' hv := by
    rcases round_did hd hv with hold | hnew
    · exact h.ended v b' hold
    · rw [hnew]
      exact Nat.ne_of_gt h.issued
  given j conn hw := (h.given j conn hw).did hd

/-- A new connection after the end of the broadcast. -/
theorem Told.create (h : Told S₀ b S) {fd : Fd} {i : SessId} : Told S₀ b (S.create fd i) where
  issued := h.issued
  ended v b' hv := by
    by_cases hborn : v = S.born
    · rw [hborn, create_task_born] at hv
      cases hv
    · rw [create_task_ne hborn] at hv
      exact h.ended v b' hv
  given := h.given

end

end SlcRtld.Property
