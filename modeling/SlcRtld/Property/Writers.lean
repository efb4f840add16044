import SlcRtld.Property.Broadcasts

/-!
# Frames on a control socket

A session's own thread, the other sessions' threads and the USB thread all write to a client, each
through `send_framed`. `Carrying` relates the bytes on a connection to the messages begun on it and
to the message that the holder of the mutex is in the middle of. Three things follow: what a client
reads are the messages, whole and in order (`frames_never_torn`); only a holder of the session's
mutex writes; and once the session's slot is free nobody does (`silent_once_gone`). With what is
known of the broadcasts they say what holds of the sockets at any moment (`control_frames_kept`).

`send_framed` takes a length that the kernel accepts only in part for a failure, but leaves its
bytes on the connection and the connection open. The frames after it are then misread, so the first
result is about runs without one.
-/

namespace SlcRtld.Property

open Control Wire Effect
open Control.Sockets

/-! ## Bytes -/

/-- The descriptor, the message and the bytes sent so far of a thread in the loop of
`send_framed`. -/
def writingAt : Point → Option (Fd × Message × ℕ)
  | .calling _ ⟨_, fd, m, .body sent⟩ => some (fd, m, sent)
  | _ => none

/-- On a connection that works, and where no message is on its way, the frames begun have been
written; a message on its way is the last one begun; on a broken connection the last frame may be
cut. -/
structure Carrying (S : Sockets) : Prop where
  whole : ∀ c, S.failed c = false →
    (∀ t fd m n, writingAt (S.task t).point = some (fd, m, n) → S.socket fd ≠ some c) →
    S.written c = (S.begunTo c).flatMap Message.frame
  midway : ∀ t fd m n c, writingAt (S.task t).point = some (fd, m, n) → S.socket fd = some c →
    n ≤ m.text.length ∧ S.failed c = false ∧ ∃ ms, S.begunTo c = ms ++ [m] ∧
      S.written c = ms.flatMap Message.frame ++ m.frame.take (4 + n)
  cut : ∀ c, S.failed c = true → ∃ ms tail k, S.begunTo c = ms ++ tail ∧ tail.length ≤ 1 ∧
    S.written c = ms.flatMap Message.frame ++ (tail.flatMap Message.frame).take k
  fresh : ∀ c, S.conns ≤ c → S.written c = [] ∧ S.begunTo c = [] ∧ S.failed c = false

section
variable {S S' : Sockets} {t : Tid} {x : Choice}

/-- Only one thread at a time is between the two calls on the mutex of a connection's slot. -/
theorem holder_alone (hT : Tenure S) (hL : Locked S) {u : Tid} {i j : SessId} {c : Conn}
    (ht : heldAt (S.task t).point = some i) (hu : heldAt (S.task u).point = some j)
    (hi : S.socket (S.slots i).fd = some c) (hj : S.socket (S.slots j).fd = some c) : t = u := by
  obtain ⟨round, k, hk, hslot, -⟩ := heldAt_eq_some ht
  obtain ⟨hfd, hpos, -⟩ := hL.call t round k hk
  rw [hslot] at hfd
  have hij : i = j := hT.apart i j (hfd ▸ hpos) (hT.conn _ _ c hi hj)
  have hmutex := (hL.mutex i t).mpr ht
  rw [hij, (hL.mutex j u).mpr hu] at hmutex
  exact (Option.some.inj hmutex).symm

/-- A thread is writing a frame's body in `send_framed`, and nowhere else. -/
theorem writingAt_eq_some {p : Point} {fd : Fd} {m : Message} {n : ℕ}
    (h : writingAt p = some (fd, m, n)) :
    ∃ round c, p = .calling round c ∧ c.fd = fd ∧ c.message = m ∧ c.stage = .body n := by
  cases p with
  | calling round c =>
    obtain ⟨slot, fd', m', stage⟩ := c
    cases stage with
    | body sent =>
      obtain ⟨rfl, hrest⟩ := Prod.mk.inj (Option.some.inj h)
      obtain ⟨rfl, rfl⟩ := Prod.mk.inj hrest
      exact ⟨round, _, rfl, rfl, rfl, rfl⟩
    | lock | length | unlock => cases h
  | running | entering | looping | leaving | closing | finished => cases h

/-- At the stage of the body it is writing. -/
theorem writingAt_body {round : Option Round} {c : Call} {n : ℕ} (h : c.stage = .body n) :
    writingAt (.calling round c) = some (c.fd, c.message, n) := by
  obtain ⟨slot, fd, m, stage⟩ := c
  obtain rfl : stage = .body n := h
  rfl

/-- At the other stages it is not. -/
theorem writingAt_idle {round : Option Round} {c : Call} (h : ∀ n, c.stage ≠ .body n) :
    writingAt (.calling round c) = none := by
  obtain ⟨slot, fd, m, stage⟩ := c
  cases stage with
  | body n => exact absurd rfl (h n)
  | lock | length | unlock => rfl

/-- A thread that writes holds the mutex of the slot with its descriptor. -/
theorem writing_holds (hL : Locked S) {fd : Fd} {m : Message} {n : ℕ}
    (h : writingAt (S.task t).point = some (fd, m, n)) :
    ∃ i, heldAt (S.task t).point = some i ∧ (S.slots i).fd = fd := by
  obtain ⟨round, c, hc, rfl, -, hstage⟩ := writingAt_eq_some h
  refine ⟨c.slot, ?_, (hL.call t round c hc).1.symm⟩
  rw [hc]
  exact if_neg (by rw [hstage]; exact Stage.noConfusion)

/-- Nothing is written where only the holder of another mutex, or nobody, moves on. -/
theorem Carrying.same (h : Carrying S) (hwritten : S'.written = S.written)
    (hbegun : S'.begun = S.begun) (hfailed : S'.failed = S.failed) (hconns : S.conns ≤ S'.conns)
    (hpoint : ∀ u, writingAt (S'.task u).point = writingAt (S.task u).point)
    (hsocket : ∀ u fd m n, writingAt (S.task u).point = some (fd, m, n) →
      S'.socket fd = S.socket fd) : Carrying S' := by
  have hto : ∀ c, S'.begunTo c = S.begunTo c := by
    intro c
    unfold begunTo
    rw [hbegun]
  constructor
  case whole =>
    intro c hc hnone
    rw [hwritten, hto]
    refine h.whole c (hfailed ▸ hc) fun u fd m n hu => ?_
    rw [← hsocket u fd m n hu]
    exact hnone u fd m n (hpoint u ▸ hu)
  case midway =>
    intro u fd m n c hu hc
    rw [hpoint] at hu
    rw [hsocket u fd m n hu] at hc
    rw [hwritten, hto, hfailed]
    exact h.midway u fd m n c hu hc
  case cut =>
    intro c hc
    rw [hwritten, hto]
    exact h.cut c (hfailed ▸ hc)
  case fresh =>
    intro c hc
    rw [hwritten, hto, hfailed]
    exact h.fresh c (Nat.le_trans hconns hc)

/-- Who writes elsewhere writes to another connection. -/
theorem others_elsewhere (hT : Tenure S) (hL : Locked S) {i : SessId} {c : Conn}
    (ht : heldAt (S.task t).point = some i) (hi : S.socket (S.slots i).fd = some c) {u : Tid}
    (hu : u ≠ t) {fd : Fd} {m : Message} {n : ℕ}
    (hw : writingAt (S.task u).point = some (fd, m, n)) : S.socket fd ≠ some c := by
  obtain ⟨j, hj, rfl⟩ := writing_holds hL hw
  intro hc
  exact hu (holder_alone hT hL hj ht hc hi)

/-- The frame is the last of its connection. -/
theorem begunTo_beginFrame_self {c : Conn} {m : Message} {k : Option ℕ} :
    (S.beginFrame c m k).begunTo c = S.begunTo c ++ [m] := by
  unfold begunTo beginFrame
  simp

/-- The frames of the other connections stay. -/
theorem begunTo_beginFrame_ne {c c' : Conn} {m : Message} {k : Option ℕ} (h : c' ≠ c) :
    (S.beginFrame c m k).begunTo c' = S.begunTo c' := by
  unfold begunTo beginFrame
  simp [h.symm]

/-- The bytes come behind what has been written. -/
theorem put_written_self {c : Conn} {bs : List UInt8} : (S.put c bs).written c = S.written c ++ bs :=
  Function.update_self ..

/-- What has been written to other connections stays. -/
theorem put_written_ne {c c' : Conn} {bs : List UInt8} (h : c' ≠ c) :
    (S.put c bs).written c' = S.written c' := Function.update_of_ne h ..

/-- A step that touches one connection has to be right about that one. -/
theorem Carrying.at_conn (hC : Carrying S) {S₁ : Sockets} {p : Point} {conn : Conn}
    (hconn : conn < S.conns) (hf : Framed S S₁)
    (hrest : ∀ c, c ≠ conn → S₁.written c = S.written c ∧ S₁.begunTo c = S.begunTo c ∧
      S₁.failed c = S.failed c)
    (hothers : ∀ u, u ≠ t → ∀ fd m n, writingAt (S.task u).point = some (fd, m, n) →
      S.socket fd ≠ some conn)
    (hold : ∀ fd m n, writingAt (S.task t).point = some (fd, m, n) → S.socket fd = some conn)
    (hnew : ∀ fd m n, writingAt p = some (fd, m, n) → S.socket fd = some conn)
    (hwhole : S₁.failed conn = false → writingAt p = none →
      S₁.written conn = (S₁.begunTo conn).flatMap Message.frame)
    (hmidway : ∀ fd m n, writingAt p = some (fd, m, n) →
      n ≤ m.text.length ∧ S₁.failed conn = false ∧ ∃ ms, S₁.begunTo conn = ms ++ [m] ∧
        S₁.written conn = ms.flatMap Message.frame ++ m.frame.take (4 + n))
    (hcut : S₁.failed conn = true → ∃ ms tail k, S₁.begunTo conn = ms ++ tail ∧ tail.length ≤ 1 ∧
      S₁.written conn = ms.flatMap Message.frame ++ (tail.flatMap Message.frame).take k) :
    Carrying (S₁.goTo t p) := by
  have hother : ∀ u, u ≠ t → (S₁.goTo t p).task u = S.task u := by
    intro u hu
    rw [goTo_task_ne hu, hf.task]
  have hto : ∀ c, (S₁.goTo t p).begunTo c = S₁.begunTo c := fun _ => rfl
  constructor
  -- connections that the step does not touch are as they were, and so are the threads that write to
  -- them
  case whole =>
    intro c hc hnone
    rw [hto]
    by_cases hcc : c = conn
    · subst hcc
      refine hwhole hc (Option.eq_none_iff_forall_ne_some.mpr ?_)
      rintro ⟨fd, m, n⟩ hp
      refine hnone t fd m n (by rw [goTo_point, hp]) ?_
      rw [goTo_socket, hf.socket]
      exact hnew fd m n hp
    · obtain ⟨hw, hb, hfail⟩ := hrest c hcc
      rw [goTo_written, hw, hb]
      refine hC.whole c (hfail ▸ hc) fun u fd m n hu hs => ?_
      by_cases hut : u = t
      · rw [hut] at hu
        exact hcc (Option.some.inj (hs.symm.trans (hold fd m n hu)))
      · refine hnone u fd m n (by rw [hother u hut, hu]) ?_
        rw [goTo_socket, hf.socket, hs]
  case midway =>
    intro u fd m n c hu hs
    rw [goTo_socket, hf.socket] at hs
    rw [goTo_failed, goTo_written, hto]
    by_cases hut : u = t
    · rw [hut, goTo_point] at hu
      obtain rfl : c = conn := Option.some.inj (hs.symm.trans (hnew fd m n hu))
      exact hmidway fd m n hu
    · rw [hother u hut] at hu
      have hcc : c ≠ conn := by
        rintro rfl
        exact hothers u hut fd m n hu hs
      obtain ⟨hw, hb, hfail⟩ := hrest c hcc
      rw [hw, hb, hfail]
      exact hC.midway u fd m n c hu hs
  case cut =>
    intro c hc
    rw [goTo_written, hto]
    by_cases hcc : c = conn
    · subst hcc
      exact hcut hc
    · obtain ⟨hw, hb, hfail⟩ := hrest c hcc
      rw [hw, hb]
      exact hC.cut c (hfail ▸ hc)
  -- a connection that does not exist yet is not the one of the step
  case fresh =>
    intro c hc
    have hle : S.conns ≤ c := hf.conns ▸ hc
    obtain ⟨hw, hb, hfail⟩ := hrest c (Nat.ne_of_gt (Nat.lt_of_lt_of_le hconn hle))
    rw [goTo_written, goTo_failed, hto, hw, hb, hfail]
    exact hC.fresh c hle

section
variable {c : Call} {conn : Conn} {round : Option Round}
  (hT : Tenure S) (hL : Locked S) (hC : Carrying S) (hpoint : (S.task t).point = .calling round c)
  (hsocket : S.socket c.fd = some conn)
include hT hL hC hpoint hsocket

/-- While a thread holds the mutex and is not in the loop, no message is on its way. -/
theorem Carrying.at_rest (hstage : c.stage = .length) (hok : S.failed conn = false) :
    S.written conn = (S.begunTo conn).flatMap Message.frame := by
  have hfd := (hL.call t round c hpoint).1
  have hheld : heldAt (S.task t).point = some c.slot := by
    rw [hpoint]
    exact if_neg (by rw [hstage]; exact Stage.noConfusion)
  refine hC.whole conn hok fun u fd m n hu => ?_
  by_cases hut : u = t
  · rw [hut, hpoint, writingAt_idle (by rw [hstage]; exact fun _ => Stage.noConfusion)] at hu
    cases hu
  · exact others_elsewhere hT hL hheld (hfd ▸ hsocket) hut hu

/-- A step of the thread that holds the mutex of the connection's slot. -/
theorem Carrying.by_holder (hstage : c.stage ≠ .lock) {S₁ : Sockets} {p : Point} (hf : Framed S S₁)
    (hrest : ∀ c', c' ≠ conn → S₁.written c' = S.written c' ∧ S₁.begunTo c' = S.begunTo c' ∧
      S₁.failed c' = S.failed c')
    (hnew : ∀ fd m n, writingAt p = some (fd, m, n) → fd = c.fd)
    (hwhole : S₁.failed conn = false → writingAt p = none →
      S₁.written conn = (S₁.begunTo conn).flatMap Message.frame)
    (hmidway : ∀ fd m n, writingAt p = some (fd, m, n) →
      n ≤ m.text.length ∧ S₁.failed conn = false ∧ ∃ ms, S₁.begunTo conn = ms ++ [m] ∧
        S₁.written conn = ms.flatMap Message.frame ++ m.frame.take (4 + n))
    (hcut : S₁.failed conn = true → ∃ ms tail k, S₁.begunTo conn = ms ++ tail ∧ tail.length ≤ 1 ∧
      S₁.written conn = ms.flatMap Message.frame ++ (tail.flatMap Message.frame).take k) :
    Carrying (S₁.goTo t p) := by
  have hheld : heldAt (S.task t).point = some c.slot := by
    rw [hpoint]
    exact if_neg hstage
  have hfd := (hL.call t round c hpoint).1
  refine hC.at_conn (hT.known _ _ hsocket) hf hrest ?_ ?_ ?_ hwhole hmidway hcut
  · intro u hu fd m n hw
    exact others_elsewhere hT hL hheld (hfd ▸ hsocket) hu hw
  · intro fd m n hw
    obtain ⟨_, c', hc', rfl, -, -⟩ := writingAt_eq_some hw
    rw [hpoint] at hc'
    obtain ⟨-, rfl⟩ := Point.calling.inj hc'
    exact hsocket
  · intro fd m n hw
    rw [hnew fd m n hw, hsocket]

/-- The kernel takes the length of a message. -/
theorem Carrying.length (hstage : c.stage = .length) (hok : S.failed conn = false)
    (ticket : Option ℕ) :
    Carrying ((S.beginFrame conn c.message ticket).goTo t (.after round c (some (.body 0)))) := by
  have hrest := hC.at_rest hT hL hpoint hsocket hstage hok
  have hafter : writingAt (.after round c (some (.body 0))) = some (c.fd, c.message, 0) := rfl
  refine hC.by_holder hT hL hpoint hsocket (by rw [hstage]; exact Stage.noConfusion)
    ⟨fun _ => rfl, fun _ => rfl, rfl, rfl, rfl, rfl, rfl, rfl⟩ ?_ ?_ ?_ ?_ ?_
  · intro c' hc'
    exact ⟨put_written_ne hc', begunTo_beginFrame_ne hc', rfl⟩
  · intro fd m n hw
    rw [hafter] at hw
    cases hw
    rfl
  · intro _ hno
    rw [hafter] at hno
    cases hno
  · intro fd m n hw
    rw [hafter] at hw
    cases hw
    refine ⟨Nat.zero_le _, hok, S.begunTo conn, begunTo_beginFrame_self, ?_⟩
    have hwritten : (S.beginFrame conn c.message ticket).written conn =
        S.written conn ++ c.message.header := put_written_self
    rw [hwritten, hrest, Message.frame_take, List.take_zero, List.append_nil]
  · intro hfailed
    exact absurd (hok.symm.trans hfailed) Bool.false_ne_true

/-- The kernel takes some bytes of a message. -/
theorem Carrying.body {sent n : ℕ} (hstage : c.stage = .body sent)
    (hn : sent + n ≤ c.message.text.length) :
    Carrying ((S.put conn ((c.message.text.drop sent).take n)).goTo t
      (.after round c (some (.body (sent + n))))) := by
  have hbefore : writingAt (S.task t).point = some (c.fd, c.message, sent) := by
    rw [hpoint]
    exact writingAt_body hstage
  have hafter : writingAt (.after round c (some (.body (sent + n)))) =
      some (c.fd, c.message, sent + n) := rfl
  obtain ⟨-, hok, ms, hms, hwritten⟩ := hC.midway t c.fd c.message sent conn hbefore hsocket
  refine hC.by_holder hT hL hpoint hsocket (by rw [hstage]; exact Stage.noConfusion)
    ⟨fun _ => rfl, fun _ => rfl, rfl, rfl, rfl, rfl, rfl, rfl⟩ ?_ ?_ ?_ ?_ ?_
  · intro c' hc'
    exact ⟨put_written_ne hc', rfl, rfl⟩
  · intro fd m k hw
    rw [hafter] at hw
    cases hw
    rfl
  · intro _ hno
    rw [hafter] at hno
    cases hno
  · intro fd m k hw
    rw [hafter] at hw
    cases hw
    refine ⟨hn, hok, ms, hms, ?_⟩
    rw [put_written_self, hwritten, Message.frame_take, Message.frame_take, List.take_add]
    simp only [List.append_assoc]
  · intro hfailed
    exact absurd (hok.symm.trans hfailed) Bool.false_ne_true

/-- A `send` fails. -/
theorem Carrying.fail (hstage : c.stage = .length ∨ ∃ sent, c.stage = .body sent) :
    Carrying ((S.breakConn conn).goTo t (.after round c (some .unlock))) := by
  have hafter : writingAt (.after round c (some .unlock)) = none := rfl
  have hbroken : (S.breakConn conn).failed conn = true := Function.update_self ..
  refine hC.by_holder hT hL hpoint hsocket ?_
    ⟨fun _ => rfl, fun _ => rfl, rfl, rfl, rfl, rfl, rfl, rfl⟩ ?_ ?_ ?_ ?_ ?_
  · rcases hstage with hstage | ⟨sent, hstage⟩ <;> rw [hstage] <;> exact Stage.noConfusion
  -- the other connections are as they were
  · intro c' hc'
    exact ⟨rfl, rfl, Function.update_of_ne hc' ..⟩
  · intro fd m k hw
    rw [hafter] at hw
    cases hw
  · intro hok
    exact absurd (hok.symm.trans hbroken) Bool.false_ne_true
  · intro fd m k hw
    rw [hafter] at hw
    cases hw
  · intro _
    show ∃ ms tail k, S.begunTo conn = ms ++ tail ∧ _
    rcases hstage with hstage | ⟨sent, hstage⟩
    -- before the length only whole frames have been written
    · cases hok : S.failed conn with
      | true => exact hC.cut conn hok
      | false =>
        refine ⟨S.begunTo conn, [], 0, (List.append_nil _).symm, Nat.zero_le _, ?_⟩
        show S.written conn = _
        rw [hC.at_rest hT hL hpoint hsocket hstage hok, List.take_zero, List.append_nil]
    -- in the middle of a frame the connection keeps what was sent of it
    · have hbefore : writingAt (S.task t).point = some (c.fd, c.message, sent) := by
        rw [hpoint]
        exact writingAt_body hstage
      obtain ⟨-, -, ms, hms, hwritten⟩ := hC.midway t c.fd c.message sent conn hbefore hsocket
      refine ⟨ms, [c.message], 4 + sent, hms, Nat.le_refl _, ?_⟩
      rw [List.flatMap_singleton]
      exact hwritten

/-- `send_framed` returns. -/
theorem Carrying.release
    (hstage : c.stage = .unlock ∨ ∃ sent, c.stage = .body sent ∧ c.message.text.length ≤ sent) :
    Carrying ((S.setMutex c.slot none).goTo t (.after round c none)) := by
  have hafter : writingAt (.after round c none) = none := by
    cases round with
    | none | some => rfl
  rcases hstage with hstage | ⟨sent, hstage, hall⟩
  -- after a failure the thread has nothing left to write
  · have hbefore : writingAt (S.task t).point = none := by
      rw [hpoint]
      exact writingAt_idle (by rw [hstage]; exact fun _ => Stage.noConfusion)
    refine hC.same rfl rfl rfl (Nat.le_refl _) (fun u => ?_) (fun _ _ _ _ _ => rfl)
    by_cases hut : u = t
    · rw [hut, goTo_point, hafter, hbefore]
    · rw [goTo_task_ne hut]
      rfl
  -- the frame is complete, so the connection carries whole frames
  · have hbefore : writingAt (S.task t).point = some (c.fd, c.message, sent) := by
      rw [hpoint]
      exact writingAt_body hstage
    obtain ⟨-, hok, ms, hms, hwritten⟩ := hC.midway t c.fd c.message sent conn hbefore hsocket
    refine hC.by_holder hT hL hpoint hsocket (by rw [hstage]; exact Stage.noConfusion)
      (framed_setMutex ..) (fun _ _ => ⟨rfl, rfl, rfl⟩) ?_ ?_ ?_ ?_
    · intro fd m k hw
      rw [hafter] at hw
      cases hw
    · intro _ _
      show S.written conn = (S.begunTo conn).flatMap Message.frame
      rw [hms, hwritten, List.flatMap_append, List.flatMap_singleton,
        List.take_of_length_le (by rw [Message.frame_length]; omega)]
    · intro fd m k hw
      rw [hafter] at hw
      cases hw
    · intro hfailed
      exact absurd (hok.symm.trans hfailed) Bool.false_ne_true

end

/-- A step inside `send_framed`, when no length is accepted in part. -/
theorem Carrying.called (hT : Tenure S) (hL : Locked S) (hC : Carrying S) {round : Option Round}
    {c : Call} {S₁ : Sockets} {stage : Option Stage} (hpoint : (S.task t).point = .calling round c)
    (hcall : Called t (round.map Round.ticket) c S x S₁ stage)
    (hx : ∀ n, x = .sendLength n → n = 4) : Carrying (S₁.goTo t (.after round c stage)) := by
  obtain ⟨hfd, hpos, -⟩ := hL.call t round c hpoint
  obtain ⟨conn, hconn⟩ := hT.opened c.slot (hfd ▸ hpos)
  rw [← hfd] at hconn
  cases hcall with
  | lock hstage hfree =>
    refine hC.same rfl rfl rfl (Nat.le_refl _) (fun u => ?_) (fun _ _ _ _ _ => rfl)
    by_cases hut : u = t
    · rw [hut, goTo_point, hpoint, writingAt_idle (by rw [hstage]; exact fun _ => Stage.noConfusion)]
      rfl
    · rw [goTo_task_ne hut]
      rfl
  | length conn' hstage hsocket hok => exact hC.length hT hL hpoint hsocket hstage hok _
  | lengthPart conn' n _ _ _ hn => exact absurd (hx n rfl) hn
  | body conn' sent n hstage hsocket hok _ hn => exact hC.body hT hL hpoint hsocket hstage hn
  | fail hstage =>
    rw [hconn]
    refine hC.fail hT hL hpoint hconn ?_
    rcases hstage with hstage | ⟨sent, hstage, -⟩
    · exact .inl hstage
    · exact .inr ⟨sent, hstage⟩
  | release hstage => exact hC.release hT hL hpoint hconn hstage

/-- A descriptor that is being written to is that of a slot. -/
theorem writing_slot (hL : Locked S) {fd : Fd} {m : Message} {n : ℕ}
    (h : writingAt (S.task t).point = some (fd, m, n)) : ∃ i, (S.slots i).fd = fd ∧ fd ≠ 0 := by
  obtain ⟨round, c, hc, rfl, -, -⟩ := writingAt_eq_some h
  obtain ⟨hfd, hpos, -⟩ := hL.call t round c hc
  exact ⟨c.slot, hfd.symm, hpos⟩

/-- One step keeps what each connection carries. -/
theorem Carrying.did (hT : Tenure S) (hL : Locked S) (hC : Carrying S) (hd : Did t S x S')
    (hx : ∀ n, x = .sendLength n → n = 4) : Carrying S' := by
  have hquiet : ∀ {S₁ : Sockets} {p : Point}, S₁.written = S.written → S₁.begun = S.begun →
      S₁.failed = S.failed → S₁.conns = S.conns → S₁.task = S.task → S₁.socket = S.socket →
      writingAt p = none → writingAt (S.task t).point = none → Carrying (S₁.goTo t p) := by
    intro S₁ p hwritten hbegun hfailed hconns htask hsocket hp hpoint
    refine hC.same hwritten hbegun hfailed hconns.ge (fun u => ?_) (fun _ _ _ _ _ => ?_)
    · by_cases hut : u = t
      · rw [hut, goTo_point, hp, hpoint]
      · rw [goTo_task_ne hut, htask]
    · rw [goTo_socket, hsocket]
  cases hd with
  | call round c x S₁ stage hpoint hcall => exact hC.called hT hL hpoint hcall hx
  | hello => exact hC.same rfl rfl rfl (Nat.le_refl _) (fun _ => rfl) (fun _ _ _ _ _ => rfl)
  | close fd hpoint =>
    refine hC.same rfl rfl rfl (Nat.le_refl _) (fun u => ?_) (fun u fd' m n hu => ?_)
    · by_cases hut : u = t
      · rw [hut, goTo_point, hpoint]
        rfl
      · rw [goTo_task_ne hut]
    · obtain ⟨i, hi, -⟩ := writing_slot hL hu
      obtain ⟨-, -, hslots⟩ := hT.closing t fd (by rw [hpoint]; rfl)
      exact Function.update_of_ne (hi ▸ hslots i) ..
  | reply | announce | destroy | enter | pass | relay | exit | free =>
    exact hquiet rfl rfl rfl rfl rfl rfl rfl (by simp [*, writingAt])

/-- A new connection carries nothing yet. -/
theorem Carrying.create (hT : Tenure S) (hL : Locked S) (hC : Carrying S) {fd : Fd} {i : SessId}
    (hclosed : S.socket fd = none) : Carrying (S.create fd i) := by
  refine hC.same rfl rfl rfl (Nat.le_succ _) (fun u => ?_) (fun u fd' m n hu => ?_)
  · by_cases hu : u = S.born
    · have hover := hT.unborn S.born (Nat.le_refl _)
      rw [hu, create_task_born]
      cases hpoint : (S.task S.born).point with
      | calling =>
        rw [hpoint] at hover
        cases hover
      | running | entering | looping | leaving | closing | finished => rfl
    · rw [create_task_ne hu]
  · obtain ⟨j, hj, hpos⟩ := writing_slot hL hu
    exact create_socket_ne (fd_ne_of_open hclosed (hj ▸ hT.opened j (hj ▸ hpos)))

end

/-! ## Every run -/

section
variable {S S' : Sockets}

/-- At the start no connection carries anything. -/
theorem carrying_init : Carrying Sockets.init := by
  constructor
  case whole => exact fun _ _ _ => rfl
  case midway =>
    intro t fd m n c hw
    rcases init_quiet t with h | h <;> rw [h] at hw <;> cases hw
  case cut => exact fun _ hc => absurd hc Bool.false_ne_true
  case fresh => exact fun _ _ => ⟨rfl, rfl, rfl⟩

/-- Every run in which the kernel accepts lengths whole keeps what each connection carries. -/
theorem carrying_run {acts : List Act} (hlen : ∀ a ∈ acts, lengthWhole a = true)
    (hrun : runActs Sockets.step Sockets.init acts = some S) : Carrying S := by
  refine (runActs_invariant (I := fun S => (Tenure S ∧ Locked S) ∧ Carrying S) ?_
    ⟨⟨tenure_init, locked_init⟩, carrying_init⟩ hlen hrun).2
  rintro S a S' ⟨hI, hC⟩ ha hs
  refine ⟨locked_step hI hs, ?_⟩
  cases a with
  | accept fd =>
    rcases step_accept hs with rfl | ⟨i, hpos, hclosed, -, hfree, rfl⟩
    · exact hC
    · exact hC.create hI.1 hI.2 hclosed
  | go t x =>
    refine hC.did hI.1 hI.2 (go_did hs) fun n hn => ?_
    rw [hn] at ha
    exact of_decide_eq_true ha

/-- What is on a connection, whether or not a message is on its way. -/
theorem Carrying.shape (h : Carrying S) (c : Conn) : ∃ ms tail k, S.begunTo c = ms ++ tail ∧
    tail.length ≤ 1 ∧ S.written c = ms.flatMap Message.frame ++ (tail.flatMap Message.frame).take k := by
  cases hok : S.failed c with
  | true => exact h.cut c hok
  | false =>
    by_cases hidle : ∀ t fd m n, writingAt (S.task t).point = some (fd, m, n) → S.socket fd ≠ some c
    · refine ⟨S.begunTo c, [], 0, (List.append_nil _).symm, Nat.zero_le _, ?_⟩
      rw [h.whole c hok hidle, List.take_zero, List.append_nil]
    · push Not at hidle
      obtain ⟨t, fd, m, n, hw, hs⟩ := hidle
      obtain ⟨-, -, ms, hms, hwritten⟩ := h.midway t fd m n c hw hs
      refine ⟨ms, [m], 4 + n, hms, Nat.le_refl _, ?_⟩
      rw [hwritten, List.flatMap_singleton]

/-- The lengths that a client's reader accepts. -/
def anyLength : ℕ := 2 ^ 32 - 1

/-- A frame is not longer than the longest. -/
theorem le_anyLength (m : Message) : m.text.length ≤ anyLength := Nat.le_sub_one_of_lt m.short

/-- Frames and a part of at most one more are read as the messages of the frames. -/
theorem read_shape {ms tail : List Message} {k : ℕ} (htail : tail.length ≤ 1) :
    ∃ got rest, ms ++ tail = got ++ rest ∧ rest.length ≤ 1 ∧
      (read anyLength (ms.flatMap Message.frame ++ (tail.flatMap Message.frame).take k)).done =
        got.map Message.text := by
  have hle : ∀ ms : List Message, ∀ m ∈ ms, m.text.length ≤ anyLength := fun _ m _ => le_anyLength m
  rcases tail with _ | ⟨m, _ | ⟨m', tail⟩⟩
  · refine ⟨ms, [], rfl, Nat.zero_le _, ?_⟩
    rw [List.flatMap_nil, List.take_nil, List.append_nil, read_frames (hle ms)]
  · rw [List.flatMap_singleton]
    rcases Nat.lt_or_ge k m.frame.length with hlt | hge
    · exact ⟨ms, [m], rfl, Nat.le_refl _, read_part (hle ms) (le_anyLength m) hlt⟩
    · refine ⟨ms ++ [m], [], (List.append_nil _).symm, Nat.zero_le _, ?_⟩
      have hall : ms.flatMap Message.frame ++ m.frame = (ms ++ [m]).flatMap Message.frame := by
        rw [List.flatMap_append, List.flatMap_singleton]
      rw [List.take_of_length_le hge, hall, read_frames (hle _)]
  · exact absurd htail (by simp)

/-- What a client finds on its connection. -/
structure Untorn (S : Sockets) (c : Conn) : Prop where
  /-- The bytes begin the frames of the messages handed to `send_framed`, in the order in which it took
  the mutex. -/
  begins : S.written c <+: (S.begunTo c).flatMap Message.frame
  /-- Read by their lengths they are exactly these messages, but for one that may still be on its way, or
  cut by a failure. -/
  reads : ∃ got rest, S.begunTo c = got ++ rest ∧ rest.length ≤ 1 ∧
    (read anyLength (S.written c)).done = got.map Message.text
  /-- On a connection that works nothing is missing when nobody holds a mutex. -/
  complete : S.failed c = false → (∀ i, (S.slots i).sendMutex = none) →
    S.written c = (S.begunTo c).flatMap Message.frame

/-- Frames are never torn, whatever the order of the threads' steps, and however few bytes the
kernel takes at a time, provided that it takes lengths whole and that nothing is written any more to
a connection on which a `send` has failed. -/
theorem frames_never_torn {acts : List Act} (hlen : ∀ a ∈ acts, lengthWhole a = true)
    (hrun : runActs Sockets.step Sockets.init acts = some S) (c : Conn) : Untorn S c := by
  have hC := carrying_run hlen hrun
  obtain ⟨hT, hL⟩ := locked_reachable ⟨acts, hrun⟩
  obtain ⟨ms, tail, k, hbegun, htail, hwritten⟩ := hC.shape c
  constructor
  · rw [hwritten, hbegun, List.flatMap_append]
    exact (List.prefix_append_right_inj _).mpr (List.take_prefix ..)
  · rw [hwritten, hbegun]
    exact read_shape htail
  · intro hok hfree
    refine hC.whole c hok fun t fd m n hw _ => ?_
    obtain ⟨i, hheld, -⟩ := writing_holds hL hw
    have hmutex := (hL.mutex i t).mpr hheld
    rw [hfree i] at hmutex
    cases hmutex

/-- Two clients have said hello. The USB thread tells everyone something, and has written five bytes
to the first client, whose thread has an answer ready meanwhile. -/
def halfTold : List Act :=
  [.accept 3, .accept 4, .go 1 .hello, .go 2 .hello, .go 0 (.announce false emptyObject), .go 0 .step,
    .go 0 .step, .go 0 .step, .go 0 (.sendLength 4), .go 0 (.send 1), .go 1 (.reply emptyObject)]

/-- A broadcast has written one byte of a body, and the session's own thread waits for the mutex. -/
theorem frames_never_torn_half_told :
    ∃ S, runActs Sockets.step Sockets.init halfTold = some S ∧ (S.written 0).length = 5 ∧
      S.tableMutex = some 0 ∧ (S.go 1 .step).isNone = true ∧ Untorn S 0 := by
  have hrun : (runActs Sockets.step Sockets.init halfTold).any (fun S => (S.written 0).length = 5 ∧
      S.tableMutex = some 0 ∧ (S.go 1 .step).isNone = true) = true := by decide +kernel
  obtain ⟨S, hS, hchecks⟩ := (Option.any_eq_true ..).mp hrun
  obtain ⟨hfive, htable, hwaits⟩ := of_decide_eq_true hchecks
  exact ⟨S, hS, hfive, htable, hwaits, frames_never_torn (by decide) hS 0⟩

end

/-! ## After a session's end -/

/-- No slot has the connection any more. -/
structure Gone (S : Sockets) (conn : Conn) : Prop where
  past : conn < S.conns
  slots : ∀ i, (S.slots i).fd ≠ 0 → S.socket (S.slots i).fd ≠ some conn

section
variable {S S' : Sockets} {t : Tid} {x : Choice} {conn : Conn}

/-- Bytes are written in `send_framed`, to the connection of its descriptor. -/
theorem written_did (hd : Did t S x S') (h : S'.written conn ≠ S.written conn) :
    ∃ round c, (S.task t).point = .calling round c ∧ S.socket c.fd = some conn := by
  cases hd with
  | call round c x S₁ stage hpoint hcall =>
    refine ⟨round, c, hpoint, ?_⟩
    -- whatever connection is touched, the others are as before
    have hother : ∀ conn' bs, S.socket c.fd = some conn' → S₁.written = (S.put conn' bs).written →
        S.socket c.fd = some conn := by
      intro conn' bs hsocket hput
      by_cases hconn : conn = conn'
      · rw [hconn, hsocket]
      · rw [goTo_written, hput, put_written_ne hconn] at h
        exact absurd rfl h
    cases hcall with
    | length conn' hstage hsocket => exact hother conn' _ hsocket rfl
    | lengthPart conn' n hstage hsocket => exact hother conn' _ hsocket rfl
    | body conn' sent n hstage hsocket => exact hother conn' _ hsocket rfl
    | fail =>
      cases hsocket : S.socket c.fd with
      | none | some =>
        rw [hsocket] at h
        exact absurd rfl h
    | lock | release => exact absurd rfl h
  | reply | announce | hello | destroy | enter | pass | relay | exit | free | close =>
    exact absurd rfl h

/-- A session's thread and the loops of the broadcasts are the only ones to write to its connection,
and each of them holds the session's mutex. -/
theorem writer_holds (hL : Locked S) (hd : Did t S x S') (h : S'.written conn ≠ S.written conn) :
    ∃ i, (S.slots i).fd ≠ 0 ∧ S.socket (S.slots i).fd = some conn := by
  obtain ⟨round, c, hpoint, hsocket⟩ := written_did hd h
  obtain ⟨hfd, hpos, -⟩ := hL.call t round c hpoint
  exact ⟨c.slot, hfd ▸ hpos, hfd ▸ hsocket⟩

/-- The step of `session_destroy` that frees the slot: no other slot has the session's
connection. -/
theorem gone_of_free (h : Reachable Sockets.step Sockets.init S) {i : SessId}
    (hrole : (S.task t).role = .session i) (hpoint : (S.task t).point = .leaving)
    (hconn : S.socket (S.slots i).fd = some conn) (hs : S.step (.go t .step) = some S') : Gone S' conn := by
  obtain ⟨hT, -⟩ := locked_reachable h
  have hfree : S' = (S.setSlot i Slot.free).goTo t (.closing (S.slots i).fd) := by
    have hgo : S.go t .step = some S' := hs
    unfold go at hgo
    rw [hpoint, hrole] at hgo
    exact (Option.some.inj (Option.ite_none_right_eq_some.mp hgo).2).symm
  subst hfree
  refine ⟨hT.known _ _ hconn, fun j hj => ?_⟩
  by_cases hji : j = i
  · rw [hji, goTo_slots, setSlot_self] at hj
    exact absurd rfl hj
  · rw [goTo_slots, setSlot_ne hji] at hj ⊢
    exact fun hsame => hji (hT.apart j i hj (hT.conn _ _ _ hsame hconn))

/-- A connection that no slot has is given to none by a thread's step. -/
theorem Gone.did (h : Gone S conn) (hd : Did t S x S') : Gone S' conn := by
  rcases tenure_cases hd with ⟨i, -, -, -, rfl⟩ | ⟨fd, -, rfl⟩ | hsame
  · refine ⟨h.past, fun j hj => ?_⟩
    by_cases hji : j = i
    · rw [hji, goTo_slots, setSlot_self] at hj
      exact absurd rfl hj
    · rw [goTo_slots, setSlot_ne hji] at hj ⊢
      exact h.slots j hj
  · refine ⟨h.past, fun j hj => ?_⟩
    show Function.update S.socket fd none (S.slots j).fd ≠ some conn
    by_cases hfd : (S.slots j).fd = fd
    · rw [hfd, Function.update_self]
      exact (Option.some_ne_none conn).symm
    · rw [Function.update_of_ne hfd]
      exact h.slots j hj
  · refine ⟨hsame.conns ▸ h.past, fun j hj => ?_⟩
    rw [hsame.fd] at hj ⊢
    rw [hsame.socket]
    exact h.slots j hj

/-- A number that is given out again stands for a new connection. -/
theorem Gone.create (h : Gone S conn) {fd : Fd} {i : SessId} : Gone (S.create fd i) conn := by
  refine ⟨Nat.lt_succ_of_lt h.past, fun j hj => ?_⟩
  have hnew : some S.conns ≠ some conn := fun hsame =>
    Nat.ne_of_gt h.past (Option.some.inj hsame)
  by_cases hfd : ((S.create fd i).slots j).fd = fd
  · rw [hfd, create_socket_self]
    exact hnew
  · rw [create_socket_ne hfd]
    have hji : j ≠ i := by
      rintro rfl
      exact hfd create_fd_self
    rw [create_slots_ne hji] at hj ⊢
    exact h.slots j hj

/-- A step writes nothing to a connection that no slot has, and gives it to none. -/
theorem Gone.step (hgone : Gone S conn) (hL : Tenure S ∧ Locked S) {a : Act}
    (hs : S.step a = some S') : Gone S' conn ∧ S'.written conn = S.written conn := by
  cases a with
  | accept fd =>
    rcases step_accept hs with rfl | ⟨i, -, -, -, -, rfl⟩
    · exact ⟨hgone, rfl⟩
    · exact ⟨hgone.create, rfl⟩
  | go t x =>
    have hd := go_did hs
    refine ⟨hgone.did hd, ?_⟩
    by_contra hwrites
    obtain ⟨i, hfd, hsocket⟩ := writer_holds hL.2 hd hwrites
    exact hgone.slots i hfd hsocket

/-- What is kept along a run after a session's end. -/
structure Ended (conn : Conn) (bytes : List UInt8) (S : Sockets) : Prop where
  locked : Tenure S ∧ Locked S
  gone : Gone S conn
  written : S.written conn = bytes

/-- A step keeps it. -/
theorem Ended.step {bytes : List UInt8} (h : Ended conn bytes S) {a : Act}
    (hs : S.step a = some S') : Ended conn bytes S' := by
  obtain ⟨hgone, hwritten⟩ := h.gone.step h.locked hs
  exact ⟨locked_step h.locked hs, hgone, hwritten.trans h.written⟩

/-- Once a session's slot is free nothing more is written to its connection, though a broadcast may
have been waiting for the slot, and though its descriptor's number may be given out again. -/
theorem silent_once_gone (h : Reachable Sockets.step Sockets.init S) (hgone : Gone S conn)
    {acts : List Act} (hrun : runActs Sockets.step S acts = some S') :
    S'.written conn = S.written conn := by
  have hended : Ended conn (S.written conn) S' :=
    runActs_invariant (P := fun _ => True) (fun _ _ _ hI _ hs => hI.step hs)
      ⟨locked_reachable h, hgone, rfl⟩ (fun _ _ => trivial) hrun
  exact hended.written

/-- A client has been answered and its session has ended. -/
def servedAndGone : List Act :=
  [.accept 3, .go 1 .hello, .go 1 (.reply emptyObject), .go 1 .step, .go 1 (.sendLength 4),
    .go 1 (.send 2), .go 1 .step, .go 1 .destroy, .go 1 .step, .go 1 .step]

/-- The next client gets the same descriptor, and is told something. -/
def nextOnSameNumber : List Act :=
  [.accept 3, .go 2 .hello, .go 0 (.announce false emptyObject), .go 0 .step, .go 0 .step, .go 0 .step,
    .go 0 (.sendLength 4), .go 0 (.send 2)]

/-- The number of a closed descriptor is given out again, and the frame goes to the new connection.
-/
theorem silent_once_gone_same_number : ∃ S S',
    runActs Sockets.step Sockets.init servedAndGone = some S ∧
    runActs Sockets.step S nextOnSameNumber = some S' ∧ S'.socket 3 = some 1 ∧
    (S'.written 1).length = 6 ∧ (S.written 0).length = 6 ∧ S'.written 0 = S.written 0 := by
  have hrun : (runActs Sockets.step Sockets.init servedAndGone).any (fun S =>
      0 < S.conns ∧ (∀ i, (S.slots i).fd = 0) ∧ (S.written 0).length = 6 ∧
      (runActs Sockets.step S nextOnSameNumber).any (fun S' => S'.socket 3 = some 1 ∧
        (S'.written 1).length = 6) = true) = true := by decide +kernel
  obtain ⟨S, hS, hchecks⟩ := (Option.any_eq_true ..).mp hrun
  obtain ⟨hpast, hfree, hsix, hlater⟩ := of_decide_eq_true hchecks
  obtain ⟨S', hS', hchecks⟩ := (Option.any_eq_true ..).mp hlater
  obtain ⟨hsocket, hnew⟩ := of_decide_eq_true hchecks
  exact ⟨S, S', hS, hS', hsocket, hnew, hsix,
    silent_once_gone ⟨servedAndGone, hS⟩ ⟨hpast, fun i hi => absurd (hfree i) hi⟩ hS'⟩

end

/-! ## The control sockets at any moment -/

section
variable {S : Sockets}

/-- What a state says of the clients' sockets, up to it and from it on. -/
structure KeepsFrames (S : Sockets) : Prop where
  /-- The bytes on a connection are a beginning of whole frames, each the length of a message and the
  message. -/
  framed : ∀ conn, S.written conn <+: (S.begunTo conn).flatMap Message.frame
  /-- A broadcast has begun one frame at most on a connection. -/
  once : ∀ ticket conn,
    (S.begun.filter fun e => e.ticket = some ticket ∧ e.conn = conn).length ≤ 1
  /-- When `session_destroy` frees a slot, the last byte has been written to its connection. -/
  silent : ∀ t i conn, (S.task t).role = .session i → (S.task t).point = .leaving →
    S.socket (S.slots i).fd = some conn → ∀ later S',
      runActs Sockets.step S (.go t .step :: later) = some S' → S'.written conn = S.written conn

/-- The sockets keep their frames whatever the order in which the threads write, clients come and
sessions end, as long as lengths are accepted whole; each broadcast reaches a client once at most,
and none after its slot has been freed. -/
theorem control_frames_kept {acts : List Act} (hlen : ∀ a ∈ acts, lengthWhole a = true)
    (hrun : runActs Sockets.step Sockets.init acts = some S) : KeepsFrames S := by
  have hreach : Reachable Sockets.step Sockets.init S := ⟨acts, hrun⟩
  constructor
  case framed =>
    intro conn
    obtain ⟨ms, tail, k, hbegun, -, hwritten⟩ := (carrying_run hlen hrun).shape conn
    rw [hwritten, hbegun, List.flatMap_append]
    exact (List.prefix_append_right_inj _).mpr (List.take_prefix ..)
  case once => exact (orderly_reachable hreach).ticketed.once
  case silent =>
    intro t i conn hrole hpoint hconn later S' hlater
    rw [runActs_cons, Option.bind_eq_some_iff] at hlater
    obtain ⟨S₁, hfree, hlater⟩ := hlater
    have hgone : Gone S₁ conn := gone_of_free hreach hrole hpoint hconn hfree
    have hsame : S₁.written conn = S.written conn := by
      by_contra hwrites
      obtain ⟨round, c, hcalling, -⟩ := written_did (go_did hfree) hwrites
      rw [hpoint] at hcalling
      cases hcalling
    have hended : Ended conn (S.written conn) S' :=
      runActs_invariant (P := fun _ => True) (fun _ _ _ hI _ hs => hI.step hs)
        ⟨locked_step (locked_reachable hreach) hfree, hgone, hsame⟩ (fun _ _ => trivial) hlater
    exact hended.written

/-- A client has been answered, and its session ends while the USB thread is about to tell everyone
something. -/
def leavingUntold : List Act :=
  [.accept 3, .go 1 .hello, .go 1 (.reply emptyObject), .go 1 .step, .go 1 (.sendLength 4),
    .go 1 (.send 1), .go 1 (.send 1), .go 1 .step, .go 0 (.announce false emptyObject), .go 1 .destroy]

/-- The slot is free when the broadcast enters its loop, and it finds nobody. -/
theorem control_frames_kept_untold : ∃ S S', runActs Sockets.step Sockets.init leavingUntold = some S ∧
    runActs Sockets.step S [.go 1 .step, .go 0 .step, .go 0 .step] = some S' ∧
    (S.written 0).length = 6 ∧ S'.written 0 = S.written 0 ∧ S.written 0 <+: emptyObject.frame := by
  have hrun : (runActs Sockets.step Sockets.init leavingUntold).any (fun S =>
      (S.task 1).role = .session 0 ∧ (S.task 1).point = .leaving ∧
      S.socket (S.slots 0).fd = some 0 ∧ (S.written 0).length = 6 ∧ S.begunTo 0 = [emptyObject] ∧
      (runActs Sockets.step S [.go 1 .step, .go 0 .step, .go 0 .step]).isSome = true) = true := by
    decide +kernel
  obtain ⟨S, hS, hchecks⟩ := (Option.any_eq_true ..).mp hrun
  obtain ⟨hrole, hpoint, hconn, hsix, hbegun, hlater⟩ := of_decide_eq_true hchecks
  obtain ⟨S', hS'⟩ := Option.isSome_iff_exists.mp hlater
  have hkept := control_frames_kept (by decide) hS
  refine ⟨S, S', hS, hS', hsix, hkept.silent 1 0 0 hrole hpoint hconn _ S' hS', ?_⟩
  have hframed := hkept.framed 0
  rwa [hbegun, List.flatMap_singleton] at hframed

end

end SlcRtld.Property
