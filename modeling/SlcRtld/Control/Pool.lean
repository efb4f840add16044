import SlcRtld.Control.Conformance
import SlcRtld.Control.Received

/-!
# Sessions side by side

The daemon with its session threads interleaved. A request in progress is the rest of its program; a
move of the pool performs the next operation of one of them, or accepts a connection, lets a waiting
thread receive a frame, ends a connection, or delivers a USB buffer. The operations are the critical
sections of the source, and the message is read from the shared `msg_buf` as it is at that moment. A
request that runs from its frame to its end without another move in between is a step of
`Control.Session` (`request_moves`).

What a move can do is said once (`Turn`), in terms of the protocol that every request keeps to.
-/

namespace SlcRtld.Control

open Libc Rtl Auth Vita Json Effect
open Effect.Prog (perform Follows Answering)

/-! ## The pool -/

/-- A request in progress: the rest of its program, and where it is. -/
structure Thread where
  rest : Prog Op Unit
  track : Track

/-- A thread with a program, unless that is finished. -/
def Thread.go (track : Track) : Prog Op Unit → Option Thread
  | .pure _ => none
  | .op o k => some ⟨.op o k, track⟩

/-- The daemon and the requests in progress, at most one for each session. -/
structure Pool where
  daemon : Daemon
  threads : SessId → Option Thread

/-- The pool when `main` has started the server. -/
def Pool.init (dev : Device) (o : Startup) (contextPackets : Bool) : Pool :=
  ⟨Daemon.init dev o contextPackets, fun _ => none⟩

/-- The moves. -/
inductive Move where
  /-- A connection arrives on a socket; the thread's stack holds some tokens. -/
  | connect (fd : ℕ) (stack : List Tok)
  /-- A session's thread has received a frame, and tokenised it. -/
  | receive (i : SessId) (frame : List UInt8)
  /-- A connection ends, or its next frame has an impossible length. -/
  | disconnect (i : SessId)
  /-- A session's thread performs its next operation. -/
  | turn (i : SessId) (env : Env)
  /-- A USB buffer arrives at a time. -/
  | usb (buf : List UInt8) (nowMs : UInt64)

namespace Pool

variable (opts : Options)

/-- A thread performs its next operation. -/
def turn (i : SessId) (env : Env) (P : Pool) : Option Pool :=
  match P.threads i with
  | some ⟨.op o k, track⟩ =>
    (exec opts env (P.daemon.message i env) i _ o P.daemon).map fun r =>
      ⟨r.2, Function.update P.threads i (Thread.go (track.after o r.1) (k r.1))⟩
  | _ => none

/-- One move. A thread that waits for its next frame has no request in progress. -/
def move (P : Pool) : Move → Option Pool
  | .connect fd stack =>
    if 0 < fd ∧ stack.length = maxJsonTokens then
      some { P with daemon := P.daemon.sessionCreate fd stack }
    else none
  | .receive i frame =>
    if (P.daemon.sessions i).live ∧ (P.threads i).isNone ∧ 1 ≤ frame.length ∧
        frame.length ≤ maxMsgBytes then
      some ⟨P.daemon.tokenise i frame, Function.update P.threads i
        (Thread.go .start (sessionRound opts (jsmnParse frame (P.daemon.tokens i)).1))⟩
    else none
  | .disconnect i =>
    if (P.daemon.sessions i).live ∧ (P.threads i).isNone then
      some { P with threads := Function.update P.threads i (Thread.go .start (sessionDestroy opts)) }
    else none
  | .turn i env => P.turn opts i env
  | .usb buf nowMs => some { P with daemon := P.daemon.rtlCallback buf nowMs }

/-- Where the request of a session is. -/
def track (P : Pool) (i : SessId) : Track := (P.threads i).elim .start Thread.track

/-- No request is in progress. -/
def Idle (P : Pool) : Prop := ∀ i, P.threads i = none

end Pool

/-- A turn performs the next operation of the request in progress. -/
theorem Pool.turn_eq {opts : Options} {i : SessId} {env : Env} {P P' : Pool}
    (h : P.turn opts i env = some P') :
    ∃ (β : Type) (o : Op β) (k : β → Prog Op Unit) (track : Track) (b : β) (d' : Daemon),
      P.threads i = some ⟨.op o k, track⟩ ∧
      exec opts env (P.daemon.message i env) i β o P.daemon = some (b, d') ∧
      P' = ⟨d', Function.update P.threads i (Thread.go (track.after o b) (k b))⟩ := by
  unfold Pool.turn at h
  split at h
  · rename_i β o k track ht
    obtain ⟨⟨b, d'⟩, hexec, hP'⟩ := Option.map_eq_some_iff.mp h
    exact ⟨β, o, k, track, b, d', ht, hexec, hP'.symm⟩
  · exact absurd h.symm (Option.some_ne_none P')

/-! ## One request after the other -/

section
variable {opts : Options} {env : Env} {i : SessId} {P : Pool} {d d' : Daemon}

/-- An operation leaves the message of its session. -/
theorem exec_message {m : Msg} {β : Type} {o : Op β} {b : β}
    (h : exec opts env m i β o d = some (b, d')) : d'.message i env = d.message i env := by
  obtain ⟨hbuf, htokens⟩ := exec_memory h
  unfold Daemon.message
  rw [hbuf, htokens]

/-- A program that is run to its end is performed by as many turns as it has operations. -/
theorem turns_of_run {p : Prog Op Unit} (threads : SessId → Option Thread) (track : Track)
    (h : p.run (exec opts env (d.message i env) i) d = some ((), d')) :
    ∃ n, runActs (Pool.move opts) ⟨d, Function.update threads i (Thread.go track p)⟩
      (List.replicate n (.turn i env)) = some ⟨d', Function.update threads i none⟩ := by
  induction p generalizing d track with
  | pure u =>
    obtain ⟨-, rfl⟩ := Prod.mk.inj (Option.some.inj h)
    exact ⟨0, rfl⟩
  | op o k ih =>
    rw [Prog.run_op, Option.bind_eq_some_iff] at h
    obtain ⟨⟨b, d₁⟩, hb, hk⟩ := h
    rw [← exec_message hb] at hk
    obtain ⟨n, hn⟩ := ih b (track.after o b) hk
    refine ⟨n + 1, ?_⟩
    have hturn : Pool.move opts ⟨d, Function.update threads i (Thread.go track (.op o k))⟩
        (.turn i env) =
        some ⟨d₁, Function.update threads i (Thread.go (track.after o b) (k b))⟩ := by
      show Pool.turn opts i env _ = _
      unfold Pool.turn
      simp only [Function.update_self, Thread.go, hb, Option.map_some, Function.update_idem]
    rw [List.replicate_succ, runActs_cons, hturn]
    exact hn

/-- A whole request is a run of the pool. -/
theorem request_moves {frame : List UInt8} (hidle : P.threads i = none)
    (h : step opts P.daemon (.request i frame env) = some d') :
    ∃ n, runActs (Pool.move opts) P (.receive i frame :: List.replicate n (.turn i env)) =
      some { P with daemon := d' } := by
  obtain ⟨hcond, hreq⟩ := Option.ite_none_right_eq_some.mp h
  obtain ⟨⟨u, d₁⟩, hrun, rfl⟩ := Option.map_eq_some_iff.mp hreq
  obtain ⟨n, hn⟩ := turns_of_run P.threads .start hrun
  refine ⟨n, ?_⟩
  have hreceive : P.move opts (.receive i frame) = some ⟨P.daemon.tokenise i frame,
      Function.update P.threads i
        (Thread.go .start (sessionRound opts (jsmnParse frame (P.daemon.tokens i)).1))⟩ :=
    if_pos ⟨hcond.1, by rw [hidle]; rfl, hcond.2⟩
  rw [runActs_cons, hreceive, Option.bind_some, hn, ← hidle, Function.update_eq_self]

/-- The end of a connection is a run of the pool. -/
theorem disconnect_moves (hidle : P.threads i = none)
    (h : step opts P.daemon (.disconnect i env) = some d') :
    ∃ n, runActs (Pool.move opts) P (.disconnect i :: List.replicate n (.turn i env)) =
      some { P with daemon := d' } := by
  obtain ⟨hlive, hleft⟩ := Option.ite_none_right_eq_some.mp h
  obtain ⟨⟨u, d₁⟩, hrun, rfl⟩ := Option.map_eq_some_iff.mp hleft
  obtain ⟨n, hn⟩ := turns_of_run P.threads .start hrun
  refine ⟨n, ?_⟩
  have hleave : P.move opts (.disconnect i) = some { P with
      threads := Function.update P.threads i (Thread.go .start (sessionDestroy opts)) } :=
    if_pos ⟨hlive, by rw [hidle]; rfl⟩
  rw [runActs_cons, hleave, Option.bind_some, hn, ← hidle, Function.update_eq_self]

/-- A step of `Control.Session` is a run of the pool. -/
theorem step_moves (hidle : P.Idle) {a : Action} (h : step opts P.daemon a = some d') :
    ∃ ms, runActs (Pool.move opts) P ms = some { P with daemon := d' } := by
  cases a with
  | connect fd stack =>
    obtain ⟨hcond, hd'⟩ := Option.ite_none_right_eq_some.mp h
    obtain rfl := Option.some.inj hd'
    have hmove : P.move opts (.connect fd stack) =
        some { P with daemon := P.daemon.sessionCreate fd stack } := if_pos hcond
    exact ⟨[.connect fd stack], by rw [runActs_cons, hmove]; rfl⟩
  | request i frame env =>
    obtain ⟨n, hn⟩ := request_moves (hidle i) h
    exact ⟨_, hn⟩
  | disconnect i env =>
    obtain ⟨n, hn⟩ := disconnect_moves (hidle i) h
    exact ⟨_, hn⟩
  | usb buf nowMs =>
    obtain rfl := Option.some.inj h
    exact ⟨[.usb buf nowMs], rfl⟩

/-- What the daemon reaches with one request after the other, the pool reaches too. -/
theorem steps_moves (hidle : P.Idle) {acts : List Action}
    (h : runActs (step opts) P.daemon acts = some d') :
    ∃ ms, runActs (Pool.move opts) P ms = some { P with daemon := d' } := by
  induction acts generalizing P with
  | nil =>
    obtain rfl := Option.some.inj h
    exact ⟨[], rfl⟩
  | cons a acts ih =>
    rw [runActs_cons, Option.bind_eq_some_iff] at h
    obtain ⟨d₁, hd₁, hrest⟩ := h
    obtain ⟨ms, hms⟩ := step_moves hidle hd₁
    obtain ⟨ms', hms'⟩ := ih (P := { P with daemon := d₁ }) hidle hrest
    refine ⟨ms ++ ms', ?_⟩
    rw [runActs_append, hms]
    exact hms'

/-- A run of the pool after requests one after the other. -/
theorem reachable_after {dev : Device} {o : Startup} {contextPackets : Bool} {acts : List Action}
    {ms : List Move} (hsteps : runActs (step opts) (Daemon.init dev o contextPackets) acts = some d)
    (hmoves : runActs (Pool.move opts) ⟨d, fun _ => none⟩ ms = some P) :
    Reachable (Pool.move opts) (Pool.init dev o contextPackets) P := by
  obtain ⟨ms', hms'⟩ := steps_moves (P := Pool.init dev o contextPackets) (fun _ => rfl) hsteps
  exact ⟨ms' ++ ms, by rw [runActs_append, hms']; exact hmoves⟩

end

end SlcRtld.Control
