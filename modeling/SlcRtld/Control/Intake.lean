import SlcRtld.Control.Turn
import SlcRtld.Wire.Framing
import Mathlib.Data.List.Forall2

/-!
# Receiving

The loop of `cp_session_thread` around the handling of a message: `recv_exact` for the four bytes of
a length and for the payload, each in as many pieces as the kernel likes, then `jsmn_parse`, then
the handling of `Control.Pool`. The payload goes to `msg_buf` piece by piece. `msg_buf` is static,
so the threads of all sessions share it, and a thread tokenises whatever it holds at that moment.

`Line.Agrees` relates a session's place in its loop to what a reader of its bytes alone
(`Wire.read`) makes of them. How well the texts agree is a parameter, as it depends on what the
other threads may do to the buffer.
-/

namespace SlcRtld.Control

open Libc Json Effect Wire Rtl

/-! ## The loop of a session's thread -/

/-- Where a session's thread is in its loop. -/
inductive Intake where
  /-- In `recv_exact` for the length. -/
  | length (got : List UInt8)
  /-- In `recv_exact` for the payload, of which some bytes are in `msg_buf`. -/
  | payload (len got : ℕ)
  /-- Before `jsmn_parse`. -/
  | complete (len : ℕ)
  /-- In the handling of the message. -/
  | handling
  /-- Past the loop. -/
  | left
deriving DecidableEq

/-- The thread uses `msg_buf`. -/
def Intake.inBuffer : Intake → Bool
  | .length _ => false
  | .payload _ got => 0 < got
  | .complete _ => true
  | .handling => true
  | .left => false

/-- The receiving side of a session. -/
structure Line where
  intake : Intake
  /-- The bytes that have arrived on its socket. -/
  arrived : List UInt8
  /-- The texts that have been tokenised. -/
  handled : List (List UInt8)

/-- A connection that nothing has arrived on. -/
def Line.fresh : Line := ⟨.length [], [], []⟩

/-- The daemon, and the receiving sides of its sessions. -/
structure Server where
  pool : Pool
  line : SessId → Line

/-- The server when `main` has started it. -/
def Server.init (dev : Rtl.Device) (o : Rtl.Startup) (contextPackets : Bool) : Server :=
  ⟨Pool.init dev o contextPackets, fun _ => ⟨.left, [], []⟩⟩

/-- A piece of a payload is stored in `msg_buf`, which is zero where nothing has been stored. -/
def Daemon.store (got : ℕ) (chunk : List UInt8) (d : Daemon) : Daemon :=
  { d with msgBuf := d.msgBuf.take got ++ List.replicate (got - d.msgBuf.length) 0 ++ chunk ++
    d.msgBuf.drop (got + chunk.length) }

/-- What happens next. -/
inductive Input where
  /-- A connection arrives on a socket; the thread's stack holds some tokens. -/
  | connect (fd : ℕ) (stack : List Tok)
  /-- `recv` gives a session's thread some bytes. -/
  | recv (i : SessId) (chunk : List UInt8)
  /-- `recv` gives it none. -/
  | hangUp (i : SessId)
  /-- The thread terminates the payload and tokenises it. -/
  | parse (i : SessId)
  /-- The thread performs the next operation of a request, or of the end of its session. -/
  | turn (i : SessId) (env : Env)
  /-- A USB buffer arrives at a time. -/
  | usb (buf : List UInt8) (nowMs : UInt64)

namespace Server

variable (opts : Options)

/-- A change to one session's receiving side. -/
def setLine (i : SessId) (l : Line) (S : Server) : Server :=
  { S with line := Function.update S.line i l }

/-- The thread is past its loop. -/
def leave (i : SessId) (l : Line) (S : Server) : Option Server :=
  (S.pool.move opts (.disconnect i)).map fun P => ⟨P, Function.update S.line i { l with intake := .left }⟩

/-- `recv` has given some bytes. -/
def recv (i : SessId) (chunk : List UInt8) (S : Server) : Option Server :=
  let l := { S.line i with arrived := (S.line i).arrived ++ chunk }
  match l.intake with
  | .length got =>
    if got.length + chunk.length < 4 then some (S.setLine i { l with intake := .length (got ++ chunk) })
    else if got.length + chunk.length = 4 then
      if readBe32 (got ++ chunk) = 0 ∨ maxMsgBytes < readBe32 (got ++ chunk) then S.leave opts i l
      else some (S.setLine i { l with intake := .payload (readBe32 (got ++ chunk)) 0 })
    else none
  | .payload len got =>
    if got + chunk.length ≤ len then
      some ({ S with pool.daemon := S.pool.daemon.store got chunk }.setLine i { l with
        intake := if got + chunk.length < len then .payload len (got + chunk.length)
          else .complete len })
    else none
  | _ => none

/-- The text that a thread is about to tokenise. -/
def text (len : ℕ) (S : Server) : List UInt8 := S.pool.daemon.msgBuf.take len

/-- One step. -/
def next (S : Server) : Input → Option Server
  | .connect fd stack =>
    (S.pool.move opts (.connect fd stack)).map fun P =>
      match (List.finRange maxSessions).find? fun i => (S.pool.daemon.sessions i).fd = 0 with
      | none => { S with pool := P }
      | some i => { S with pool := P }.setLine i Line.fresh
  | .recv i chunk =>
    if (S.pool.daemon.sessions i).live ∧ (S.pool.threads i).isNone ∧ chunk ≠ [] then
      S.recv opts i chunk
    else none
  | .hangUp i =>
    match (S.line i).intake with
    | .length _ => S.leave opts i (S.line i)
    | .payload _ _ => S.leave opts i (S.line i)
    | _ => none
  | .parse i =>
    match (S.line i).intake with
    | .complete len =>
      (S.pool.move opts (.receive i (S.text len))).map fun P => { S with pool := P }.setLine i
        ⟨.handling, (S.line i).arrived, (S.line i).handled ++ [S.text len]⟩
    | _ => none
  | .turn i env =>
    (S.pool.move opts (.turn i env)).map fun P =>
      -- the loop goes on when the message has been handled, unless the session has ended
      if (S.line i).intake = .handling ∧ (P.threads i).isNone then
        { S with pool := P }.setLine i { S.line i with
          intake := if (P.daemon.sessions i).live then .length [] else .left }
      else { S with pool := P }
  | .usb buf nowMs => (S.pool.move opts (.usb buf nowMs)).map fun P => { S with pool := P }

end Server

/-! ## A session's place in its loop -/

/-- Texts that agree still do with the same bytes after them. -/
structure Agreement (agree : List UInt8 → List UInt8 → Prop) : Prop where
  refl : ∀ a, agree a a
  append : ∀ a b c, agree a b → agree (a ++ c) (b ++ c)

/-- Requests agree if they are equal. -/
theorem agreement_eq : Agreement fun a b : List UInt8 => a = b :=
  ⟨fun _ => rfl, fun _ _ _ h => by rw [h]⟩

/-- Requests agree if they are equally long. -/
theorem agreement_length : Agreement fun a b : List UInt8 => a.length = b.length :=
  ⟨fun _ => rfl, fun _ _ _ h => by rw [List.length_append, List.length_append, h]⟩

/-- A session's place in its loop is where a reader of its bytes is, and the texts that it has
tokenised, and those in the buffer, agree with the messages that the reader has found. -/
def Line.Agrees (agree : List UInt8 → List UInt8 → Prop) (buf : List UInt8) (l : Line) : Prop :=
  let r := Wire.read maxMsgBytes l.arrived
  match l.intake with
  | .length got => got.length < 4 ∧ r.phase = .length got ∧ List.Forall₂ agree l.handled r.done
  | .payload len got => ∃ bs, r.phase = .body len bs ∧ bs.length = got ∧ got < len ∧
      len ≤ maxMsgBytes ∧ got ≤ buf.length ∧ (0 < got → agree (buf.take got) bs) ∧
      List.Forall₂ agree l.handled r.done
  | .complete len => r.phase = .length [] ∧ 0 < len ∧ len ≤ maxMsgBytes ∧ len ≤ buf.length ∧
      ∃ texts last, r.done = texts ++ [last] ∧ last.length = len ∧ agree (buf.take len) last ∧
        List.Forall₂ agree l.handled texts
  | .handling => r.phase = .length [] ∧ List.Forall₂ agree l.handled r.done ∧
      ∃ texts last, l.handled = texts ++ [last] ∧ agree (buf.take (last.length + 1)) (last ++ [0])
  | .left => List.Forall₂ agree l.handled r.done

section
variable {agree : List UInt8 → List UInt8 → Prop} {buf buf' arrived chunk got : List UInt8}
  {handled : List (List UInt8)} {len n : ℕ}

/-- A reader that waits, and then gets a chunk. -/
theorem read_of_phase {p : Wire.Phase} (h : (Wire.read maxMsgBytes arrived).phase = p)
    (chunk : List UInt8) :
    Wire.read maxMsgBytes (arrived ++ chunk) =
      Reader.feedAll maxMsgBytes ⟨(Wire.read maxMsgBytes arrived).done, p⟩ chunk := by
  rw [read_append, ← h]

/-- A part of a length. -/
theorem agrees_length_part (h : Line.Agrees agree buf ⟨.length got, arrived, handled⟩)
    (hlen : got.length + chunk.length < 4) :
    Line.Agrees agree buf ⟨.length (got ++ chunk), arrived ++ chunk, handled⟩ := by
  obtain ⟨-, hphase, hdone⟩ := h
  have hr := read_of_phase hphase chunk
  rw [Reader.feedAll_length_part hlen] at hr
  refine ⟨by rwa [List.length_append], ?_, ?_⟩
  · rw [hr]
  · rw [hr]
    exact hdone

/-- The rest of a length that is accepted. -/
theorem agrees_length (h : Line.Agrees agree buf ⟨.length got, arrived, handled⟩)
    (hlen : got.length + chunk.length = 4)
    (hok : ¬ (readBe32 (got ++ chunk) = 0 ∨ maxMsgBytes < readBe32 (got ++ chunk))) :
    Line.Agrees agree buf ⟨.payload (readBe32 (got ++ chunk)) 0, arrived ++ chunk, handled⟩ := by
  obtain ⟨hgot, hphase, hdone⟩ := h
  have hchunk : chunk ≠ [] := by
    rintro rfl
    exact Nat.ne_of_lt hgot hlen
  have hr := read_of_phase hphase chunk
  rw [Reader.feedAll_length hlen hchunk, Wire.Phase.ofLength, if_neg hok] at hr
  rw [not_or] at hok
  refine ⟨[], by rw [hr], rfl, Nat.pos_of_ne_zero hok.1, Nat.le_of_not_lt hok.2, Nat.zero_le _,
    fun hno => absurd hno (Nat.lt_irrefl 0), ?_⟩
  rw [hr]
  exact hdone

/-- The rest of a length that is not. -/
theorem agrees_refused (h : Line.Agrees agree buf ⟨.length got, arrived, handled⟩)
    (hlen : got.length + chunk.length = 4)
    (hbad : readBe32 (got ++ chunk) = 0 ∨ maxMsgBytes < readBe32 (got ++ chunk)) :
    Line.Agrees agree buf ⟨.left, arrived ++ chunk, handled⟩ := by
  obtain ⟨hgot, hphase, hdone⟩ := h
  have hchunk : chunk ≠ [] := by
    rintro rfl
    exact Nat.ne_of_lt hgot hlen
  have hr := read_of_phase hphase chunk
  rw [Reader.feedAll_length hlen hchunk, Wire.Phase.ofLength, if_pos hbad] at hr
  show List.Forall₂ agree handled (Wire.read maxMsgBytes (arrived ++ chunk)).done
  rw [hr]
  exact hdone

/-- `msg_buf` after a piece of a payload has been stored. -/
theorem store_take {d : Daemon} (hgot : n ≤ d.msgBuf.length) :
    (d.store n chunk).msgBuf.take (n + chunk.length) = d.msgBuf.take n ++ chunk := by
  have hpad : n - d.msgBuf.length = 0 := Nat.sub_eq_zero_of_le hgot
  have htake : (d.msgBuf.take n).length = n := List.length_take_of_le hgot
  have hbuf : (d.store n chunk).msgBuf =
      (d.msgBuf.take n ++ chunk) ++ d.msgBuf.drop (n + chunk.length) := by
    unfold Daemon.store
    rw [hpad, List.replicate_zero, List.append_nil]
  have hlen : n + chunk.length = (d.msgBuf.take n ++ chunk).length := by
    rw [List.length_append, htake]
  rw [hbuf, hlen, List.take_left]

/-- A chunk does not shrink the buffer. -/
theorem store_length {d : Daemon} :
    (d.store n chunk).msgBuf.length = max d.msgBuf.length (n + chunk.length) := by
  unfold Daemon.store
  simp only [List.length_append, List.length_take, List.length_replicate, List.length_drop]
  omega

variable (ha : Agreement agree)
include ha

/-- The bytes stored so far and the next ones. -/
theorem agree_store {d : Daemon} {bs : List UInt8} (hlen : bs.length = n) (hgot : n ≤ d.msgBuf.length)
    (hbuf : 0 < n → agree (d.msgBuf.take n) bs) :
    agree ((d.store n chunk).msgBuf.take (n + chunk.length)) (bs ++ chunk) := by
  rw [store_take hgot]
  refine ha.append _ _ _ ?_
  rcases Nat.eq_zero_or_pos n with rfl | hpos
  · rw [List.take_zero, List.eq_nil_of_length_eq_zero hlen]
    exact ha.refl []
  · exact hbuf hpos

/-- A part of a payload. -/
theorem agrees_payload_part {d : Daemon}
    (h : Line.Agrees agree d.msgBuf ⟨.payload len n, arrived, handled⟩)
    (hlen : n + chunk.length < len) :
    Line.Agrees agree (d.store n chunk).msgBuf
      ⟨.payload len (n + chunk.length), arrived ++ chunk, handled⟩ := by
  obtain ⟨bs, hphase, hbs, -, hmax, hgot, hbuf, hdone⟩ := h
  have hr := read_of_phase hphase chunk
  rw [Reader.feedAll_body_part (by rwa [hbs])] at hr
  refine ⟨bs ++ chunk, by rw [hr], by rw [List.length_append, hbs], hlen, hmax, ?_, fun _ => ?_, ?_⟩
  · rw [store_length]
    exact Nat.le_max_right ..
  · exact agree_store ha hbs hgot hbuf
  · rw [hr]
    exact hdone

/-- The rest of a payload. -/
theorem agrees_payload {d : Daemon}
    (h : Line.Agrees agree d.msgBuf ⟨.payload len n, arrived, handled⟩)
    (hlen : n + chunk.length = len) :
    Line.Agrees agree (d.store n chunk).msgBuf ⟨.complete len, arrived ++ chunk, handled⟩ := by
  obtain ⟨bs, hphase, hbs, hlt, hmax, hgot, hbuf, hdone⟩ := h
  have hchunk : chunk ≠ [] := by
    rintro rfl
    exact Nat.ne_of_lt hlt hlen
  have hr := read_of_phase hphase chunk
  rw [Reader.feedAll_body (by rwa [hbs]) hchunk] at hr
  refine ⟨by rw [hr], Nat.zero_lt_of_lt hlt, hmax, ?_, (Wire.read maxMsgBytes arrived).done, bs ++ chunk,
    by rw [hr], by rw [List.length_append, hbs, hlen], ?_, hdone⟩
  · rw [store_length, hlen]
    exact Nat.le_max_right ..
  · rw [← hlen]
    exact agree_store ha hbs hgot hbuf

/-- The thread tokenises the text in the buffer, which is terminated now. -/
theorem agrees_parse {d : Daemon}
    (h : Line.Agrees agree d.msgBuf ⟨.complete len, arrived, handled⟩) :
    Line.Agrees agree (d.receive (d.msgBuf.take len)).msgBuf
      ⟨.handling, arrived, handled ++ [d.msgBuf.take len]⟩ := by
  obtain ⟨hphase, -, -, hlen, texts, last, hdone, -, hlast, htexts⟩ := h
  refine ⟨hphase, ?_, handled, d.msgBuf.take len, rfl, ?_⟩
  · rw [hdone]
    exact List.rel_append htexts (.cons hlast .nil)
  · have hbuf : (d.receive (d.msgBuf.take len)).msgBuf = (d.msgBuf.take len ++ [0]) ++
        d.msgBuf.drop ((d.msgBuf.take len).length + 1) := rfl
    have htake : (d.msgBuf.take len).length + 1 = (d.msgBuf.take len ++ [0]).length := by
      rw [List.length_append, List.length_singleton]
    rw [hbuf, htake, List.take_left]
    exact ha.refl _

end

/-! ## What a step does -/

/-- What a step of the server does. -/
inductive Took (opts : Options) (S : Server) : Input → Server → Prop where
  | full (fd : ℕ) (stack : List Tok) (P : Pool)
      (hmove : S.pool.move opts (.connect fd stack) = some P) :
      Took opts S (.connect fd stack) { S with pool := P }
  | connect (fd : ℕ) (stack : List Tok) (P : Pool) (i : SessId)
      (hmove : S.pool.move opts (.connect fd stack) = some P) :
      Took opts S (.connect fd stack) ({ S with pool := P }.setLine i Line.fresh)
  | lengthPart (i : SessId) (chunk got : List UInt8) (hintake : (S.line i).intake = .length got)
      (hlen : got.length + chunk.length < 4) :
      Took opts S (.recv i chunk) (S.setLine i
        ⟨.length (got ++ chunk), (S.line i).arrived ++ chunk, (S.line i).handled⟩)
  | length (i : SessId) (chunk got : List UInt8) (hintake : (S.line i).intake = .length got)
      (hlen : got.length + chunk.length = 4)
      (hok : ¬ (readBe32 (got ++ chunk) = 0 ∨ maxMsgBytes < readBe32 (got ++ chunk))) :
      Took opts S (.recv i chunk) (S.setLine i
        ⟨.payload (readBe32 (got ++ chunk)) 0, (S.line i).arrived ++ chunk, (S.line i).handled⟩)
  | refuse (i : SessId) (chunk got : List UInt8) (P : Pool) (hintake : (S.line i).intake = .length got)
      (hlen : got.length + chunk.length = 4)
      (hbad : readBe32 (got ++ chunk) = 0 ∨ maxMsgBytes < readBe32 (got ++ chunk))
      (hmove : S.pool.move opts (.disconnect i) = some P) :
      Took opts S (.recv i chunk) ({ S with pool := P }.setLine i
        ⟨.left, (S.line i).arrived ++ chunk, (S.line i).handled⟩)
  | payloadPart (i : SessId) (chunk : List UInt8) (len got : ℕ)
      (hintake : (S.line i).intake = .payload len got) (hlen : got + chunk.length < len) :
      Took opts S (.recv i chunk) ({ S with pool.daemon := S.pool.daemon.store got chunk }.setLine i
        ⟨.payload len (got + chunk.length), (S.line i).arrived ++ chunk, (S.line i).handled⟩)
  | payload (i : SessId) (chunk : List UInt8) (len got : ℕ)
      (hintake : (S.line i).intake = .payload len got) (hlen : got + chunk.length = len) :
      Took opts S (.recv i chunk) ({ S with pool.daemon := S.pool.daemon.store got chunk }.setLine i
        ⟨.complete len, (S.line i).arrived ++ chunk, (S.line i).handled⟩)
  | hangUp (i : SessId) (P : Pool)
      (hintake : (∃ got, (S.line i).intake = .length got) ∨ ∃ len got, (S.line i).intake = .payload len got)
      (hmove : S.pool.move opts (.disconnect i) = some P) :
      Took opts S (.hangUp i) ({ S with pool := P }.setLine i { S.line i with intake := .left })
  | parse (i : SessId) (len : ℕ) (P : Pool) (hintake : (S.line i).intake = .complete len)
      (hmove : S.pool.move opts (.receive i (S.text len)) = some P) :
      Took opts S (.parse i) ({ S with pool := P }.setLine i
        ⟨.handling, (S.line i).arrived, (S.line i).handled ++ [S.text len]⟩)
  | turn (i : SessId) (env : Env) (P : Pool) (hmove : S.pool.move opts (.turn i env) = some P) :
      Took opts S (.turn i env) { S with pool := P }
  | finish (i : SessId) (env : Env) (P : Pool) (hmove : S.pool.move opts (.turn i env) = some P)
      (hintake : (S.line i).intake = .handling) :
      Took opts S (.turn i env) ({ S with pool := P }.setLine i { S.line i with
        intake := if (P.daemon.sessions i).live then .length [] else .left })
  | usb (buf : List UInt8) (nowMs : UInt64) (P : Pool)
      (hmove : S.pool.move opts (.usb buf nowMs) = some P) :
      Took opts S (.usb buf nowMs) { S with pool := P }

section
variable {opts : Options} {S S' : Server} {a : Input}

/-- The bytes that `recv` gives go where the thread is. -/
theorem recv_took {i : SessId} {chunk : List UInt8} (h : S.recv opts i chunk = some S') :
    Took opts S (.recv i chunk) S' := by
  unfold Server.recv at h
  cases hintake : (S.line i).intake with
  | length got =>
    simp only [hintake] at h
    split_ifs at h with hpart hwhole hbad
    · obtain rfl := Option.some.inj h
      exact .lengthPart i chunk got hintake hpart
    · obtain ⟨P, hmove, rfl⟩ := Option.map_eq_some_iff.mp h
      exact .refuse i chunk got P hintake hwhole hbad hmove
    · obtain rfl := Option.some.inj h
      exact .length i chunk got hintake hwhole hbad
  | payload len got =>
    simp only [hintake, Option.ite_none_right_eq_some] at h
    obtain ⟨hle, h⟩ := h
    obtain rfl := Option.some.inj h
    split_ifs with hlt
    · exact .payloadPart i chunk len got hintake hlt
    · exact .payload i chunk len got hintake (Nat.le_antisymm hle (Nat.le_of_not_lt hlt))
  | complete | handling | left =>
    simp only [hintake] at h
    exact absurd h.symm (Option.some_ne_none S')

/-- The server does nothing else. -/
theorem next_took (h : S.next opts a = some S') : Took opts S a S' := by
  unfold Server.next at h
  cases a with
  | connect fd stack =>
    obtain ⟨P, hmove, rfl⟩ := Option.map_eq_some_iff.mp h
    cases (List.finRange maxSessions).find? fun i => (S.pool.daemon.sessions i).fd = 0 with
    | none => exact .full fd stack P hmove
    | some i => exact .connect fd stack P i hmove
  | recv i chunk => exact recv_took (Option.ite_none_right_eq_some.mp h).2
  -- a client may hang up in the middle of a length or of a payload
  | hangUp i =>
    cases hintake : (S.line i).intake with
    | length got =>
      simp only [hintake] at h
      obtain ⟨P, hmove, rfl⟩ := Option.map_eq_some_iff.mp h
      exact .hangUp i P (.inl ⟨got, hintake⟩) hmove
    | payload len got =>
      simp only [hintake] at h
      obtain ⟨P, hmove, rfl⟩ := Option.map_eq_some_iff.mp h
      exact .hangUp i P (.inr ⟨len, got, hintake⟩) hmove
    | complete | handling | left =>
      simp only [hintake] at h
      exact absurd h.symm (Option.some_ne_none S')
  | parse i =>
    cases hintake : (S.line i).intake with
    | complete len =>
      simp only [hintake] at h
      obtain ⟨P, hmove, rfl⟩ := Option.map_eq_some_iff.mp h
      exact .parse i len P hintake hmove
    | length | payload | handling | left =>
      simp only [hintake] at h
      exact absurd h.symm (Option.some_ne_none S')
  -- the last move of the handler frees the intake for the next frame
  | turn i env =>
    obtain ⟨P, hmove, rfl⟩ := Option.map_eq_some_iff.mp h
    by_cases hdone : (S.line i).intake = .handling ∧ (P.threads i).isNone
    · rw [if_pos hdone]
      exact .finish i env P hmove hdone.1
    · rw [if_neg hdone]
      exact .turn i env P hmove
  | usb buf nowMs =>
    obtain ⟨P, hmove, rfl⟩ := Option.map_eq_some_iff.mp h
    exact .usb buf nowMs P hmove

/-- The start of a request terminates the text in `msg_buf`. -/
theorem receive_msgBuf {P P' : Pool} {i : SessId} {frame : List UInt8}
    (h : P.move opts (.receive i frame) = some P') :
    P'.daemon.msgBuf = (P.daemon.receive frame).msgBuf := by
  obtain ⟨-, hP'⟩ := Option.ite_none_right_eq_some.mp h
  obtain rfl := Option.some.inj hP'
  rfl

/-- A step that stores something in `msg_buf`. -/
inductive Stores (S : Server) : Input → SessId → Prop where
  | recv (i : SessId) (chunk : List UInt8) (len got : ℕ)
      (hintake : (S.line i).intake = .payload len got) : Stores S (.recv i chunk) i
  | parse (i : SessId) (len : ℕ) (hintake : (S.line i).intake = .complete len) :
      Stores S (.parse i) i

variable {agree : List UInt8 → List UInt8 → Prop}

/-- A step keeps a session's place, if what others store in the buffer does no harm to it. -/
theorem agrees_took (ha : Agreement agree) {j : SessId}
    (h : (S.line j).Agrees agree S.pool.daemon.msgBuf) (ht : Took opts S a S')
    (hothers : ∀ i, Stores S a i → j ≠ i → (S.line j).Agrees agree S'.pool.daemon.msgBuf) :
    (S'.line j).Agrees agree S'.pool.daemon.msgBuf := by
  -- one line changes, and the buffer is as before, or it is that line's thread that stores in it
  have hone : ∀ {i l} {P : Pool}, (j = i → l.Agrees agree P.daemon.msgBuf) →
      (j ≠ i → (S.line j).Agrees agree P.daemon.msgBuf) →
      (({ S with pool := P }.setLine i l).line j).Agrees agree P.daemon.msgBuf := by
    intro i l P hl hrest
    show (Function.update S.line i l j).Agrees agree P.daemon.msgBuf
    by_cases hji : j = i
    · rw [hji, Function.update_self]
      exact hl hji
    · rw [Function.update_of_ne hji]
      exact hrest hji
  have hsame : ∀ {P : Pool} {m : Move}, S.pool.move opts m = some P →
      (∀ i frame, m ≠ .receive i frame) → (S.line j).Agrees agree P.daemon.msgBuf := by
    intro P m hmove hm
    rw [(move_memory hmove hm).1]
    exact h
  have hline : ∀ {i k}, (S.line i).intake = k → j = i →
      Line.Agrees agree S.pool.daemon.msgBuf ⟨k, (S.line i).arrived, (S.line i).handled⟩ := by
    rintro i k rfl rfl
    exact h
  cases ht with
  | full fd stack P hmove => exact hsame hmove fun _ _ => Move.noConfusion
  | connect fd stack P i hmove =>
    exact hone (fun _ => ⟨Nat.zero_lt_succ _, rfl, .nil⟩) fun _ =>
      hsame hmove fun _ _ => Move.noConfusion
  | lengthPart i chunk got hintake hlen =>
    exact hone (P := S.pool) (fun hj => agrees_length_part (hline hintake hj) hlen) fun _ => h
  | length i chunk got hintake hlen hok =>
    exact hone (P := S.pool) (fun hj => agrees_length (hline hintake hj) hlen hok) fun _ => h
  | refuse i chunk got P hintake hlen hbad hmove =>
    refine hone (P := P) (fun hj => ?_) fun _ => hsame hmove fun _ _ => Move.noConfusion
    rw [(move_memory hmove fun _ _ => Move.noConfusion).1]
    exact agrees_refused (hline hintake hj) hlen hbad
  | payloadPart i chunk len got hintake hlen =>
    exact hone (fun hj => agrees_payload_part ha (hline hintake hj) hlen)
      (hothers i (.recv i chunk len got hintake))
  | payload i chunk len got hintake hlen =>
    exact hone (fun hj => agrees_payload ha (hline hintake hj) hlen)
      (hothers i (.recv i chunk len got hintake))
  | hangUp i P hintake hmove =>
    refine hone (P := P) (fun hj => ?_) fun _ => hsame hmove fun _ _ => Move.noConfusion
    rcases hintake with ⟨got, hintake⟩ | ⟨len, got, hintake⟩
    · exact (hline hintake hj).2.2
    · obtain ⟨bs, -, -, -, -, -, -, hdone⟩ := hline hintake hj
      exact hdone
  | parse i len P hintake hmove =>
    refine hone (P := P) (fun hj => ?_) (hothers i (.parse i len hintake))
    rw [receive_msgBuf hmove]
    exact agrees_parse ha (hline hintake hj)
  | turn i env P hmove => exact hsame hmove fun _ _ => Move.noConfusion
  | finish i env P hmove hintake =>
    refine hone (P := P) (fun hj => ?_) fun _ => hsame hmove fun _ _ => Move.noConfusion
    obtain ⟨hphase, hdone, -⟩ := hline hintake hj
    cases (P.daemon.sessions i).live with
    | true => exact ⟨Nat.zero_lt_succ _, hphase, hdone⟩
    | false => exact hdone
  | usb buf nowMs P hmove => exact hsame hmove fun _ _ => Move.noConfusion

end

end SlcRtld.Control
