import SlcRtld.Config
import SlcRtld.Effect.Run
import SlcRtld.Wire.Framing
import Mathlib.Logic.Function.Basic

/-!
# The writers of the control sockets

The threads that write to the clients' sockets, one system call at a time: `send_framed` with its
mutex, the length it writes first and the loop around `send`, which may take fewer bytes than it is
offered; `broadcast`, which holds the mutex of the session table over its whole loop; and the ends
of a connection's life, `session_create` in the accept thread and the last part of
`session_destroy`. A file descriptor is a number that the kernel gives out again once it has been
closed; a connection is what the bytes arrive at, and is never given out twice.

What the threads do between two writes does not matter here: a thread that is `running` may at any
time answer its client, announce something to the others, complete `hello` or end its session.

Two things are taken for granted of the kernel. Every `send` returns, with some of the bytes
accepted or with a failure: a `send` that blocks for ever, to a client that does not read, has no
counterpart here. And a connection on which one `send` has failed is broken, so that every later one
on it fails too: a `send` that a signal has interrupted, after which the next one may succeed, has
none either.
-/

namespace SlcRtld.Control

open Wire

namespace Sockets

/-- A thread. -/
abbrev Tid := ℕ

/-- A file descriptor. -/
abbrev Fd := ℕ

/-- A connection. -/
abbrev Conn := ℕ

/-! ## Threads -/

/-- Where a thread is in `send_framed`. -/
inductive Stage where
  /-- Before `pthread_mutex_lock`. -/
  | lock
  /-- Before the `send` of the length. -/
  | length
  /-- At the head of the loop, with the bytes sent so far. -/
  | body (sent : ℕ)
  /-- After a `send` that failed. -/
  | unlock
deriving DecidableEq

/-- The variables of `send_framed`. -/
structure Call where
  slot : SessId
  fd : Fd
  message : Message
  stage : Stage
deriving DecidableEq

/-- A broadcast; the ticket tells it from every other one. -/
structure Round where
  ticket : ℕ
  skip : Option SessId
  message : Message
deriving DecidableEq

/-- Where a thread is. -/
inductive Point where
  /-- In code that writes to no socket. -/
  | running
  /-- In `send_framed`, called for the thread's own client or from the loop of a broadcast. -/
  | calling (round : Option Round) (c : Call)
  /-- In `broadcast`, before `pthread_mutex_lock`. -/
  | entering (b : Round)
  /-- At the head of the loop of `broadcast`. -/
  | looping (b : Round) (i : ℕ)
  /-- In `session_destroy`, before the last `pthread_mutex_lock`. -/
  | leaving
  /-- In `session_destroy`, before `close`. -/
  | closing (fd : Fd)
  | finished
deriving DecidableEq

/-- Whose thread it is. -/
inductive Role where
  | session (i : SessId)
  | usb
deriving DecidableEq

/-- The slot of a session's thread. -/
def Role.slot : Role → Option SessId
  | .session i => some i
  | .usb => none

/-- A thread: what it is for, and where it is. -/
structure Task where
  role : Role
  point : Point
deriving DecidableEq

/-! ## The state -/

/-- The fields of `Session` that decide who is written to. -/
structure Slot where
  /-- Zero marks a free slot. -/
  fd : Fd
  /-- The state is no longer `SESSION_AWAIT_HELLO`. -/
  greeted : Bool
  /-- `send_mutex`, and who holds it. -/
  sendMutex : Option Tid
deriving DecidableEq

/-- A slot after `memset`. -/
def Slot.free : Slot := ⟨0, false, none⟩

/-- A frame whose length has been written. -/
structure Begun where
  conn : Conn
  message : Message
  /-- The broadcast it belongs to. -/
  ticket : Option ℕ
deriving DecidableEq

end Sockets

open Sockets in
/-- The session table, the kernel's descriptors and the threads. -/
structure Sockets where
  /-- `s_sessions`. -/
  slots : SessId → Slot
  /-- `s_table_mutex`, and who holds it. -/
  tableMutex : Option Tid
  /-- The open descriptors. -/
  socket : Fd → Option Conn
  /-- A `send` on the connection has failed. -/
  failed : Conn → Bool
  /-- The bytes that the kernel has accepted. -/
  written : Conn → List UInt8
  /-- The connections so far. -/
  conns : Conn
  task : Tid → Task
  /-- The threads so far. -/
  born : Tid
  /-- The broadcasts so far. -/
  tickets : ℕ
  /-- The frames so far, in order. -/
  begun : List Begun

namespace Sockets

/-- The daemon without clients; the USB thread is there. -/
def init : Sockets where
  slots := fun _ => Slot.free
  tableMutex := none
  socket := fun _ => none
  failed := fun _ => false
  written := fun _ => []
  conns := 0
  task := Function.update (fun _ => ⟨.usb, .finished⟩) 0 ⟨.usb, .running⟩
  born := 1
  tickets := 0
  begun := []

/-- The messages begun on a connection, in order. -/
def begunTo (S : Sockets) (c : Conn) : List Message :=
  (S.begun.filter (·.conn = c)).map (·.message)

/-- A thread goes on to a point. -/
def goTo (t : Tid) (p : Point) (S : Sockets) : Sockets :=
  { S with task := Function.update S.task t ⟨(S.task t).role, p⟩ }

/-- A change to one slot. -/
def setSlot (i : SessId) (s : Slot) (S : Sockets) : Sockets :=
  { S with slots := Function.update S.slots i s }

/-- `pthread_mutex_lock` or `pthread_mutex_unlock` on a `send_mutex`. -/
def setMutex (i : SessId) (holder : Option Tid) (S : Sockets) : Sockets :=
  S.setSlot i { S.slots i with sendMutex := holder }

/-- The kernel accepts bytes for a connection. -/
def put (c : Conn) (bs : List UInt8) (S : Sockets) : Sockets :=
  { S with written := Function.update S.written c (S.written c ++ bs) }

/-- The kernel accepts the length of a message. -/
def beginFrame (c : Conn) (m : Message) (ticket : Option ℕ) (S : Sockets) : Sockets :=
  { S.put c m.header with begun := S.begun ++ [⟨c, m, ticket⟩] }

/-- A `send` on a connection fails. -/
def breakConn (c : Conn) (S : Sockets) : Sockets :=
  { S with failed := Function.update S.failed c true }

section
variable {t u : Tid} {p : Point} {i j : SessId} {s : Slot} {S : Sockets}

/-- A thread that goes on leaves the slots. -/
@[simp] theorem goTo_slots : (S.goTo t p).slots = S.slots := rfl

/-- It leaves the mutex of the table. -/
@[simp] theorem goTo_tableMutex : (S.goTo t p).tableMutex = S.tableMutex := rfl

/-- It leaves the descriptors. -/
@[simp] theorem goTo_socket : (S.goTo t p).socket = S.socket := rfl

/-- It leaves what has failed. -/
@[simp] theorem goTo_failed : (S.goTo t p).failed = S.failed := rfl

/-- It leaves what has been written. -/
@[simp] theorem goTo_written : (S.goTo t p).written = S.written := rfl

/-- The thread is where it went. -/
theorem goTo_task_self : (S.goTo t p).task t = ⟨(S.task t).role, p⟩ := Function.update_self ..

/-- The others stay. -/
theorem goTo_task_ne (h : u ≠ t) : (S.goTo t p).task u = S.task u := Function.update_of_ne h ..

/-- The thread is where it went. -/
@[simp] theorem goTo_point : ((S.goTo t p).task t).point = p := by rw [goTo_task_self]

/-- No thread changes what it is for. -/
@[simp] theorem goTo_role : ((S.goTo t p).task u).role = (S.task u).role := by
  by_cases h : u = t
  · rw [h, goTo_task_self]
  · rw [goTo_task_ne h]

/-- The slot that is set. -/
@[simp] theorem setSlot_self : (S.setSlot i s).slots i = s := Function.update_self ..

/-- The others stay. -/
theorem setSlot_ne (h : j ≠ i) : (S.setSlot i s).slots j = S.slots j := Function.update_of_ne h ..

end

/-! ## Steps -/

/-- What a thread does next, where it or the kernel has a choice. -/
inductive Choice where
  /-- The session's thread answers its client, or sends it an event. -/
  | reply (m : Message)
  /-- The thread announces something, its own client left out or not. -/
  | announce (skipSelf : Bool) (m : Message)
  /-- The session completes `hello`. -/
  | hello
  /-- The session ends. -/
  | destroy
  /-- The thread goes on. -/
  | step
  /-- The kernel accepts some of the four bytes of a length. -/
  | sendLength (n : ℕ)
  /-- The kernel accepts some bytes of a message. -/
  | send (n : ℕ)
  /-- The kernel accepts none. -/
  | fail

/-- A step inside `send_framed`: the state, and the stage that follows unless it returns. A `send`
that is pending can always fail, and on a connection on which one has failed every `send` does. -/
def callStep (t : Tid) (ticket : Option ℕ) (c : Call) (S : Sockets) :
    Choice → Option (Sockets × Option Stage)
  | .step =>
    match c.stage with
    | .lock =>
      if (S.slots c.slot).sendMutex = none then some (S.setMutex c.slot (some t), some .length)
      else none
    | .body sent =>
      if c.message.text.length ≤ sent then some (S.setMutex c.slot none, none) else none
    | .unlock => some (S.setMutex c.slot none, none)
    | .length => none
  | .sendLength n =>
    match S.socket c.fd, c.stage with
    | some conn, .length =>
      if S.failed conn = false ∧ n ≤ 4 then
        -- a part of the length counts as a failure, but its bytes are on their way
        if n = 4 then some (S.beginFrame conn c.message ticket, some (.body 0))
        else some (S.put conn (c.message.header.take n), some .unlock)
      else none
    | _, _ => none
  | .send n =>
    match S.socket c.fd, c.stage with
    | some conn, .body sent =>
      if S.failed conn = false ∧ 1 ≤ n ∧ sent + n ≤ c.message.text.length then
        some (S.put conn ((c.message.text.drop sent).take n), some (.body (sent + n)))
      else none
    | _, _ => none
  | .fail =>
    let broken := (S.socket c.fd).elim S S.breakConn
    match c.stage with
    | .length => some (broken, some .unlock)
    | .body sent => if sent < c.message.text.length then some (broken, some .unlock) else none
    | _ => none
  | _ => none

/-- Where a thread is after a step inside `send_framed`. -/
def Point.after (round : Option Round) (c : Call) : Option Stage → Point
  | some stage => .calling round { c with stage := stage }
  | none => round.elim .running fun b => .looping b (c.slot + 1)

/-- The head of the loop of `broadcast`. -/
def loopStep (t : Tid) (b : Round) (i : ℕ) (S : Sockets) : Sockets :=
  if h : i < maxSessions then
    if (S.slots ⟨i, h⟩).fd = 0 ∨ b.skip = some ⟨i, h⟩ ∨ (S.slots ⟨i, h⟩).greeted = false then
      S.goTo t (.looping b (i + 1))
    else
      S.goTo t (.calling (some b) ⟨⟨i, h⟩, (S.slots ⟨i, h⟩).fd, b.message, .lock⟩)
  else
    { S with tableMutex := none }.goTo t .running

/-- A step of a thread. -/
def go (t : Tid) (x : Choice) (S : Sockets) : Option Sockets :=
  match (S.task t).point, (S.task t).role, x with
  | .running, .session i, .reply m =>
    if (S.slots i).fd ≠ 0 then
      some (S.goTo t (.calling none ⟨i, (S.slots i).fd, m, .lock⟩))
    else none
  | .running, role, .announce skipSelf m =>
    some ({ S with tickets := S.tickets + 1 }.goTo t
      (.entering ⟨S.tickets, if skipSelf then role.slot else none, m⟩))
  | .running, .session i, .hello => some (S.setSlot i { S.slots i with greeted := true })
  | .running, .session _, .destroy => some (S.goTo t .leaving)
  | .calling round c, _, x =>
    (S.callStep t (round.map Round.ticket) c x).map fun r => r.1.goTo t (.after round c r.2)
  | .entering b, _, .step =>
    if S.tableMutex = none then some ({ S with tableMutex := some t }.goTo t (.looping b 0))
    else none
  | .looping b i, _, .step => some (S.loopStep t b i)
  | .leaving, .session i, .step =>
    if S.tableMutex = none then
      some ((S.setSlot i Slot.free).goTo t (.closing (S.slots i).fd))
    else none
  | .closing fd, _, .step =>
    some ({ S with socket := Function.update S.socket fd none }.goTo t .finished)
  | _, _, _ => none

/-- `session_create`, and the start of the session's thread. -/
def create (fd : Fd) (i : SessId) (S : Sockets) : Sockets :=
  { S.setSlot i ⟨fd, false, none⟩ with
    socket := Function.update S.socket fd (some S.conns)
    conns := S.conns + 1
    task := Function.update S.task S.born ⟨.session i, .running⟩
    born := S.born + 1 }

section
variable {S : Sockets} {fd fd' : Fd} {i j : SessId} {u : Tid}

/-! What is new after `create`, and what is as before. -/

/-- The new thread serves the slot. -/
theorem create_task_born : (S.create fd i).task S.born = ⟨.session i, .running⟩ :=
  Function.update_self ..

/-- The threads that there were go on. -/
theorem create_task_ne (hu : u ≠ S.born) : (S.create fd i).task u = S.task u := Function.update_of_ne hu ..

/-- The slot has the descriptor. -/
theorem create_fd_self : ((S.create fd i).slots i).fd = fd :=
  congrArg Slot.fd (setSlot_self (s := ⟨fd, false, none⟩))

/-- The other slots stay. -/
theorem create_slots_ne (hj : j ≠ i) : (S.create fd i).slots j = S.slots j := setSlot_ne hj

/-- The descriptor is a new connection. -/
theorem create_socket_self : (S.create fd i).socket fd = some S.conns := Function.update_self ..

/-- The others stay open or closed. -/
theorem create_socket_ne (hfd : fd' ≠ fd) : (S.create fd i).socket fd' = S.socket fd' :=
  Function.update_of_ne hfd ..

end

/-- The steps. -/
inductive Act where
  /-- A connection arrives on a descriptor that is not open. -/
  | accept (fd : Fd)
  /-- A thread makes a step. -/
  | go (t : Tid) (x : Choice)

/-- One step. A connection that finds no free slot is closed at once. -/
def step (S : Sockets) : Act → Option Sockets
  | .accept fd =>
    if 0 < fd ∧ S.socket fd = none ∧ S.tableMutex = none then
      some (((List.finRange maxSessions).find? fun i => (S.slots i).fd = 0).elim S fun i =>
        S.create fd i)
    else none
  | .go t x => S.go t x

/-- The kernel does not accept a length in part. -/
def lengthWhole : Act → Bool
  | .go _ (.sendLength n) => n = 4
  | _ => true

/-- An empty object. -/
def emptyObject : Message := ⟨[0x7b, 0x7d], by decide, by decide⟩

/-! ## What a step does -/

/-- What a step inside `send_framed` does. -/
inductive Called (t : Tid) (ticket : Option ℕ) (c : Call) (S : Sockets) :
    Choice → Sockets → Option Stage → Prop where
  | lock (hstage : c.stage = .lock) (hfree : (S.slots c.slot).sendMutex = none) :
      Called t ticket c S .step (S.setMutex c.slot (some t)) (some .length)
  | length (conn : Conn) (hstage : c.stage = .length) (hsocket : S.socket c.fd = some conn)
      (hok : S.failed conn = false) :
      Called t ticket c S (.sendLength 4) (S.beginFrame conn c.message ticket) (some (.body 0))
  | lengthPart (conn : Conn) (n : ℕ) (hstage : c.stage = .length)
      (hsocket : S.socket c.fd = some conn) (hok : S.failed conn = false) (hn : n ≠ 4) :
      Called t ticket c S (.sendLength n) (S.put conn (c.message.header.take n)) (some .unlock)
  | body (conn : Conn) (sent n : ℕ) (hstage : c.stage = .body sent)
      (hsocket : S.socket c.fd = some conn) (hok : S.failed conn = false) (hpos : 1 ≤ n)
      (hn : sent + n ≤ c.message.text.length) :
      Called t ticket c S (.send n) (S.put conn ((c.message.text.drop sent).take n))
        (some (.body (sent + n)))
  | fail (hstage : c.stage = .length ∨ ∃ sent, c.stage = .body sent ∧ sent < c.message.text.length) :
      Called t ticket c S .fail ((S.socket c.fd).elim S S.breakConn) (some .unlock)
  | release
      (hstage : c.stage = .unlock ∨ ∃ sent, c.stage = .body sent ∧ c.message.text.length ≤ sent) :
      Called t ticket c S .step (S.setMutex c.slot none) none

section
variable {t : Tid} {ticket : Option ℕ} {c : Call} {S S' : Sockets} {x : Choice}

/-- What `callStep` computes is one of the cases of `Called`. -/
theorem callStep_called {stage : Option Stage} (h : S.callStep t ticket c x = some (S', stage)) :
    Called t ticket c S x S' stage := by
  cases x with
  -- the mutex is taken, or given back after the last byte or a failure
  | step =>
    unfold callStep at h
    cases hstage : c.stage with
    | lock =>
      simp only [hstage, Option.ite_none_right_eq_some, Option.some.injEq, Prod.mk.injEq] at h
      obtain ⟨hfree, rfl, rfl⟩ := h
      exact .lock hstage hfree
    | length => simp [hstage] at h
    | body sent =>
      simp only [hstage, Option.ite_none_right_eq_some, Option.some.injEq, Prod.mk.injEq] at h
      obtain ⟨hall, rfl, rfl⟩ := h
      exact .release (.inr ⟨sent, hstage, hall⟩)
    | unlock =>
      simp only [hstage, Option.some.injEq, Prod.mk.injEq] at h
      obtain ⟨rfl, rfl⟩ := h
      exact .release (.inl hstage)
  -- a length that is accepted in part ends the frame
  | sendLength n =>
    unfold callStep at h
    cases hsocket : S.socket c.fd with
    | none => simp [hsocket] at h
    | some conn =>
      cases hstage : c.stage with
      | length =>
        simp only [hsocket, hstage, Option.ite_none_right_eq_some] at h
        obtain ⟨⟨hok, -⟩, h⟩ := h
        split_ifs at h with hn
        · obtain ⟨rfl, rfl⟩ := Prod.mk.inj (Option.some.inj h)
          exact hn ▸ .length conn hstage hsocket hok
        · obtain ⟨rfl, rfl⟩ := Prod.mk.inj (Option.some.inj h)
          exact .lengthPart conn n hstage hsocket hok hn
      | lock | body | unlock => simp [hsocket, hstage] at h
  | send n =>
    unfold callStep at h
    cases hsocket : S.socket c.fd with
    | none => simp [hsocket] at h
    | some conn =>
      cases hstage : c.stage with
      | body sent =>
        simp only [hsocket, hstage, Option.ite_none_right_eq_some, Option.some.injEq,
          Prod.mk.injEq] at h
        obtain ⟨⟨hok, hpos, hn⟩, rfl, rfl⟩ := h
        exact .body conn sent n hstage hsocket hok hpos hn
      | lock | length | unlock => simp [hsocket, hstage] at h
  -- the kernel may fail a send at any time before the last byte
  | fail =>
    unfold callStep at h
    cases hstage : c.stage with
    | length =>
      simp only [hstage, Option.some.injEq, Prod.mk.injEq] at h
      obtain ⟨rfl, rfl⟩ := h
      exact .fail (.inl hstage)
    | body sent =>
      simp only [hstage, Option.ite_none_right_eq_some, Option.some.injEq, Prod.mk.injEq] at h
      obtain ⟨hsome, rfl, rfl⟩ := h
      exact .fail (.inr ⟨sent, hstage, hsome⟩)
    | lock | unlock => simp [hstage] at h
  | reply | announce | hello | destroy => simp [callStep] at h

end

/-- What no step inside `send_framed` changes. -/
structure Framed (S S' : Sockets) : Prop where
  fd : ∀ i, (S'.slots i).fd = (S.slots i).fd
  greeted : ∀ i, (S'.slots i).greeted = (S.slots i).greeted
  tableMutex : S'.tableMutex = S.tableMutex
  socket : S'.socket = S.socket
  conns : S'.conns = S.conns
  task : S'.task = S.task
  born : S'.born = S.born
  tickets : S'.tickets = S.tickets

/-- A mutex is taken or given back. -/
theorem framed_setMutex (i : SessId) (holder : Option Tid) (S : Sockets) :
    Framed S (S.setMutex i holder) := by
  have hslot : ∀ j, ((S.setMutex i holder).slots j).fd = (S.slots j).fd ∧
      ((S.setMutex i holder).slots j).greeted = (S.slots j).greeted := by
    intro j
    unfold setMutex
    by_cases hj : j = i
    · rw [hj, setSlot_self]
      exact ⟨rfl, rfl⟩
    · rw [setSlot_ne hj]
      exact ⟨rfl, rfl⟩
  exact ⟨fun j => (hslot j).1, fun j => (hslot j).2, rfl, rfl, rfl, rfl, rfl, rfl⟩

/-- A step of `send_framed` changes the mutex of its slot, and what is written to its connection. -/
theorem Called.framed {t : Tid} {ticket : Option ℕ} {c : Call} {S S' : Sockets} {x : Choice}
    {stage : Option Stage} (h : Called t ticket c S x S' stage) : Framed S S' := by
  cases h with
  | lock | release => exact framed_setMutex ..
  | length | lengthPart | body => exact ⟨fun _ => rfl, fun _ => rfl, rfl, rfl, rfl, rfl, rfl, rfl⟩
  | fail =>
    cases S.socket c.fd with
    | none | some => exact ⟨fun _ => rfl, fun _ => rfl, rfl, rfl, rfl, rfl, rfl, rfl⟩

/-- What a step of a thread does. -/
inductive Did (t : Tid) (S : Sockets) : Choice → Sockets → Prop where
  | reply (i : SessId) (m : Message) (hrole : (S.task t).role = .session i)
      (hpoint : (S.task t).point = .running) (hfd : (S.slots i).fd ≠ 0) :
      Did t S (.reply m) (S.goTo t (.calling none ⟨i, (S.slots i).fd, m, .lock⟩))
  | announce (skipSelf : Bool) (b : Round) (hpoint : (S.task t).point = .running)
      (hticket : b.ticket = S.tickets) :
      Did t S (.announce skipSelf b.message)
        ({ S with tickets := S.tickets + 1 }.goTo t (.entering b))
  | hello (i : SessId) (hrole : (S.task t).role = .session i)
      (hpoint : (S.task t).point = .running) :
      Did t S .hello (S.setSlot i { S.slots i with greeted := true })
  | destroy (i : SessId) (hrole : (S.task t).role = .session i)
      (hpoint : (S.task t).point = .running) : Did t S .destroy (S.goTo t .leaving)
  | call (round : Option Round) (c : Call) (x : Choice) (S' : Sockets) (stage : Option Stage)
      (hpoint : (S.task t).point = .calling round c)
      (hcall : Called t (round.map Round.ticket) c S x S' stage) :
      Did t S x (S'.goTo t (.after round c stage))
  | enter (b : Round) (hpoint : (S.task t).point = .entering b) (hfree : S.tableMutex = none) :
      Did t S .step ({ S with tableMutex := some t }.goTo t (.looping b 0))
  | pass (b : Round) (i : SessId) (hpoint : (S.task t).point = .looping b i)
      (hpass : (S.slots i).fd = 0 ∨ b.skip = some i ∨ (S.slots i).greeted = false) :
      Did t S .step (S.goTo t (.looping b (i + 1)))
  | relay (b : Round) (i : SessId) (hpoint : (S.task t).point = .looping b i)
      (hfd : (S.slots i).fd ≠ 0) (hskip : b.skip ≠ some i) (hgreeted : (S.slots i).greeted = true) :
      Did t S .step (S.goTo t (.calling (some b) ⟨i, (S.slots i).fd, b.message, .lock⟩))
  | exit (b : Round) (i : ℕ) (hpoint : (S.task t).point = .looping b i) (hi : maxSessions ≤ i) :
      Did t S .step ({ S with tableMutex := none }.goTo t .running)
  | free (i : SessId) (hrole : (S.task t).role = .session i)
      (hpoint : (S.task t).point = .leaving) (hfree : S.tableMutex = none) :
      Did t S .step ((S.setSlot i Slot.free).goTo t (.closing (S.slots i).fd))
  | close (fd : Fd) (hpoint : (S.task t).point = .closing fd) :
      Did t S .step ({ S with socket := Function.update S.socket fd none }.goTo t .finished)

section
variable {t : Tid} {S S' : Sockets} {x : Choice}

/-- A thread does nothing else. -/
theorem go_did (h : S.go t x = some S') : Did t S x S' := by
  -- one case for each arm of `go`, in its order
  unfold go at h
  split at h
  case h_1 i m hpoint hrole =>
    obtain ⟨hfd, h⟩ := Option.ite_none_right_eq_some.mp h
    obtain rfl := Option.some.inj h
    exact .reply i m hrole hpoint hfd
  case h_2 skipSelf m hpoint =>
    obtain rfl := Option.some.inj h
    exact .announce skipSelf ⟨S.tickets, _, m⟩ hpoint rfl
  case h_3 i hpoint hrole =>
    obtain rfl := Option.some.inj h
    exact .hello i hrole hpoint
  case h_4 i hpoint hrole =>
    obtain rfl := Option.some.inj h
    exact .destroy i hrole hpoint
  case h_5 x _ _ _ round c hpoint =>
    obtain ⟨⟨S₁, stage⟩, hcall, rfl⟩ := Option.map_eq_some_iff.mp h
    exact .call round c x S₁ stage hpoint (callStep_called hcall)
  case h_6 b hpoint =>
    obtain ⟨hfree, h⟩ := Option.ite_none_right_eq_some.mp h
    obtain rfl := Option.some.inj h
    exact .enter b hpoint hfree
  case h_7 b i hpoint =>
    obtain rfl := Option.some.inj h
    unfold loopStep
    -- the loop of `cp_broadcast`: a slot is passed over, gets its frame, or is the last
    split_ifs with hi hpass
    · exact .pass b ⟨i, hi⟩ hpoint hpass
    · rw [not_or, not_or, Bool.not_eq_false] at hpass
      exact .relay b ⟨i, hi⟩ hpoint hpass.1 hpass.2.1 hpass.2.2
    · exact .exit b i hpoint (Nat.le_of_not_lt hi)
  case h_8 i hpoint hrole =>
    obtain ⟨hfree, h⟩ := Option.ite_none_right_eq_some.mp h
    obtain rfl := Option.some.inj h
    exact .free i hrole hpoint hfree
  case h_9 fd hpoint =>
    obtain rfl := Option.some.inj h
    exact .close fd hpoint
  case h_10 => exact absurd h.symm (Option.some_ne_none S')

/-- A step of a thread leaves the others where they are. -/
theorem Did.other (h : Did t S x S') {u : Tid} (hu : u ≠ t) : S'.task u = S.task u := by
  cases h with
  | hello => rfl
  | call round c x S₁ stage hpoint hcall => rw [goTo_task_ne hu, hcall.framed.task]
  | reply | announce | destroy | enter | pass | relay | exit | free | close =>
    exact (goTo_task_ne hu).trans rfl

/-- No thread changes what it is for. -/
theorem Did.role (h : Did t S x S') (u : Tid) : (S'.task u).role = (S.task u).role := by
  cases h with
  | hello => rfl
  | call round c x S₁ stage hpoint hcall => rw [goTo_role, hcall.framed.task]
  | reply | announce | destroy | enter | pass | relay | exit | free | close =>
    exact goTo_role.trans rfl

/-- A slot that is not freed keeps its descriptor, and stays past `hello`. -/
theorem Did.slot (h : Did t S x S') (i : SessId) :
    (S'.slots i).fd = (S.slots i).fd ∧
      ((S.slots i).greeted = true → (S'.slots i).greeted = true) ∨
    (S.task t).role = .session i ∧ (S.task t).point = .leaving ∧ S.tableMutex = none := by
  cases h with
  | hello j =>
    refine .inl ?_
    by_cases hi : i = j
    · rw [hi, setSlot_self]
      exact ⟨rfl, fun _ => rfl⟩
    · rw [setSlot_ne hi]
      exact ⟨rfl, id⟩
  | call round c x S₁ stage hpoint hcall =>
    refine .inl ⟨hcall.framed.fd i, fun hg => ?_⟩
    rw [goTo_slots, hcall.framed.greeted i]
    exact hg
  | free j hrole hpoint hfree =>
    by_cases hi : i = j
    · exact .inr ⟨hi ▸ hrole, hpoint, hfree⟩
    · rw [goTo_slots, setSlot_ne hi]
      exact .inl ⟨rfl, id⟩
  | reply | announce | destroy | enter | pass | relay | exit | close => exact .inl ⟨rfl, id⟩

/-- A thread that is in `send_framed` after a step was there before, or has just been called for a
slot that is taken. -/
theorem Did.calling (h : Did t S x S') {round : Option Round} {c : Call}
    (hpoint : (S'.task t).point = .calling round c) :
    (∃ c', (S.task t).point = .calling round c' ∧ c'.slot = c.slot ∧ c'.fd = c.fd) ∨
    (c.fd = (S.slots c.slot).fd ∧ c.fd ≠ 0 ∧ (round = none → (S.task t).role = .session c.slot) ∧
      (∀ b, round = some b → (S.slots c.slot).greeted = true ∧ b.skip ≠ some c.slot) ∧
      (S.task t).point ≠ .leaving) := by
  cases h with
  | reply i m hrole hrun hfd =>
    rw [goTo_point] at hpoint
    obtain ⟨rfl, rfl⟩ := Point.calling.inj hpoint
    exact .inr ⟨rfl, hfd, fun _ => hrole, fun b hb => absurd hb.symm (Option.some_ne_none b),
      by rw [hrun]; exact Point.noConfusion⟩
  -- the loop has checked the slot before it calls `cp_send_raw` for it
  | relay b i hloop hfd hskip hgreeted =>
    rw [goTo_point] at hpoint
    obtain ⟨rfl, rfl⟩ := Point.calling.inj hpoint
    refine .inr ⟨rfl, hfd, fun hb => absurd hb (Option.some_ne_none b), ?_,
      by rw [hloop]; exact Point.noConfusion⟩
    rintro b' hb'
    obtain rfl := Option.some.inj hb'
    exact ⟨hgreeted, hskip⟩
  -- a call in progress stays with its slot until it returns
  | call round' c' x S₁ stage hcalling hcall =>
    rw [goTo_point] at hpoint
    cases stage with
    | some stage =>
      obtain ⟨rfl, rfl⟩ := Point.calling.inj hpoint
      exact .inl ⟨c', hcalling, rfl, rfl⟩
    | none =>
      cases round' with
      | none | some => cases hpoint
  | hello => exact .inl ⟨c, hpoint, rfl, rfl⟩
  | announce | destroy | enter | pass | exit | free | close =>
    rw [goTo_point] at hpoint
    cases hpoint

end

end Sockets

end SlcRtld.Control
