import SlcRtld.Control.Session
import SlcRtld.Effect.Protocol

/-!
# The order of a request's operations

What the handlers keep to, said once. Between two operations of a request other threads can run, so
what holds of the daemon then depends on where the request is: whether it has been let through by
`may_configure`, what it has still to tell the other clients, whether it is waiting for the reader
thread to end, and what it knows of its own stream. `Phase` is that place, `Next` says which
operation can come there, and `Control.Conformance` shows that every handler follows it. A property
of interleaved requests is then shown by cases on `Next`, without another look at a handler.
-/

namespace SlcRtld.Control

open Libc Rtl Auth Vita Json Effect
open Effect.Prog (perform when Follows Answering)

/-! ## Where a request is -/

/-- Where a request is, as the operations it has performed tell. -/
structure Track where
  /-- `may_configure` has let it pass. -/
  checked : Bool
  /-- The state of the channel that it has brought about and not told the other clients. -/
  owes : Option ControlState
  /-- It has set the gain, and not sent the Context packets after that. -/
  recalibrating : Bool
  /-- It has told the reader to stop, and not joined it. -/
  joining : Bool
deriving DecidableEq

/-- A request that begins. -/
def Track.start : Track := ⟨false, none, false, false⟩

/-- Where a request is after an operation that has been answered. -/
def Track.after (t : Track) : {β : Type} → Op β → β → Track
  | _, .rxOwnedByOther, other => { t with checked := !other }
  | _, .rxClaim, ok => if ok then { t with owes := some .ownedByOther } else t
  | _, .rxReleaseLocked, released => { t with owes := if released then some .free else none }
  | _, .broadcast _ (.controlRevoked _), _ => { t with owes := none }
  | _, .set (.gain _), _ => { t with recalibrating := true }
  | _, .vitaSendContextAll, _ => { t with recalibrating := false }
  | _, .bridgeStopLocked, join => { t with joining := join }
  | _, .pthreadJoin, _ => { t with joining := false }
  | _, _, _ => t

/-- What a request knows of its session's stream. -/
inductive Channel where
  | unknown
  /-- There is no open stream. -/
  | closed
  /-- There is an open stream. -/
  | opened
  /-- The channel is claimed, and there is no open stream. -/
  | claimed
  /-- The session is being destroyed, and has released the channel. -/
  | departing
  /-- The session's slot is free. -/
  | gone
deriving DecidableEq

/-- The place of a request: what its operations tell, what it knows of its stream, and the ids of
the responses it has sent. -/
structure Phase where
  track : Track
  channel : Channel
  said : List CStr

/-- A request that begins. -/
def Phase.start : Phase := ⟨.start, .unknown, []⟩

/-! ## Operations that have no place -/

/-- A change to a session's record that leaves the connection and the stream alone. -/
structure Session.Steady (f : Session → Session) : Prop where
  fd : ∀ s, (f s).fd = s.fd
  streamOpen : ∀ s, (f s).streamOpen = s.streamOpen
  streaming : ∀ s, (f s).state = .streaming → s.state = .streaming
  greeted : ∀ s, s.state ≠ .awaitHello → (f s).state ≠ .awaitHello

/-- A change to a session's record that does not touch the state either. -/
theorem Session.Steady.of_same {f : Session → Session} (hfd : ∀ s, (f s).fd = s.fd)
    (hopen : ∀ s, (f s).streamOpen = s.streamOpen) (hstate : ∀ s, (f s).state = s.state) :
    Session.Steady f :=
  ⟨hfd, hopen, fun s h => (hstate s).symm.trans h, fun s h => (hstate s).symm ▸ h⟩

/-- An operation that may come anywhere. -/
def Op.Neutral : {β : Type} → Op β → Prop
  | _, .self | _, .rxOwnedByOther | _, .rxClaim | _, .rxReleaseLocked | _, .vitaSendContextAll
  | _, .bridgeStart | _, .bridgeStopLocked | _, .pthreadJoin | _, .freeSession => False
  | _, .send f => ∃ e, f = .event e ∧ ∀ s, e ≠ .controlRevoked s
  | _, .broadcast _ e => ∀ s, e ≠ .controlRevoked s
  | _, .modify f => Session.Steady f
  | _, .set (.biasTee _) => True
  | _, .set _ => False
  | _, _ => True

/-! ## The protocol -/

/-- The request can go on: its session is still there, and it does not wait for the reader. -/
def Phase.Ready (q : Phase) : Prop := q.track.joining = false ∧ q.channel ≠ .gone

/-- The operations that may come next. While the reader is being joined, nothing else happens. -/
inductive Next (q : Phase) : ∀ β : Type, Op β → β → Phase → Prop where
  | other {β : Type} {o : Op β} {b : β} (ho : o.Neutral) (hready : q.Ready) :
      Next q β o b q
  | reply {f : Frame} {id : CStr} (hid : f.id = some id) (hready : q.Ready) :
      Next q Unit (.send f) () { q with said := q.said ++ [id] }
  | self (s : Session) (hchannel : q.channel ∈ [.unknown, .closed, .opened])
      (hready : q.Ready) :
      Next q Session .self s { q with channel := if s.streamOpen then .opened else .closed }
  | check (other : Bool) (hready : q.Ready) :
      Next q Bool .rxOwnedByOther other { q with track := q.track.after .rxOwnedByOther other }
  | set {β : Type} (x : Setting β) (b : β) (hchecked : q.track.checked = true)
      (hready : q.Ready) :
      Next q β (.set x) b { q with track := q.track.after (.set x) b }
  | context (hready : q.Ready) :
      Next q Unit .vitaSendContextAll () { q with track := q.track.after .vitaSendContextAll () }
  | claim (ok : Bool) (hchannel : q.channel = .closed) (howes : q.track.owes = none)
      (hready : q.Ready) :
      Next q Bool .rxClaim ok
        { q with track := q.track.after .rxClaim ok, channel := if ok then .claimed else .closed }
  | openStream (n : UInt32) (addr : List ℕ) (port : ℕ) (hchannel : q.channel = .claimed)
      (hready : q.Ready) :
      Next q Unit (.modify (Session.openStream n addr port)) () { q with channel := .opened }
  | startStreaming (hchannel : q.channel = .opened) (hready : q.Ready) :
      Next q Unit (.modify (Session.setState .streaming)) () q
  | closeStream (hchannel : q.channel = .opened) (hready : q.Ready) :
      Next q Unit (.modify Session.closeStream) () { q with channel := .claimed }
  | release (released : Bool) (hchannel : q.channel = .claimed) (hready : q.Ready) :
      Next q Bool .rxReleaseLocked released
        { q with track := q.track.after .rxReleaseLocked released, channel := .closed }
  | depart (released : Bool) (hchannel : q.channel ∈ [.closed, .opened])
      (howes : q.track.owes = none) (hready : q.Ready) :
      Next q Bool .rxReleaseLocked released
        { q with track := q.track.after .rxReleaseLocked released, channel := .departing }
  | notice {s : ControlState} (howes : q.track.owes = some s) (hready : q.Ready) :
      Next q Unit (.broadcast true (.controlRevoked s)) ()
        { q with track := q.track.after (.broadcast true (.controlRevoked s)) () }
  | bridgeStart (ok : Bool) (hchannel : q.channel = .opened) (hready : q.Ready) :
      Next q Bool .bridgeStart ok q
  | bridgeStop (join : Bool) (hchannel : q.channel = .opened) (hready : q.Ready) :
      Next q Bool .bridgeStopLocked join
        { q with track := q.track.after .bridgeStopLocked join }
  | join (hjoin : q.track.joining = true) :
      Next q Unit .pthreadJoin () { q with track := q.track.after .pthreadJoin () }
  | free (hchannel : q.channel = .departing) (hready : q.Ready) :
      Next q Unit .freeSession () { q with channel := .gone }

/-- An operation that may come anywhere leaves the place of the request as it is. -/
theorem Op.Neutral.after {β : Type} {o : Op β} (ho : o.Neutral) (t : Track) (b : β) :
    t.after o b = t := by
  cases o with
  | broadcast skipSelf e =>
    cases e with
    | controlRevoked s => exact absurd rfl (ho s)
    | _ => rfl
  | set x =>
    cases x with
    | biasTee => rfl
    | _ => exact absurd ho id
  | rxOwnedByOther | rxClaim | rxReleaseLocked | vitaSendContextAll | bridgeStopLocked
  | pthreadJoin => exact absurd ho id
  | _ => rfl

/-- The place of a request is what its operations tell. -/
theorem Next.track {q q' : Phase} {β : Type} {o : Op β} {b : β} (h : Next q β o b q') :
    q'.track = q.track.after o b := by
  cases h with
  | other ho => exact (ho.after q.track b).symm
  | _ => rfl

/-! ## Rules -/

/-- Nothing is left to do for the request, but for the responses that are still to be sent. -/
structure Phase.Quiet (q : Phase) (said : List CStr) : Prop where
  owes : q.track.owes = none
  recalibrating : q.track.recalibrating = false
  joining : q.track.joining = false
  channel : q.channel ∈ [Channel.unknown, .closed, .opened]
  said : q.said = said

/-- A session that owes nothing may go on. -/
theorem Phase.Quiet.ready {q : Phase} {said : List CStr} (h : q.Quiet said) : q.Ready := by
  refine ⟨h.joining, fun hgone => ?_⟩
  have hchannel := h.channel
  rw [hgone] at hchannel
  exact absurd hchannel (by decide)

/-- A session that has not begun owes nothing. -/
theorem Phase.quiet_start : Phase.start.Quiet [] := ⟨rfl, rfl, rfl, by decide, rfl⟩

section
variable {A : Answering Op} {α β : Type} {final : α → Phase → Prop} {q : Phase} {said : List CStr}
  {id : CStr}

/-- A request keeps to the protocol, and has sent one response with its id when it is done. -/
def Answers (A : Answering Op) (id : CStr) (q : Phase) (p : Prog Op Unit) : Prop :=
  Follows A Next (fun _ q' => q'.Quiet [id]) q p

/-- A part of a request that has a result, or has sent the response. -/
def Gives (A : Answering Op) (id : CStr) (q : Phase) (p : Prog Op (Option α)) : Prop :=
  Follows A Next (fun r q' => q'.Quiet (r.elim [id] fun _ => [])) q p

namespace Phase.Quiet

/-- An operation that may come anywhere, and then the rest. -/
theorem ask (h : q.Quiet said) {o : Op β} (ho : o.Neutral) {f : β → Prog Op α}
    (hf : ∀ b, A _ o b → Follows A Next final q (f b)) :
    Follows A Next final q (perform o >>= f) :=
  .skip (fun _ => .other ho h.ready) hf

/-- A change to the session's record that the protocol does not see, and then the rest. -/
theorem modify (h : q.Quiet said) {g : Session → Session} (hg : Session.Steady g)
    {f : Unit → Prog Op α} (hf : Follows A Next final q (f ())) :
    Follows A Next final q (perform (.modify g) >>= f) :=
  .skip (fun _ => .other hg h.ready) fun _ _ => hf

/-- A read of the session's own record. -/
theorem self (h : q.Quiet said) {f : Session → Prog Op α}
    (hf : ∀ s, Follows A Next final { q with channel := if s.streamOpen then .opened else .closed } (f s)) :
    Follows A Next final q (perform .self >>= f) :=
  .cons fun s _ => ⟨_, .self s h.channel h.ready, hf s⟩

/-- Looking at the session's record tells whether the stream is open. -/
theorem withChannel (h : q.Quiet said) (c : Bool) :
    ({ q with channel := if c then .opened else .closed } : Phase).Quiet said :=
  ⟨h.owes, h.recalibrating, h.joining, by cases c <;> simp, h.said⟩

/-- A response. -/
theorem send (h : q.Quiet []) {f : Frame} (hf : f.id = some id) :
    Answers A id q (perform (.send f)) :=
  .perform fun _ _ => ⟨_, .reply hf h.ready,
    h.owes, h.recalibrating, h.joining, h.channel, by rw [h.said, List.nil_append]⟩

/-- An error is the answer. -/
theorem sendError (h : q.Quiet []) (code : ErrorCode) (message : String) :
    Answers A id q (Control.sendError id code message) := h.send rfl

/-- A result is the answer. -/
theorem sendOk (h : q.Quiet []) (r : Result) : Answers A id q (Control.sendOk id r) := h.send rfl

/-- An error instead of a result. -/
theorem refuse (h : q.Quiet []) (code : ErrorCode) (message : String) :
    Gives A id q (do Control.sendError id code message; return none : Prog Op (Option α)) :=
  (h.sendError code message).bind fun _ _ h' => .pure h'

/-- What follows on a program that may do anything but has no place in the protocol. -/
theorem uses (h : q.Quiet said) {p : Prog Op β} (hp : p.Uses fun _ o => o.Neutral)
    {f : β → Prog Op α} (hf : ∀ b, Follows A Next final q (f b)) :
    Follows A Next final q (p >>= f) :=
  (Follows.of_uses hp (fun _ _ ho _ => .other ho h.ready) fun _ => rfl).bind
    fun b _ hq' => hq'.symm ▸ hf b

/-- A program that has no place in the protocol, at the end. -/
theorem rest (h : q.Quiet said) {p : Prog Op Unit} (hp : p.Uses fun _ o => o.Neutral) :
    Follows A Next (fun _ q' => q'.Quiet said) q p :=
  .of_uses hp (fun _ _ ho _ => .other ho h.ready) fun _ => h

end Phase.Quiet

/-- What follows on a part that has a result, or has sent the response. -/
theorem Gives.andThen {p : Prog Op (Option β)} (hp : Gives A id q p) {f : Option β → Prog Op α}
    (hnone : ∀ q', q'.Quiet [id] → Follows A Next final q' (f none))
    (hsome : ∀ b q', q'.Quiet [] → Follows A Next final q' (f (some b))) :
    Follows A Next final q (p >>= f) :=
  Follows.bind hp fun r q' h => by
    cases r with
    | none => exact hnone q' h
    | some b => exact hsome b q' h

end

end SlcRtld.Control
