import SlcRtld.Control.Turn
import SlcRtld.Property.TreeLookup

/-!
# A request is answered once

What a client can rely on to match responses to requests, while the threads of other sessions and
the USB thread run in between. The protocol of `Control.Protocol` counts the responses that a round
of a session's loop has sent; a round is followed here from the frame that begins it to its end,
through the moves of all threads (`Underway`). Nothing but its own round sends a response to a
client, so the responses that the client gets in that time are those of the round: one, with the id
of the request (`request_answered_once`).

The other threads must not receive a frame in the meantime: `msg_buf` is shared, and the id is read
from it.
-/

namespace SlcRtld.Property

open Control Libc Rtl Json Effect
open Effect.Prog (Answering)

/-! ## Responses -/

/-- The id of an observed response to a session's client. -/
def responseTo (i : SessId) : Obs → Option CStr
  | .sent j f => if j = i then f.id else none
  | _ => none

/-- The ids of the responses that a session's client has got, in order. -/
def responses (i : SessId) (d : Daemon) : List CStr := d.trace.reverse.filterMap (responseTo i)

/-- The id of the response that an operation sends. -/
def response : {β : Type} → Op β → Option CStr
  | _, .send f => f.id
  | _, _ => none

section
variable {opts : Options} {env : Env} {m : Msg} {i j : SessId} {d d' : Daemon}

/-- The responses among some observations. -/
theorem responses_log (os : List Obs) :
    responses i (d.log os) = responses i d ++ os.reverse.filterMap (responseTo i) := by
  show ((os ++ d.trace).reverse).filterMap (responseTo i) = _
  rw [List.reverse_append, List.filterMap_append]
  rfl

/-- The observation is not a response to a session's client. -/
def Mute (i : SessId) (o : Obs) : Prop := responseTo i o = none

/-- A mute step adds no response. -/
theorem responses_of_mute (h : Emits (Mute i) d d') : responses i d' = responses i d := by
  obtain ⟨new, hnew, hnone⟩ := h
  have hempty : new.reverse.filterMap (responseTo i) = [] :=
    List.filterMap_eq_nil_iff.mpr fun o ho => hnone o (List.mem_reverse.mp ho)
  unfold responses
  rw [hnew, List.reverse_append, List.filterMap_append, hempty, List.append_nil]

/-- Events are no responses. -/
theorem chatter_mute (i : SessId) : Chatter (Mute i) where
  hardware := fun _ => rfl
  datagram := fun _ => rfl
  event := fun _ _ => ite_self none

/-- An operation that sends no response is mute. -/
theorem exec_mute {β : Type} {o : Op β} {b : β} (h : exec opts env m j β o d = some (b, d'))
    (ho : response o = none) : Emits (Mute i) d d' := by
  refine (exec_observes h).mono fun x hx => ?_
  cases o with
  | send f =>
    -- a frame without an id answers nothing, whoever it is for
    obtain rfl := hx
    have hid : f.id = none := ho
    show (if j = i then f.id else none) = none
    rw [hid, ite_self]
  | broadcast =>
    obtain ⟨k, rfl⟩ := hx
    exact ite_self none
  | freeSession =>
    obtain rfl := hx
    rfl
  | checkResponse =>
    obtain ⟨_, _, rfl⟩ := hx
    rfl
  | makeNonce | set | bridgeStart | bridgeStopLocked | vitaSessionAdd | vitaSessionRemove
  | vitaUpdatePayloadFormat | vitaSendContextAll =>
    obtain ⟨_, rfl⟩ := hx
    rfl
  | _ => exact absurd hx id

/-- An operation sends the response that it is for, and no other. -/
theorem exec_responses {β : Type} {o : Op β} {b : β} (h : exec opts env m j β o d = some (b, d'))
    (hlive : (d.sessions j).live = true) :
    responses i d' = responses i d ++ if j = i then (response o).toList else [] := by
  cases ho : response o with
  | none => rw [responses_of_mute (exec_mute h ho), Option.toList_none, ite_self, List.append_nil]
  | some id =>
    cases o with
    | send f =>
      cases h
      have hid : f.id = some id := ho
      have hsend : d.send j f = d.log [.sent j f] := by
        unfold Daemon.send
        rw [if_pos hlive]
      rw [hsend, responses_log, List.reverse_singleton]
      split_ifs with hji
      · rw [List.filterMap_cons_some (b := id) (by rw [responseTo, if_pos hji, hid])]
        rfl
      · rw [List.filterMap_cons_none (by rw [responseTo, if_neg hji])]
        rfl
    | _ => cases ho

/-- What a round has said is what its operations have. -/
theorem said_next {q q' : Phase} {β : Type} {o : Op β} {b : β} (h : Next q β o b q') :
    q'.said = q.said ++ (response o).toList := by
  cases h with
  | other ho =>
    cases o with
    | send f =>
      obtain ⟨e, rfl, -⟩ := ho
      exact (List.append_nil _).symm
    | _ => exact (List.append_nil _).symm
  | reply hid =>
    show q.said ++ [_] = q.said ++ Option.toList (Frame.id _)
    rw [hid]
    rfl
  | _ => exact (List.append_nil _).symm

end

/-! ## A round, through the moves of all threads -/

/-- The answers that the operations of a round can get: what the message that it is about says, and
records as they can be. -/
def Answer (opts : Options) (i : SessId) (M : Env → Msg) : Answering Op := fun β o b =>
  sensible β o b ∧ ∃ env d d', exec opts env (M env) i β o d = some (b, d')

/-- The moves that may come while a session's round is underway. -/
def meanwhile (i : SessId) : Move → Bool
  | .receive _ _ => false
  | .disconnect j => j ≠ i
  | _ => true

/-- A round of a session's loop is underway, or over. -/
inductive Underway (opts : Options) (i : SessId) (M : Env → Msg) (n : ℤ) (before : List CStr)
    (P : Pool) : Prop where
  | going (t : Thread) (q : Phase) (hthread : P.threads i = some t)
      (hfollows : Prog.Follows (Answer opts i M) Next
        (fun _ q' => ∃ ids, q'.Rests ids ∧ Responds (Answer opts i M) n ids) q t.rest)
      (hsaid : responses i P.daemon = before ++ q.said)
      (hmemory : ∀ env, P.daemon.message i env = M env)
  | ended (ids : List CStr) (hthread : P.threads i = none)
      (hids : Responds (Answer opts i M) n ids) (hsaid : responses i P.daemon = before ++ ids)

section
variable {opts : Options} {i : SessId} {M : Env → Msg} {n : ℤ} {before : List CStr} {P P' : Pool}
  {ph : SessId → Phase}

/-- A thread with the rest of its round, or with none left. -/
theorem underway_go {threads : SessId → Option Thread} {d : Daemon} {track : Track}
    {p : Prog Op Unit} {q : Phase}
    (hfollows : Prog.Follows (Answer opts i M) Next
      (fun _ q' => ∃ ids, q'.Rests ids ∧ Responds (Answer opts i M) n ids) q p)
    (hsaid : responses i d = before ++ q.said) (hmemory : ∀ env, d.message i env = M env) :
    Underway opts i M n before ⟨d, Function.update threads i (Thread.go track p)⟩ := by
  cases hgo : Thread.go track p with
  | none =>
    obtain ⟨u, rfl⟩ := Thread.go_none hgo
    obtain ⟨ids, hrests, hids⟩ := hfollows
    refine .ended ids (Function.update_self ..) hids ?_
    rw [← hrests.said]
    exact hsaid
  | some t =>
    obtain rfl := Thread.go_some hgo
    exact .going _ q (Function.update_self ..) hfollows hsaid hmemory

/-- While no frame arrives, the text and the tokens of a request in progress stay as they are. -/
theorem message_move (hin : InStep P ph) {m : Move} (hmove : P.move opts m = some P')
    (hno : ∀ j frame, m ≠ .receive j frame) (t : Thread) (ht : P.threads i = some t) (env : Env) :
    P'.daemon.message i env = P.daemon.message i env := by
  obtain ⟨hbuf, htokens⟩ := move_memory hmove hno
  unfold Daemon.message
  rw [hbuf, htokens i (hin.busy i t ht).2]

/-- A move that concerns neither the thread nor what it reads nor its client. -/
theorem Underway.aside (h : Underway opts i M n before P) (hthread : P'.threads i = P.threads i)
    (hmute : responses i P'.daemon = responses i P.daemon)
    (hmemory : ∀ t, P.threads i = some t → ∀ env, P'.daemon.message i env = P.daemon.message i env) :
    Underway opts i M n before P' := by
  cases h with
  | going t q ht hfollows hsaid hread =>
    refine .going t q (hthread.trans ht) hfollows (hmute.trans hsaid) fun env => ?_
    rw [hmemory t ht, hread]
  | ended ids ht hids hsaid => exact .ended ids (hthread.trans ht) hids (hmute.trans hsaid)

/-- One move of a thread of the pool. -/
theorem Underway.turn (h : Underway opts i M n before P) (hin : InStep P ph) {j : SessId} {env : Env}
    (hturn : P.turn opts j env = some P')
    (hmemory : ∀ t, P.threads i = some t → ∀ env, P'.daemon.message i env = P.daemon.message i env) :
    Underway opts i M n before P' := by
  obtain ⟨β, o, k, track, b, d', ht, hexec, rfl⟩ := Pool.turn_eq hturn
  have hresponses := exec_responses (i := i) hexec (hin.busy j _ ht).2
  by_cases hji : j = i
  · -- the round's own operation
    subst hji
    cases h with
    | ended _ hnone => exact absurd (ht.symm.trans hnone) (Option.some_ne_none _)
    | going t q hthread hfollows hsaid hread =>
      obtain rfl := Option.some.inj (hthread.symm.trans ht)
      have hanswer : Answer opts j M β o b := by
        refine ⟨(hin.held j).sensible hexec, env, P.daemon, d', ?_⟩
        rw [← hread]
        exact hexec
      obtain ⟨q', hnext, hrest⟩ := hfollows.step hanswer
      refine underway_go hrest ?_ fun env => ?_
      · rw [hresponses, if_pos rfl, hsaid, said_next hnext, List.append_assoc]
      · exact (hmemory _ ht env).trans (hread env)
  · -- another thread's
    rw [if_neg hji, List.append_nil] at hresponses
    exact h.aside (Function.update_of_ne (Ne.symm hji) ..) hresponses hmemory

/-- One move of the pool. -/
theorem Underway.next (h : Underway opts i M n before P) (hin : InStep P ph) {m : Move}
    (hm : meanwhile i m = true) (hmove : P.move opts m = some P') :
    Underway opts i M n before P' := by
  -- the session's client sends nothing more before the answer
  have hno : ∀ j frame, m ≠ .receive j frame := by
    rintro j frame rfl
    cases hm
  have hmemory := message_move (i := i) hin hmove hno
  cases m with
  | receive j frame => exact absurd rfl (hno j frame)
  | connect fd stack =>
    obtain ⟨-, hP'⟩ := Option.ite_none_right_eq_some.mp hmove
    obtain rfl := Option.some.inj hP'
    refine h.aside rfl (responses_of_mute ?_) hmemory
    show Emits (Mute i) P.daemon (P.daemon.sessionCreate fd stack)
    rcases sessionCreate_cases fd stack P.daemon with hd | ⟨k, -, hd⟩
    · rw [hd]
      exact .of_eq rfl
    · rw [hd]
      have hconnected : ∀ x ∈ [Obs.connected k], Mute i x := List.forall_mem_singleton.mpr rfl
      exact ⟨_, rfl, hconnected⟩
  | disconnect j =>
    obtain ⟨-, hP'⟩ := Option.ite_none_right_eq_some.mp hmove
    obtain rfl := Option.some.inj hP'
    have hji : i ≠ j := fun hij => of_decide_eq_true hm hij.symm
    exact h.aside (Function.update_of_ne hji ..) rfl hmemory
  | turn j env => exact h.turn hin hmove hmemory
  | usb buf nowMs =>
    obtain rfl := Option.some.inj hmove
    refine h.aside rfl (responses_of_mute ?_) hmemory
    show Emits (Mute i) P.daemon (P.daemon.rtlCallback buf nowMs)
    unfold Daemon.rtlCallback
    split_ifs
    · rcases measureAdcLevel buf nowMs P.daemon.adc with ⟨level, adc⟩
      cases level with
      | none => exact (Emits.of_eq rfl).trans ((chatter_mute i).vitaApply ..)
      | some l =>
        exact ((Emits.of_eq rfl).trans ((chatter_mute i).broadcast ..)).trans
          ((chatter_mute i).vitaApply ..)
    · exact .of_eq rfl

/-- A round that has begun is underway or over, whatever moves may come in the meantime. -/
theorem underway_run {frame : List UInt8} {ms : List Move} (hin : InStep P ph)
    (hms : ∀ m ∈ ms, meanwhile i m = true)
    (hrun : runActs (Pool.move opts) P (.receive i frame :: ms) = some P') :
    Underway opts i (fun env => P.daemon.received i frame env) (jsmnParse frame (P.daemon.tokens i)).1
      (responses i P.daemon) P' := by
  rw [runActs_cons, Option.bind_eq_some_iff] at hrun
  obtain ⟨P₁, hreceive, hrest⟩ := hrun
  obtain ⟨ph₁, hin₁, -⟩ := hin.next hreceive
  obtain ⟨-, hP₁⟩ := Option.ite_none_right_eq_some.mp hreceive
  obtain rfl := Option.some.inj hP₁
  have hbegun : Underway opts i (fun env => P.daemon.received i frame env)
      (jsmnParse frame (P.daemon.tokens i)).1 (responses i P.daemon)
      ⟨P.daemon.tokenise i frame, Function.update P.threads i
        (Thread.go .start (sessionRound opts (jsmnParse frame (P.daemon.tokens i)).1))⟩ :=
    underway_go (sessionRound_follows (fun _ h => h.1) Phase.quiet_start _)
      (List.append_nil _).symm fun _ => rfl
  have hkeeps : ∀ (P₁ : Pool) (m : Move) (P₂ : Pool),
      (∃ ph, InStep P₁ ph) ∧ Underway opts i (fun env => P.daemon.received i frame env)
        (jsmnParse frame (P.daemon.tokens i)).1 (responses i P.daemon) P₁ →
      meanwhile i m = true → P₁.move opts m = some P₂ →
      (∃ ph, InStep P₂ ph) ∧ Underway opts i (fun env => P.daemon.received i frame env)
        (jsmnParse frame (P.daemon.tokens i)).1 (responses i P.daemon) P₂ := by
    rintro P₁ m P₂ ⟨⟨ph, hin⟩, hunder⟩ hm hmove
    obtain ⟨ph', hin', -⟩ := hin.next hmove
    exact ⟨⟨ph', hin'⟩, hunder.next hin hm hmove⟩
  exact (runActs_invariant hkeeps ⟨⟨ph₁, hin₁⟩, hbegun⟩ hms hrest).2

end

/-! ## What the pool keeps of the token arrays -/

section
variable {opts : Options} {P P' : Pool} {ph : SessId → Phase}

/-- A session that is live after a move was so before, or has just got its slot. -/
theorem live_move (hin : InStep P ph) {m : Move} (hmove : P.move opts m = some P') {j : SessId}
    (hlive : (P'.daemon.sessions j).live = true) :
    (P.daemon.sessions j).live = true ∨
      ∃ fd stack, stack.length = maxJsonTokens ∧ m = .connect fd stack ∧ P'.daemon.tokens j = stack := by
  cases m with
  -- the slot was free, or the table is full and nothing happens
  | connect fd stack =>
    obtain ⟨⟨-, hstack⟩, hP'⟩ := Option.ite_none_right_eq_some.mp hmove
    obtain rfl := Option.some.inj hP'
    have hlive' : ((P.daemon.sessionCreate fd stack).sessions j).live = true := hlive
    rcases sessionCreate_cases fd stack P.daemon with hd | ⟨k, -, hd⟩
    · rw [hd] at hlive'
      exact .inl hlive'
    · by_cases hjk : j = k
      · refine .inr ⟨fd, stack, hstack, rfl, ?_⟩
        show (P.daemon.sessionCreate fd stack).tokens j = stack
        rw [hd, hjk]
        exact Function.update_self ..
      · rw [hd] at hlive'
        have hsession : ((({ P.daemon with tokens := Function.update P.daemon.tokens k stack }.modify k
            fun _ => Session.new fd).log [.connected k]).sessions j) = P.daemon.sessions j :=
          Function.update_of_ne hjk ..
        rw [hsession] at hlive'
        exact .inl hlive'
  | receive i frame =>
    obtain ⟨-, hP'⟩ := Option.ite_none_right_eq_some.mp hmove
    obtain rfl := Option.some.inj hP'
    exact .inl hlive
  | disconnect i =>
    obtain ⟨-, hP'⟩ := Option.ite_none_right_eq_some.mp hmove
    obtain rfl := Option.some.inj hP'
    exact .inl hlive
  -- a thread that moves serves a live session; the others' records stay
  | turn i env =>
    obtain ⟨β, o, k, track, b, d', ht, hexec, rfl⟩ := Pool.turn_eq hmove
    left
    by_cases hji : j = i
    · rw [hji]
      exact (hin.busy i _ ht).2
    · rw [← (exec_others hexec hji).1]
      exact hlive
  | usb buf nowMs =>
    obtain rfl := Option.some.inj hmove
    have hlive' : ((P.daemon.rtlCallback buf nowMs).sessions j).live = true := hlive
    rw [(rtlCallback_frame buf nowMs P.daemon).1] at hlive'
    exact .inl hlive'

/-- A move keeps the arrays of tokens. -/
theorem tokenArrays_move (h : TokenArrays P.daemon) (hin : InStep P ph) {m : Move}
    (hmove : P.move opts m = some P') : TokenArrays P'.daemon := by
  intro j hlive
  rcases live_move hin hmove hlive with hbefore | ⟨_, stack, hstack, -, htokens⟩
  · by_cases hm : ∃ i frame, m = .receive i frame
    · obtain ⟨i, frame, rfl⟩ := hm
      obtain ⟨-, hP'⟩ := Option.ite_none_right_eq_some.mp hmove
      obtain rfl := Option.some.inj hP'
      show (Function.update P.daemon.tokens i (jsmnParse frame (P.daemon.tokens i)).2 j).length = _
      by_cases hji : j = i
      · rw [hji, Function.update_self, jsmnParse_length]
        exact h i (hji ▸ hbefore)
      · rw [Function.update_of_ne hji]
        exact h j hbefore
    · rw [(move_memory hmove fun i frame heq => hm ⟨i, frame, heq⟩).2 j hbefore]
      exact h j hbefore
  · rw [htokens, hstack]

end

/-! ## The theorem -/

/-- A request that is a JSON text: an object whose type is `request`, with an id and a command. -/
structure RequestText (t : Document) (x : Node) : Prop where
  wellFormed : t.wellFormed = true
  tokens : t.value.count ≤ maxJsonTokens
  type : ∃ y, t.root.member (bytes "type") = some y ∧ y.value.raw = bytes "request"
  id : t.root.member (bytes "id") = some x
  command : ∃ y, t.root.member (bytes "command") = some y

section
variable {opts : Options} {dev : Device} {o : Startup} {contextPackets : Bool} {i : SessId}
  {P P' : Pool} {t : Document} {x : Node}

/-- What the envelope of such a request is read as: something that is answered with its id. -/
theorem responds_request (hreq : RequestText t x)
    (hhas : ∀ env, (P.daemon.received i t.text env).Has t.root) {ids : List CStr}
    (h : Responds (Answer opts i fun env => P.daemon.received i t.text env) t.value.count ids) :
    ids = [cstr (x.value.raw.take 127)] := by
  obtain ⟨hwell, -, ⟨y, hy, hrequest⟩, hid, z, hz⟩ := hreq
  have hroot := Node.object_of_member hid
  -- what a look at the message can have found
  have hfind : ∀ {key : String} {r : Option ℕ},
      Answer opts i (fun env => P.daemon.received i t.text env) _ (.tokFindKey 0 key) r →
      r = (t.root.member (bytes key)).map Node.index := by
    rintro key r ⟨-, env, d, d', hexec⟩
    obtain ⟨r', hr', hpair⟩ := Option.map_eq_some_iff.mp hexec
    obtain rfl : r' = r := (Prod.mk.inj hpair).1
    exact Option.some.inj (hr'.symm.trans ((hhas env).tokFindKey hroot (bytes key)))
  have htext : ∀ {ji : ℕ} {id : CStr},
      Answer opts i (fun env => P.daemon.received i t.text env) _ (.tokFindKey 0 "id") (some ji) →
      Answer opts i (fun env => P.daemon.received i t.text env) _ (.tokStr ji 128) id →
      id = cstr (x.value.raw.take 127) := by
    rintro ji id hji ⟨-, env, d, d', hexec⟩
    have hindex := hfind hji
    rw [hid] at hindex
    obtain rfl : ji = x.index := Option.some.inj hindex
    obtain ⟨r', hr', hpair⟩ := Option.map_eq_some_iff.mp hexec
    obtain rfl : r' = id := (Prod.mk.inj hpair).1
    exact Option.some.inj (hr'.symm.trans (((hhas env).of_member hid).tokStr 128))
  rcases h with hread | ⟨c, id, hread, rfl⟩
  · cases hread with
    | malformed hbad =>
      rcases hbad with hcount | ⟨ty, ⟨-, env, d, d', hexec⟩, hne⟩
      · have hpos : 1 ≤ t.value.count := by
          cases t.value <;> simp [Value.count]
        omega
      · obtain ⟨r', hr', hpair⟩ := Option.map_eq_some_iff.mp hexec
        obtain rfl : r' = ty := (Prod.mk.inj hpair).1
        have htype := Option.some.inj (hr'.symm.trans (hhas env).tokType)
        exact absurd (htype.trans hroot) hne
    | missing hkey hnone =>
      have hmember := hfind hnone
      simp only [List.mem_cons, List.not_mem_nil, or_false] at hkey
      rcases hkey with rfl | rfl | rfl
      · rw [hy] at hmember
        cases hmember
      · rw [hid] at hmember
        cases hmember
      · rw [hz] at hmember
        cases hmember
    | ignored htype hno =>
      have hindex := hfind htype
      rw [hy] at hindex
      obtain rfl := Option.some.inj hindex
      obtain ⟨-, env, d, d', hexec⟩ := hno
      obtain ⟨r', hr', hpair⟩ := Option.map_eq_some_iff.mp hexec
      obtain rfl : r' = false := (Prod.mk.inj hpair).1
      rw [((hhas env).of_member hy).tokEq, hrequest] at hr'
      exact absurd (Option.some.inj hr') (by decide)
    | answered hji hstr => rw [htext hji hstr]
  · cases hread with
    | dispatched _ hji hstr => rw [htext hji hstr]

/-- In every state that the pool reaches, each request is at a place of the protocol, and each live
session has its array of tokens. -/
theorem inStep_tokenArrays
    (hreach : Reachable (Pool.move opts) (Pool.init dev o contextPackets) P) :
    ∃ ph, InStep P ph ∧ TokenArrays P.daemon := by
  refine hreach.invariant (I := fun P => ∃ ph, InStep P ph ∧ TokenArrays P.daemon)
    ⟨_, inStep_init dev o contextPackets, tokenArrays_init dev o contextPackets⟩ ?_
  rintro P m P' ⟨ph, hin, harrays⟩ hmove
  obtain ⟨ph', hin', -⟩ := hin.next hmove
  exact ⟨ph', hin', tokenArrays_move harrays hin hmove⟩

/-- A request that has been received and is done has been answered once. -/
theorem responses_of_done {ph : SessId → Phase} (hin : InStep P ph) (harrays : TokenArrays P.daemon)
    (hreq : RequestText t x) {ms : List Move} (hms : ∀ m ∈ ms, meanwhile i m = true)
    (hrun : runActs (Pool.move opts) P (.receive i t.text :: ms) = some P')
    (hdone : P'.threads i = none) :
    responses i P'.daemon = responses i P.daemon ++ [cstr (x.value.raw.take 127)] := by
  have hunder := underway_run hin hms hrun
  -- the frame could be received, so it is not too long for the buffer
  rw [runActs_cons, Option.bind_eq_some_iff] at hrun
  obtain ⟨P₁, hreceive, -⟩ := hrun
  obtain ⟨⟨hlive, -, -, hlen⟩, -⟩ := Option.ite_none_right_eq_some.mp hreceive
  have harray := harrays i hlive
  have hhas : ∀ env, (P.daemon.received i t.text env).Has t.root := fun env =>
    received_has hreq.wellFormed harray hreq.tokens hlen
  cases hunder with
  | going t q hthread => exact absurd (hthread.symm.trans hdone) (Option.some_ne_none _)
  | ended ids _ hids hsaid =>
    rw [jsmnParse_text hreq.wellFormed harray hreq.tokens] at hids
    rw [hsaid, responds_request hreq hhas hids]

/-- From any state that the pool can reach: a session's thread receives a request, and then the
threads and the connections move in any order, but for the arrival of further frames. When the
request is done, its client has got one response in the meantime, with the text of the request's id
as far as it fits the buffer. -/
theorem request_answered_once (hreach : Reachable (Pool.move opts) (Pool.init dev o contextPackets) P)
    (hreq : RequestText t x) {ms : List Move} (hms : ∀ m ∈ ms, meanwhile i m = true)
    (hrun : runActs (Pool.move opts) P (.receive i t.text :: ms) = some P')
    (hdone : P'.threads i = none) :
    responses i P'.daemon = responses i P.daemon ++ [cstr (x.value.raw.take 127)] := by
  obtain ⟨ph, hin, harrays⟩ := inStep_tokenArrays hreach
  exact responses_of_done hin harrays hreq hms hrun hdone

end

/-- Two clients, one of which is in the middle of a request. -/
def halfGreeted : List Move :=
  [.connect 5 (List.replicate maxJsonTokens ⟨.undefined, 0, 0, 0⟩),
    .connect 6 (List.replicate maxJsonTokens ⟨.undefined, 0, 0, 0⟩),
    .receive 1 helloFrame, .turn 1 (quiet 0)]

/-- Both requests go on, and a USB buffer arrives. -/
def sideBySide : List Move :=
  [.turn 1 (quiet 0), .turn 0 (quiet 0), .usb [] 0, .turn 1 (quiet 0)] ++
    List.replicate 15 (.turn 0 (quiet 0))

/-- A `hello` is answered with its id while another client's is in progress. -/
theorem request_answered_once_side_by_side :
    ∃ P P', Reachable (Pool.move openAccess) (Pool.init obedient ⟨.normal, false, false, 0, 0⟩ true) P ∧
      runActs (Pool.move openAccess) P (.receive 0 nestedHello.text :: sideBySide) = some P' ∧
      (P'.threads 1).isSome = true ∧
      responses 0 P'.daemon = responses 0 P.daemon ++ [bytes "1"] := by
  have htree : ((nestedHello.root.member (bytes "id")).any fun x =>
      cstr (x.value.raw.take 127) = bytes "1") = true := by
    decide +kernel
  have htype : ((nestedHello.root.member (bytes "type")).any fun y =>
      y.value.raw = bytes "request") = true := by
    decide +kernel
  have hcommand : ((nestedHello.root.member (bytes "command")).isSome) = true := by
    decide +kernel
  have hrun : ((runActs (Pool.move openAccess) (Pool.init obedient ⟨.normal, false, false, 0, 0⟩ true)
      halfGreeted).any fun P =>
        (runActs (Pool.move openAccess) P (.receive 0 nestedHello.text :: sideBySide)).any fun P' =>
          (P'.threads 0).isNone && (P'.threads 1).isSome) = true := by
    decide +kernel
  obtain ⟨x, hx, hid⟩ := (Option.any_eq_true ..).mp htree
  obtain ⟨y, hy, hrequest⟩ := (Option.any_eq_true ..).mp htype
  obtain ⟨z, hz⟩ := Option.isSome_iff_exists.mp hcommand
  obtain ⟨P, hP, hnext⟩ := (Option.any_eq_true ..).mp hrun
  obtain ⟨P', hP', hchecks⟩ := (Option.any_eq_true ..).mp hnext
  obtain ⟨hdone, hother⟩ := (Bool.and_eq_true ..).mp hchecks
  have hreq : RequestText nestedHello x :=
    ⟨by decide +kernel, by decide +kernel, ⟨y, hy, of_decide_eq_true hrequest⟩, hx, z, hz⟩
  refine ⟨P, P', ⟨_, hP⟩, hP', hother, ?_⟩
  rw [request_answered_once ⟨_, hP⟩ hreq (by decide) hP' (Option.isNone_iff_eq_none.mp hdone),
    of_decide_eq_true hid]

end SlcRtld.Property
