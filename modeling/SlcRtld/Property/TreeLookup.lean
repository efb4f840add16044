import SlcRtld.Control.Received
import SlcRtld.Property.Ownership

/-!
# Lookups in the token array are lookups in the tree

On a frame that is a JSON text, `tok_find_key` finds in every object of it, at any depth, the value
of the first member with the key, and nothing else (`lookup_matches_tree`); and `cmd_hello` looks at
the elements of `supported_protocol_versions` and at nothing inside them, so that it accepts exactly
the lists with an element `1.0`, if it looks in an object. `find_params` hands on a value of any
type, and the elements of an array are taken for keys and values (`hello_in_array_accepted`).
-/

namespace SlcRtld.Property

open Control Effect Json
open Effect.Prog (perform Post when)

/-! ## Token arrays -/

/-- The array of every connected session has the length it was allocated with. -/
def TokenArrays (d : Daemon) : Prop :=
  ∀ i, (d.sessions i).live = true → (d.tokens i).length = maxJsonTokens

section
variable {opts : Options} {d d' : Daemon}

/-- At the start the arrays of tokens have their length. -/
theorem tokenArrays_init (dev : Rtl.Device) (o : Rtl.Startup) (contextPackets : Bool) :
    TokenArrays (Daemon.init dev o contextPackets) := by
  intro i hlive
  cases hlive

/-- A request leaves the lengths of the arrays as they are. -/
theorem request_tokens {i : SessId} {frame : List UInt8} {env : Env}
    (h : d.request opts i frame env = some d') (j : SessId) :
    (d'.tokens j).length = (d.tokens j).length := by
  obtain ⟨⟨u, d₁⟩, hrun, rfl⟩ := Option.map_eq_some_iff.mp h
  rw [run_tokens hrun]
  show (Function.update d.tokens i (jsmnParse frame (d.tokens i)).2 j).length = _
  by_cases hj : j = i
  · subst hj
    rw [Function.update_self, jsmnParse_length]
  · rw [Function.update_of_ne hj]

/-- A step keeps their length. -/
theorem TokenArrays.next {a : Action} (h : TokenArrays d) (hown : Owned d)
    (hstep : step opts d a = some d') : TokenArrays d' := by
  intro j hlive
  cases a with
  -- a new session has the array of its thread's stack
  | connect fd stack =>
    obtain ⟨⟨-, hstack⟩, hd'⟩ := Option.ite_none_right_eq_some.mp hstep
    obtain rfl := Option.some.inj hd'
    rcases sessionCreate_cases fd stack d with hc | ⟨i, -, hc⟩
    · rw [hc] at hlive ⊢
      exact h j hlive
    · rw [hc] at hlive ⊢
      show (Function.update d.tokens i stack j).length = _
      by_cases hj : j = i
      · subst hj
        rw [Function.update_self, hstack]
      · rw [Function.update_of_ne hj]
        refine h j ?_
        rwa [← Daemon.modify_of_ne hj (fun _ => Session.new fd) d]
  -- the parser writes into the array and does not move it
  | request i frame env =>
    obtain ⟨⟨hlive', -⟩, hreq⟩ := Option.ite_none_right_eq_some.mp hstep
    rw [request_tokens hreq]
    by_cases hj : j = i
    · rw [hj]
      exact h i hlive'
    · obtain ⟨c, d₁, -, hout, rfl⟩ := request_outcome hreq
      have hserves := message_serves hown hlive' hout
      refine h j ?_
      split_ifs at hlive
      · rwa [destroy_of_ne opts env.device hj, hserves.others j hj] at hlive
      · rwa [hserves.others j hj] at hlive
  | disconnect i env =>
    obtain ⟨-, hdis⟩ := Option.ite_none_right_eq_some.mp hstep
    have hd' := hdis
    rw [disconnect_eq] at hd'
    obtain rfl := Option.some.inj hd'
    obtain ⟨⟨u, d₁⟩, hrun, hd₁⟩ := Option.map_eq_some_iff.mp hdis
    -- the end of a session leaves the arrays where they are
    have htokens : (d.destroy opts env.device i).tokens = d.tokens := by
      rw [← hd₁]
      exact run_tokens hrun
    by_cases hj : j = i
    · subst hj
      rw [destroy_self] at hlive
      cases hlive
    · rw [destroy_of_ne opts env.device hj] at hlive
      rw [htokens]
      exact h j hlive
  | usb buf nowMs =>
    obtain rfl := Option.some.inj hstep
    rw [(rtlCallback_frame buf nowMs d).1] at hlive
    have htokens : (d.rtlCallback buf nowMs).tokens = d.tokens := by
      unfold Daemon.rtlCallback
      split_ifs
      · rcases Rtl.measureAdcLevel buf nowMs d.adc with ⟨_ | level, adc⟩ <;> rfl
      · rfl
    rw [htokens]
    exact h j hlive

/-- In every reachable state the arrays have their length. -/
theorem tokens_length {dev : Rtl.Device} {o : Rtl.Startup} {contextPackets : Bool} {i : SessId}
    (hreach : Reachable (step opts) (Daemon.init dev o contextPackets) d)
    (hlive : (d.sessions i).live = true) : (d.tokens i).length = maxJsonTokens := by
  have hinv := hreach.invariant (I := fun d => Owned d ∧ TokenArrays d)
    ⟨owned_init dev o contextPackets, tokenArrays_init dev o contextPackets⟩
    fun _ _ _ h hs => ⟨h.1.next hs, h.2.next h.1 hs⟩
  exact hinv.2 i hlive

end

/-! ## The versions of a `hello` -/

/-- In a step the client of a session has been told that its `hello` is accepted. -/
def AcceptsHello (i : SessId) (d d' : Daemon) : Prop :=
  ∃ new id nonce, d'.trace = new ++ d.trace ∧ .sent i (.ok id (.hello nonce)) ∈ new

section
variable {opts : Options} {env : Env} {m : Msg} {i : SessId} {d d' : Daemon}

/-- An error accepts no `hello`. -/
theorem not_acceptsHello_error {id : CStr} {code : ErrorCode} {text : CStr} :
    ¬ AcceptsHello i d (d.send i (.error id code text)) := by
  rintro ⟨new, id', nonce, hnew, hmem⟩
  rw [← List.append_cancel_right hnew] at hmem
  split_ifs at hmem
  · cases List.mem_singleton.mp hmem
  · cases hmem

/-- A good reply accepts the `hello`. -/
theorem acceptsHello_ok {d₁ : Daemon} (new : List Obs) (htrace : d₁.trace = new ++ d.trace)
    (hlive : (d₁.sessions i).live = true) (id : CStr) (nonce : Option CStr) :
    AcceptsHello i d (d₁.send i (.ok id (.hello nonce))) := by
  refine ⟨.sent i (.ok id (.hello nonce)) :: new, id, nonce, ?_, List.mem_cons_self ..⟩
  show (if (d₁.sessions i).live then [Obs.sent i (.ok id (.hello nonce))] else []) ++ d₁.trace = _
  rw [if_pos hlive, htrace]
  rfl

/-- A message that is dispatched is an object. -/
theorem tokType_of_command {frame : List UInt8} {c : Command}
    (h : d.command opts i frame env = some (some c)) :
    (d.received i frame env).tokType 0 = some .object := by
  obtain ⟨id, henv⟩ := envelope_of_command h
  unfold envelope at henv
  split_ifs at henv with hn
  · cases henv
  cases htype : (d.received i frame env).tokType 0 with
  | none =>
    have hfail : exec opts env (d.received i frame env) i _ (.tokType 0) (d.tokenise i frame) =
        none := by
      show Option.map _ _ = _
      rw [htype]
      rfl
    rw [Prog.run_bind, Prog.run_perform, hfail] at henv
    cases henv
  | some ty =>
    rw [Prog.run_perform_bind (exec_read rfl htype)] at henv
    by_cases hobj : ty = .object
    · rw [hobj]
    · rw [if_pos hobj] at henv
      cases henv

/-- The root of a message has parameters with a list of versions that has the daemon's own among its
elements. -/
def ListsVersion (r : Node) : Prop :=
  ∃ p v, r.member (bytes "params") = some p ∧ p.member (bytes "supported_protocol_versions") = some v ∧
    v.value.type = .array ∧ ∃ x ∈ v.elements, x.value.raw = bytes "1.0"

/-- A `hello` without parameters, or with ones that are not an array with elements, is answered with
an error, and nothing else happens, unless it offers the daemon's version. -/
theorem cmdHello_refuses {r : Node} (hindex : r.index = 0) (hhas : m.Has r)
    (hroot : r.value.type = .object)
    (hflat : ∀ p, r.member (bytes "params") = some p → p.elements = [])
    (hnot : ¬ ListsVersion r) (id : CStr) :
    ∃ code text, (cmdHello opts id).run (exec opts env m i) d =
      some ((), d.send i (.error id code text)) := by
  have hparams := hhas.tokFindKey hroot (bytes "params")
  rw [hindex] at hparams
  unfold cmdHello findParams
  rw [Prog.run_perform_bind (exec_read rfl hparams)]
  cases hp : r.member (bytes "params") with
  | none => exact ⟨_, _, rfl⟩
  | some p =>
    have hfind := (hhas.of_member hp).tokFindKey_of_flat (hflat p hp)
      (bytes "supported_protocol_versions")
    simp only [Option.map_some]
    rw [Prog.run_perform_bind (exec_read rfl hfind)]
    cases hv : p.member (bytes "supported_protocol_versions") with
    | none => exact ⟨_, _, rfl⟩
    | some v =>
      have hvalue := (hhas.of_member hp).of_member hv
      simp only [Option.map_some]
      rw [Prog.run_perform_bind (exec_read rfl hvalue.tokType)]
      by_cases harr : v.value.type = .array
      -- no offered version is `1.0`, so the scan of the array finds none
      · have hnone : (v.elements.any fun x => (versionOfText x.value.raw).1) = false := by
          rw [Bool.eq_false_iff]
          intro hany
          obtain ⟨x, hx, hraw⟩ := List.any_eq_true.mp hany
          exact hnot ⟨p, v, hp, hv, harr, x, hx, of_decide_eq_true hraw⟩
        have hvers := hvalue.offeredVersions harr
        rw [hnone] at hvers
        rw [if_neg (not_not.mpr harr), Prog.run_perform_bind (exec_read rfl hvers)]
        exact ⟨_, _, rfl⟩
      · rw [if_pos harr]
        exact ⟨_, _, rfl⟩

/-- With the daemon's own version among the elements, the `hello` is accepted, if `getrandom`
answers where a challenge is issued. -/
theorem cmdHello_accepts {p v x : Node}
    (hparams : m.tokFindKey 0 (bytes "params") = some (some p.index)) (hp : m.Has p)
    (hobj : p.value.type = .object)
    (hv : p.member (bytes "supported_protocol_versions") = some v) (harr : v.value.type = .array)
    (hx : x ∈ v.elements) (hraw : x.value.raw = bytes "1.0")
    (hrandom : opts.rxAuth = true →
      (Auth.authMakeNonce env.random (d.sessions i).nonce).isSome = true)
    (hlive : (d.sessions i).live = true) (id : CStr) :
    ∃ d', (cmdHello opts id).run (exec opts env m i) d = some ((), d') ∧ AcceptsHello i d d' ∧
      (d'.sessions i).closeAfterReply = (d.sessions i).closeAfterReply := by
  have hfind := hp.tokFindKey hobj (bytes "supported_protocol_versions")
  rw [hv, Option.map_some] at hfind
  have hhas := hp.of_member hv
  have hany : (v.elements.any fun x => (versionOfText x.value.raw).1) = true :=
    List.any_eq_true.mpr ⟨x, hx, decide_eq_true hraw⟩
  have hvers := hhas.offeredVersions harr
  rw [hany] at hvers
  -- the name is read either way, and nothing depends on it
  have haccept : ∀ name : CStr, ∃ d', (do
      perform (.modify (Session.accept name))
      if opts.rxAuth then
        let hex ← issueChallenge
        sendOk id (.hello (some hex))
      else
        sendOk id (.hello none) : Prog Op Unit).run (exec opts env m i) d = some ((), d') ∧
      AcceptsHello i d d' ∧
      (d'.sessions i).closeAfterReply = (d.sessions i).closeAfterReply := by
    intro name
    have hlive' : ((d.modify i (Session.accept name)).sessions i).live = true := by
      rw [Daemon.modify_self]
      exact hlive
    have hmodify : exec opts env m i Unit (.modify (Session.accept name)) d =
        some ((), d.modify i (Session.accept name)) := rfl
    rw [Prog.run_perform_bind hmodify]
    cases hauth : opts.rxAuth with
    | false =>
      refine ⟨_, rfl, acceptsHello_ok [] rfl hlive' .., ?_⟩
      show ((d.modify i (Session.accept name)).sessions i).closeAfterReply = _
      rw [Daemon.modify_self]
      rfl
    | true =>
      obtain ⟨⟨made, raw⟩, hraw⟩ := Option.isSome_iff_exists.mp (hrandom hauth)
      have hnonce : exec opts env m i Bool .makeNonce (d.modify i (Session.accept name)) =
          some (made, ((d.modify i (Session.accept name)).modify i (Session.storeNonce made raw)).log
            [.nonce i (if made then some raw else none)]) := by
        show Daemon.makeNonce _ _ _ = _
        unfold Daemon.makeNonce
        rw [Daemon.modify_self]
        show Option.map _ (Auth.authMakeNonce env.random (d.sessions i).nonce) = _
        rw [hraw]
        rfl
      rw [if_pos rfl, issueChallenge, bind_assoc, Prog.run_perform_bind hnonce]
      have hself : ((((d.modify i (Session.accept name)).modify i
          (Session.storeNonce made raw)).modify i (Session.challenge made)).sessions i) =
            ((d.sessions i).accept name |>.storeNonce made raw |>.challenge made) := by
        rw [Daemon.modify_self, Daemon.modify_self, Daemon.modify_self]
      refine ⟨_, rfl, acceptsHello_ok [_] rfl ?_ .., ?_⟩
      · show Session.live (Daemon.sessions _ i) = true
        refine (congrArg Session.live hself).trans ?_
        cases made <;> exact hlive
      · refine (congrArg Session.closeAfterReply hself).trans ?_
        cases made <;> rfl
  unfold cmdHello findParams
  rw [Prog.run_perform_bind (exec_read rfl hparams)]
  simp only
  rw [Prog.run_perform_bind (exec_read rfl hfind)]
  simp only
  rw [Prog.run_perform_bind (exec_read rfl hhas.tokType), if_neg (not_not.mpr harr),
    Prog.run_perform_bind (exec_read rfl hvers)]
  simp only [Bool.not_true, Bool.false_eq_true, if_false]
  have hname := hp.tokFindKey hobj (bytes "client_name")
  rw [Prog.run_perform_bind (exec_read rfl hname)]
  cases hc : p.member (bytes "client_name") with
  | none => exact haccept _
  | some c =>
    simp only [Option.map_some]
    rw [Prog.run_perform_bind (exec_read rfl ((hp.of_member hc).tokStr 48))]
    exact haccept _

/-- Where the handler of a dispatched `hello` runs, and what it is answered. -/
theorem hello_request {t : Document} (hhas : (d.received i t.text env).Has t.root)
    (hroot : t.value.type = .object) (hcalm : (d.sessions i).closeAfterReply = false)
    (hlive : (d.sessions i).live = true)
    (hc : d.command opts i t.text env = some (some .hello))
    (hflat : ∀ p, t.root.member (bytes "params") = some p → p.elements = [])
    (hrandom : opts.rxAuth = true →
      (Auth.authMakeNonce env.random (d.sessions i).nonce).isSome = true) :
    ∃ d', d.request opts i t.text env = some d' ∧ (AcceptsHello i d d' ↔ ListsVersion t.root) := by
  obtain ⟨id, henv⟩ := envelope_of_command hc
  by_cases hoffers : ListsVersion t.root
  · obtain ⟨p, v, hp, hv, harr, x, hx, hraw⟩ := hoffers
    have hfind := hhas.tokFindKey hroot (bytes "params")
    rw [hp, Option.map_some] at hfind
    obtain ⟨d', hrun, haccepts, hclose⟩ := cmdHello_accepts (d := d.tokenise i t.text) hfind
      (hhas.of_member hp) (Node.object_of_member hv) hv harr hx hraw hrandom hlive id
    refine ⟨d', request_of_run henv hrun (hclose.trans hcalm), ?_⟩
    exact ⟨fun _ => ⟨p, v, hp, hv, harr, x, hx, hraw⟩, fun _ => haccepts⟩
  · have hrefuses : ∃ code text, (Command.hello.fn opts id).run
        (exec opts env (d.received i t.text env) i) (d.tokenise i t.text) =
          some ((), (d.tokenise i t.text).send i (.error id code text)) :=
      cmdHello_refuses rfl hhas hroot hflat hoffers id
    obtain ⟨code, text, hrun⟩ := hrefuses
    refine ⟨_, request_of_run henv hrun hcalm, ?_⟩
    exact ⟨fun h => absurd h not_acceptsHello_error, fun h => absurd h hoffers⟩

end

/-! ## The theorem -/

/-- A frame that is a JSON text, with tokens that fit the array: each node of it has its token at
its index; in every object, at any depth, `tok_find_key` finds the value of the first member with a
key, and none when the object has no such member; the loop of `cmd_hello` over an array sees its
elements; and a dispatched `hello` whose `params` is not an array with elements succeeds when one of
the versions is `1.0`, and only then. -/
theorem lookup_matches_tree {opts : Options} {dev : Rtl.Device} {o : Rtl.Startup}
    {contextPackets : Bool} {d : Daemon} {i : SessId} (env : Env) {t : Document}
    (hreach : Reachable (step opts) (Daemon.init dev o contextPackets) d)
    (hlive : (d.sessions i).live = true) (ht : t.wellFormed = true)
    (hlen : t.text.length ≤ maxMsgBytes) (hfit : t.value.count ≤ maxJsonTokens) :
    jsmnParse t.text (d.tokens i) =
      ((t.value.count : ℤ), t.value.toks t.before.length ++ (d.tokens i).drop t.value.count) ∧
    (∀ n, t.HasNode n →
      (d.received i t.text env).toks[n.index]? = (n.value.toks n.pos).head?) ∧
    (∀ n, t.HasNode n → n.value.type = .object → ∀ key : CStr,
      (d.received i t.text env).tokFindKey n.index key = some ((n.member key).map Node.index)) ∧
    (∀ n, t.HasNode n → n.value.type = .array → (d.received i t.text env).offeredVersions n.index =
      some (n.elements.any fun x => (versionOfText x.value.raw).1,
        n.elements.any fun x => (versionOfText x.value.raw).2)) ∧
    (d.command opts i t.text env = some (some .hello) →
      (∀ p, t.root.member (bytes "params") = some p → p.elements = []) →
      (opts.rxAuth = true → (Auth.authMakeNonce env.random (d.sessions i).nonce).isSome = true) →
      ∃ d', step opts d (.request i t.text env) = some d' ∧
        (AcceptsHello i d d' ↔ ListsVersion t.root)) := by
  have harray := tokens_length hreach hlive
  have hhas : (d.received i t.text env).Has t.root := received_has ht harray hfit hlen
  refine ⟨jsmnParse_text ht harray hfit, fun n hn => ?_, fun n hn hobj key => ?_,
    fun n hn harr => ?_, fun hc hflat hrandom => ?_⟩
  · obtain ⟨tok, ts, rest, hcons, hget, -⟩ := (hn.has hhas).token
    rw [hget, hcons]
    rfl
  · exact (hn.has hhas).tokFindKey hobj key
  · exact (hn.has hhas).offeredVersions harr
  · have hown : Owned d := hreach.invariant (owned_init dev o contextPackets) fun _ _ _ h hs =>
      h.next hs
    -- only an object is dispatched
    have hroot : t.value.type = .object := Option.some.inj
      (hhas.tokType.symm.trans (tokType_of_command hc))
    obtain ⟨d', hreq, haccepts⟩ := hello_request hhas hroot (hown.calm i) hlive hc hflat hrandom
    refine ⟨d', ?_, haccepts⟩
    have hpos : 1 ≤ t.text.length := by
      have hne : 0 < t.value.text.length := by
        cases hv : t.value with
        | emptyObject | object => simp [Value.text]
        | _ => simp [hv, Value.type] at hroot
      simp only [Document.text, List.length_append]
      omega
    exact (if_pos ⟨hlive, hpos, hlen⟩).trans hreq

/-- A string of characters that stand for themselves. -/
def plainString (s : String) : List Character := (bytes s).map .unescaped

/-- A `hello` that has a list of versions in a nested object besides its own, and a list among its
versions. -/
def nestedHello : Document where
  before := []
  value := .object []
    (.cons (plainString "type") [] [] (.string (plainString "request")) [] []
    (.cons (plainString "id") [] [] (.string (plainString "1")) [] []
    (.cons (plainString "command") [] [] (.string (plainString "hello")) [] []
    (.last (plainString "params") [] [0x20]
      (.object []
        (.cons (plainString "client") [] []
          (.object [] (.last (plainString "supported_protocol_versions") [] [] (.emptyArray []) []))
          [] []
        (.last (plainString "supported_protocol_versions") [] []
          (.array [] (.cons (.array [] (.last (.string (plainString "1.1")) [])) [] [0x20]
            (.last (.string (plainString "1.0")) []))) [])))
      []))))
  after := []

/-- The parameters are found behind three members, and the versions behind a list of the same
name. -/
theorem lookup_matches_tree_nested :
    ∃ d d', Reachable (step openAccess) started d ∧
      (d.received 0 nestedHello.text (quiet 0)).tokFindKey 0 (bytes "params") = some (some 8) ∧
      step openAccess d (.request 0 nestedHello.text (quiet 0)) = some d' ∧
      AcceptsHello 0 d d' := by
  -- a session that has just connected, and what the request means
  have hrun : ((runActs (step openAccess) started [connect]).any fun d =>
      (d.sessions 0).live &&
      d.command openAccess 0 nestedHello.text (quiet 0) = some (some .hello)) = true := by
    decide +kernel
  have htree : ((nestedHello.root.member (bytes "params")).any fun p =>
      p.index = 8 && p.value.type = .object &&
      (p.member (bytes "supported_protocol_versions")).any fun v => v.value.type = .array &&
        v.elements.any fun x => x.value.raw = bytes "1.0") = true := by
    decide +kernel
  obtain ⟨d, hd, hchecks⟩ := (Option.any_eq_true ..).mp hrun
  simp only [Bool.and_eq_true, decide_eq_true_eq] at hchecks
  obtain ⟨hlive, hcommand⟩ := hchecks
  obtain ⟨p, hp, hchecks⟩ := (Option.any_eq_true ..).mp htree
  simp only [Bool.and_eq_true, decide_eq_true_eq] at hchecks
  obtain ⟨⟨hindex, hobj⟩, hversions⟩ := hchecks
  obtain ⟨v, hv, hchecks⟩ := (Option.any_eq_true ..).mp hversions
  simp only [Bool.and_eq_true, decide_eq_true_eq, List.any_eq_true] at hchecks
  have hflat : ∀ q, nestedHello.root.member (bytes "params") = some q → q.elements = [] := by
    intro q hq
    rw [hp] at hq
    obtain rfl := Option.some.inj hq
    exact Node.elements_of_object hobj
  have hreach : Reachable (step openAccess) started d := ⟨[connect], hd⟩
  obtain ⟨-, -, hfind, -, hhello⟩ := lookup_matches_tree (quiet 0) hreach hlive
    (by decide +kernel : nestedHello.wellFormed = true) (by decide +kernel) (by decide +kernel)
  obtain ⟨d', hd', haccepts⟩ := hhello hcommand hflat nofun
  have hparams := hfind nestedHello.root .root rfl (bytes "params")
  rw [hp, Option.map_some, hindex] at hparams
  exact ⟨d, d', hreach, hparams, hd', haccepts.mpr ⟨p, v, hp, hv, hchecks⟩⟩

/-- A `hello` whose parameters are an array: the name of the list of versions, and the list. -/
def arrayHello : Document where
  before := []
  value := .object []
    (.cons (plainString "type") [] [] (.string (plainString "request")) [] []
    (.cons (plainString "id") [] [] (.string (plainString "1")) [] []
    (.cons (plainString "command") [] [] (.string (plainString "hello")) [] []
    (.last (plainString "params") [] []
      (.array [] (.cons (.string (plainString "supported_protocol_versions")) [] []
        (.last (.array [] (.last (.string (plainString "1.0")) [])) [])))
      []))))
  after := []

/-- The message has no member `supported_protocol_versions`, and it is accepted. -/
theorem hello_in_array_accepted :
    arrayHello.wellFormed = true ∧ arrayHello.text.length ≤ maxMsgBytes ∧
      arrayHello.value.count ≤ maxJsonTokens ∧ ¬ ListsVersion arrayHello.root ∧
    ∃ d d', Reachable (step openAccess) started d ∧ (d.sessions 0).live = true ∧
      step openAccess d (.request 0 arrayHello.text (quiet 0)) = some d' ∧ AcceptsHello 0 d d' := by
  have hnone : ((arrayHello.root.member (bytes "params")).all fun p =>
      (p.member (bytes "supported_protocol_versions")).isNone) = true := by
    decide +kernel
  refine ⟨by decide +kernel, by decide +kernel, by decide +kernel, ?_, ?_⟩
  · rintro ⟨p, v, hp, hv, -⟩
    rw [hp, Option.all_some, hv] at hnone
    cases hnone
  have hrun : ((runActs (step openAccess) started [connect]).any fun d => (d.sessions 0).live &&
      (step openAccess d (.request 0 arrayHello.text (quiet 0))).any fun d' =>
        d'.trace = .sent 0 (.ok (bytes "1") (.hello none)) :: d.trace) = true := by
    decide +kernel
  obtain ⟨d, hd, hchecks⟩ := (Option.any_eq_true ..).mp hrun
  obtain ⟨hlive, hstep⟩ := Bool.and_eq_true_iff.mp hchecks
  obtain ⟨d', hd', htrace⟩ := (Option.any_eq_true ..).mp hstep
  exact ⟨d, d', ⟨[connect], hd⟩, hlive, hd', [_], _, _, of_decide_eq_true htrace,
    List.mem_singleton_self _⟩

end SlcRtld.Property
