import SlcRtld.Control.Parametric
import SlcRtld.Json.Inside
import SlcRtld.Property.TreeLookup

/-!
# Lookups and the end of the message

The token array is not cleared between messages, and `tok_find_key` is not told how many tokens the
message has. No lookup that the dispatcher and the handlers make on a message reads a token past its
last one, or answers with one, exactly if behind each token that they look in the tokens of the
message pair up (`lookups_inside`). They do on a message whose keys all have one value, and whose
`params` is an object or has no children; on others a lookup can leave the message
(`lookup_leaves_message`).
-/

namespace SlcRtld.Property

open Control Effect Json
open Effect.Prog (perform)

/-! ## What can be read -/

/-- A comparison inside the text. -/
theorem matchesAt_some {m : Msg} {pos : ℤ} {s : CStr}
    (h : ∀ k, k < s.length → ∃ b, m.js (pos + k) = some b) : ∃ b, m.matchesAt pos s = some b := by
  induction s generalizing pos with
  | nil => exact ⟨true, rfl⟩
  | cons c s ih =>
    obtain ⟨x, hx⟩ := h 0 (Nat.succ_pos _)
    rw [Int.natCast_zero, Int.add_zero] at hx
    unfold Msg.matchesAt
    simp only [hx]
    split_ifs
    · refine ih fun k hk => ?_
      obtain ⟨y, hy⟩ := h (k + 1) (Nat.succ_lt_succ hk)
      refine ⟨y, ?_⟩
      rw [← hy]
      congr 1
      push_cast
      omega
    · exact ⟨false, rfl⟩

section
variable {i : SessId} {d : Daemon} {frame : List UInt8}

/-- The tokens of a message that has been parsed. -/
def parsed (i : SessId) (frame : List UInt8) (d : Daemon) : List Tok :=
  (jsmnParse frame (d.tokens i)).2.take (jsmnParse frame (d.tokens i)).1.toNat

/-- The tokens of a message are a hedge, as many as `jsmn_parse` has counted, and their texts can be
read. -/
theorem received_sane (env : Env) (harray : (d.tokens i).length = maxJsonTokens)
    (hlen : frame.length ≤ maxMsgBytes) (hn : 0 ≤ (jsmnParse frame (d.tokens i)).1) :
    Sane ((d.received i frame env).cut (jsmnParse frame (d.tokens i)).1.toNat) (parsed i frame d) ∧
      ((parsed i frame d).length : ℤ) = (jsmnParse frame (d.tokens i)).1 := by
  obtain ⟨w, rest, k, htoks, hcount, hhedge, hsizes, hspans⟩ := jsmnParse_hedge harray
    (Prod.mk.eta (p := jsmnParse frame (d.tokens i))).symm hn
  have hw : parsed i frame d = w := by
    rw [parsed, htoks, hcount, Int.toNat_natCast, List.take_left]
  rw [hw]
  refine ⟨⟨?_, ⟨k, hhedge⟩, hsizes, fun t ht s => ?_⟩, hcount.symm⟩
  · show (d.received i frame env).toks.take _ = w
    rw [received_toks, htoks, hcount, Int.toNat_natCast, List.append_assoc, List.take_left]
  · obtain ⟨hstart, hstop⟩ := hspans t ht
    unfold Msg.eqTok
    split_ifs with hsame
    · refine matchesAt_some fun k hk => ?_
      have hk' : (t.start + k).toNat < frame.length := by omega
      have hjs : (d.received i frame env).js ((t.start + k).toNat : ℕ) = frame[(t.start + k).toNat]? :=
        received_js hlen hk'
      rw [Int.toNat_of_nonneg (by omega), List.getElem?_eq_getElem hk'] at hjs
      exact ⟨_, hjs⟩
    · exact ⟨false, rfl⟩

end

/-! ## The lookups of a request -/

/-- A lookup reads no token from the `n`th on, and does not answer with one. -/
def LookupInside (m : Msg) (n : ℕ) : ∀ β : Type, Op β → Prop
  | _, .tokFindKey obj key =>
    ∃ a, (m.cut n).tokFindKey obj (bytes key) = some a ∧ ∀ j, a = some j → j < n
  | _, .offeredVersions v => ∃ a, (m.cut n).offeredVersions v = some a
  | _, _ => True

/-- The tokens behind the one that a lookup looks in pair up, and the loop of `cmd_hello` is given
an array of the message. -/
def LookupPairsUp (m : Msg) (w : List Tok) : ∀ β : Type, Op β → Prop
  | _, .tokFindKey obj key =>
    ∃ t, w[obj]? = some t ∧ PairsUp m (bytes key) t.size.toNat (w.drop (obj + 1))
  | _, .offeredVersions v => v < w.length
  | _, _ => True

/-- What an operation of session `i` can answer, in whatever state of the daemon. -/
def CanAnswer (opts : Options) (env : Env) (m : Msg) (i : SessId) (β : Type) (o : Op β) (b : β) :
    Prop :=
  ∃ d d', exec opts env m i β o d = some (b, d')

/-- The value of a member `params` is an object, or has no children. -/
def ParamsObject (m : Msg) (w : List Tok) : Prop :=
  ∀ c, Child w 0 c → m.tokEq c (bytes "params") = some true →
    ∀ u, w[c + 1]? = some u → u.type = .object ∨ u.size = 0

/-- The tokens of one message, each related to itself. -/
def tokensOf (w : List Tok) : Indices where
  value := fun j j' => j = j' ∧ j < w.length
  typed := fun j j' => j = j' ∧ j < w.length
  object := fun j j' => j = j' ∧ ∃ t, w[j]? = some t ∧ (t.type = .object ∨ t.size = 0)
  array := fun j j' => j = j' ∧ j < w.length
  typed_of_value := id

section
variable {opts : Options} {env : Env} {m : Msg} {i : SessId} {w : List Tok} {n : ℕ}

/-- A lookup stays inside exactly when the tokens behind the one it looks in pair up. -/
theorem lookupInside_iff (hsane : Sane (m.cut n) w) (hn : w.length = n) (β : Type) (o : Op β) :
    LookupInside m n β o ↔ LookupPairsUp (m.cut n) w β o := by
  cases o with
  | tokFindKey obj key =>
    unfold LookupInside
    rw [← hn]
    rw [← hn] at hsane
    exact hsane.tokFindKey_inside_iff obj (bytes key)
  | offeredVersions v =>
    refine ⟨?_, hsane.offeredVersions⟩
    rintro ⟨a, ha⟩
    by_contra hv
    rw [Msg.offeredVersions, hsane.toks, List.getElem?_eq_none_iff.mpr (Nat.le_of_not_lt hv)] at ha
    cases ha
  | _ => exact Iff.rfl

/-- An operation that reads returns what it has read. -/
theorem canAnswer_map {β : Type} {o : Op β} {x : Option β} {b : β}
    (ho : ∀ d, exec opts env m i β o d = x.map (·, d)) (h : CanAnswer opts env m i β o b) :
    x = some b := by
  obtain ⟨d, d', hd⟩ := h
  rw [ho] at hd
  obtain ⟨b', hb', hpair⟩ := Option.map_eq_some_iff.mp hd
  rw [hb', (Prod.mk.inj hpair).1]

/-- Every question about the tokens of a message is one that stays inside, and so is what it
answers. -/
theorem asks_inside (hsane : Sane (m.cut n) w) (hn : w.length = n) (hpaired : Paired w)
    (hparams : ParamsObject m w) (β γ : Type) (o : Op β) (o' : Op γ) (S : β → γ → Prop)
    (h : Asks (tokensOf w) β γ o o' S) :
    LookupInside m n β o ∧ ∀ b, CanAnswer opts env m i β o b → ∃ c, S b c := by
  cases h with
  -- a key that is found has its value behind it, inside the message
  | @tokFindKey obj obj' key hobj hroot =>
    obtain ⟨rfl, t, ht, hlooks⟩ := hobj
    obtain ⟨a, ha, hinside⟩ := hsane.tokFindKey hpaired ht hlooks (bytes key)
    refine ⟨⟨a, ha, fun j hj => hn ▸ (hinside j hj).1⟩, fun b hb => ⟨b, ?_⟩⟩
    have hb' : a = b := Option.some.inj
      ((Msg.tokFindKey_le (m.cut_le n) ha).symm.trans (canAnswer_map (fun _ => rfl) hb))
    subst hb'
    cases a with
    | none => exact .none
    | some j =>
      obtain ⟨hlt, c, rfl, hchild, hkey⟩ := hinside j rfl
      refine .some ⟨rfl, hlt⟩ (fun _ => ⟨rfl, hlt⟩) fun hp => ⟨rfl, _, List.getElem?_eq_getElem hlt, ?_⟩
      obtain ⟨rfl, -⟩ := hroot hp
      subst hp
      exact hparams c hchild (Msg.tokEq_le (m.cut_le n) hkey) _ (List.getElem?_eq_getElem hlt)
  | offeredVersions harr => 
    obtain ⟨rfl, hlt⟩ := harr
    exact ⟨hsane.offeredVersions hlt, fun b _ => ⟨b, rfl⟩⟩
  -- the type tells that the value is an object
  | @tokType j j' hv =>
    obtain ⟨rfl, hlt⟩ := hv
    refine ⟨trivial, fun b hb => ⟨b, rfl, fun hobj => ⟨rfl, _, List.getElem?_eq_getElem hlt, ?_⟩,
      fun _ => ⟨rfl, hlt⟩⟩⟩
    have htype : (m.cut n).tokType j = some w[j].type := by
      unfold Msg.tokType
      rw [hsane.toks, List.getElem?_eq_getElem hlt]
      rfl
    have hb' := (Msg.tokType_le (m.cut_le n) htype).symm.trans (canAnswer_map (fun _ => rfl) hb)
    exact .inl ((Option.some.inj hb').trans hobj)
  | tokEq | tokStr | tokIsPrimitive => exact ⟨trivial, fun b _ => ⟨b, rfl⟩⟩
  | silent ho =>
    refine ⟨?_, fun b _ => ⟨b, rfl⟩⟩
    cases o with
    | tokFindKey | offeredVersions => cases ho
    | _ => trivial

end

/-! ## The theorem -/

/-- Every operation that the round of the loop performs on a message has a property. -/
def RoundPerforms (opts : Options) (i : SessId) (frame : List UInt8) (env : Env)
    (P : ∀ β : Type, Op β → Prop) (d : Daemon) : Prop :=
  (sessionRound opts (jsmnParse frame (d.tokens i)).1).Performs
    (exec opts env (d.received i frame env) i) P (d.tokenise i frame)

/-- The lookups of the round stay inside the message. -/
def LookupsInside (opts : Options) (i : SessId) (frame : List UInt8) (env : Env) (d : Daemon) : Prop :=
  RoundPerforms opts i frame env
    (LookupInside (d.received i frame env) (jsmnParse frame (d.tokens i)).1.toNat) d

/-- Behind every token that the round looks in, the tokens of the message pair up. -/
def LookupsPairUp (opts : Options) (i : SessId) (frame : List UInt8) (env : Env) (d : Daemon) : Prop :=
  RoundPerforms opts i frame env (LookupPairsUp
    ((d.received i frame env).cut (jsmnParse frame (d.tokens i)).1.toNat) (parsed i frame d)) d

/-- No lookup of the round reads a token left over from an earlier message, or answers with one, if
and only if behind every token that it looks in the tokens of the message pair up. That is so,
whatever the other operations answer, on a message with one value for each key, and with no `params`
or with one that keys can be looked up in. -/
theorem lookups_inside {opts : Options} {dev : Rtl.Device} {o : Rtl.Startup} {contextPackets : Bool}
    {d : Daemon} {i : SessId} {frame : List UInt8} (env : Env)
    (hreach : Reachable (step opts) (Daemon.init dev o contextPackets) d)
    (hlive : (d.sessions i).live = true) (hlen : frame.length ≤ maxMsgBytes)
    (hn : 1 ≤ (jsmnParse frame (d.tokens i)).1) :
    (LookupsInside opts i frame env d ↔ LookupsPairUp opts i frame env d) ∧
    (Paired (parsed i frame d) → ParamsObject (d.received i frame env) (parsed i frame d) →
      (sessionRound opts (jsmnParse frame (d.tokens i)).1).Meets
        (CanAnswer opts env (d.received i frame env) i)
        (LookupInside (d.received i frame env) (jsmnParse frame (d.tokens i)).1.toNat)) := by
  obtain ⟨hsane, hcount⟩ := received_sane env (tokens_length hreach hlive) hlen (by omega)
  have hw : (parsed i frame d).length = (jsmnParse frame (d.tokens i)).1.toNat := by omega
  refine ⟨Prog.performs_congr (lookupInside_iff hsane hw) _ _, fun hpaired hparams => ?_⟩
  have hfirst : (tokensOf (parsed i frame d)).typed 0 0 := ⟨rfl, by omega⟩
  exact (sessionRound_alike hfirst Iff.rfl).meets (asks_inside hsane hw hpaired hparams)

/-- A `hello` is looked up inside its own tokens. -/
theorem lookups_inside_hello : ∃ d, Reachable (step openAccess) started d ∧
    LookupsInside openAccess 0 helloFrame (quiet 0) d ∧
    LookupsPairUp openAccess 0 helloFrame (quiet 0) d := by
  have hrun : ((runActs (step openAccess) started [connect]).any fun d =>
      (d.sessions 0).live && 1 ≤ (jsmnParse helloFrame (d.tokens 0)).1 &&
      Paired (parsed 0 helloFrame d) &&
      (List.range (parsed 0 helloFrame d).length).all fun c =>
        ((d.received 0 helloFrame (quiet 0)).tokEq c (bytes "params") = some true →
          ((parsed 0 helloFrame d)[c + 1]?.all fun u => u.type = .object) = true)) = true := by
    decide +kernel
  obtain ⟨d, hd, hchecks⟩ := (Option.any_eq_true ..).mp hrun
  simp only [Bool.and_eq_true, decide_eq_true_eq, and_assoc, List.all_eq_true, List.mem_range]
    at hchecks
  obtain ⟨hlive, hn, hpaired, hparams⟩ := hchecks
  obtain ⟨hiff, halways⟩ := lookups_inside (quiet 0) ⟨[connect], hd⟩ hlive (by decide +kernel) hn
  have hmeets := halways hpaired fun c hchild hkey u hu => by
    have hc := hparams c (by have := (List.getElem?_eq_some_iff.mp hu).1; omega) hkey
    rw [hu] at hc
    exact .inl (of_decide_eq_true hc)
  have hinside : LookupsInside openAccess 0 helloFrame (quiet 0) d :=
    hmeets.performs (fun _ _ s b s' h => ⟨s, s', h⟩) _
  exact ⟨d, ⟨[connect], hd⟩, hinside, hiff.mp hinside⟩

/-- A key without a value. -/
def bareType : List UInt8 := bytes "\x7b\"type\"\x7d"

/-- The only key of the message has no value, and `tok_find_key` answers with the token after the
last one of the message. -/
theorem lookup_leaves_message : ∃ d, Reachable (step openAccess) started d ∧
    (d.sessions 0).live = true ∧ (jsmnParse bareType (d.tokens 0)).1 = 2 ∧
    ((parsed 0 bareType d)[0]?.any fun t => t.type = .object) = true ∧
    (d.received 0 bareType (quiet 0)).tokFindKey 0 (bytes "type") = some (some 2) ∧
    ¬ LookupsInside openAccess 0 bareType (quiet 0) d := by
  have hrun : ((runActs (step openAccess) started [connect]).any fun d =>
      (d.sessions 0).live && (jsmnParse bareType (d.tokens 0)).1 = 2 &&
      ((parsed 0 bareType d)[0]?.any fun t => t.type = .object) &&
      (d.received 0 bareType (quiet 0)).tokFindKey 0 (bytes "type") = some (some 2) &&
      ((d.received 0 bareType (quiet 0)).cut 2).tokFindKey 0 (bytes "type") = some (some 2) &&
      (d.received 0 bareType (quiet 0)).tokType 0 = some .object) = true := by
    decide +kernel
  obtain ⟨d, hd, hchecks⟩ := (Option.any_eq_true ..).mp hrun
  simp only [Bool.and_eq_true, decide_eq_true_eq, and_assoc] at hchecks
  obtain ⟨hlive, hn, hroot, hfind, hcut, htype⟩ := hchecks
  refine ⟨d, ⟨[connect], hd⟩, hlive, hn, hroot, hfind, fun h => ?_⟩
  unfold LookupsInside RoundPerforms at h
  rw [hn] at h
  -- the root is found to be an object, and the first key asked for is the type
  obtain ⟨⟨a, ha, hinside⟩, -⟩ := h.2 _ _ (exec_read rfl htype)
  rw [show ((2 : ℤ).toNat) = 2 from rfl, hcut] at ha
  exact absurd (hinside 2 (Option.some.inj ha).symm) (by decide)

end SlcRtld.Property
