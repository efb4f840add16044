import SlcRtld.Control.Frame
import SlcRtld.Json.Lookup

/-!
# The message that a thread reads

Where a frame stands when its handler runs: its bytes at the start of `msg_buf`, and its tokens at
the start of the thread's array, which no handler writes to. So a frame that is a JSON text stands
in memory as `Json.Lookup` asks for, and the helpers answer what the syntax tree does.
-/

namespace SlcRtld.Control

open Effect Json

variable {opts : Options} {env : Env} {i : SessId} {d d' : Daemon}

/-! ## The token arrays -/

/-- No operation writes to `msg_buf` or to a token array. -/
theorem exec_memory {m : Msg} {β : Type} {o : Op β} {b : β}
    (ho : exec opts env m i β o d = some (b, d')) : d'.msgBuf = d.msgBuf ∧ d'.tokens = d.tokens := by
  by_cases hreads : o.Reads
  · rw [exec_reads hreads ho]
    exact ⟨rfl, rfl⟩
  cases o with
  | makeNonce =>
    obtain ⟨raw, -, rfl⟩ := makeNonce_eq ho
    exact ⟨rfl, rfl⟩
  | rxClaim =>
    obtain rfl : (d.rxClaim i).2 = d' := congrArg Prod.snd (Option.some.inj ho)
    unfold Daemon.rxClaim
    split_ifs <;> exact ⟨rfl, rfl⟩
  | send | broadcast | modify | checkResponse | freeSession | rxReleaseLocked | allocStreamId | set
  | resetAdcLevel | vitaSessionAdd | vitaSessionRemove | vitaUpdatePayloadFormat
  | vitaSendContextAll | bridgeStart | bridgeStopLocked | pthreadJoin =>
    cases ho
    exact ⟨rfl, rfl⟩
  | _ => exact absurd trivial hreads

/-- A handler leaves the tokens. -/
theorem run_tokens {m : Msg} {α : Type} {p : Prog Op α} {a : α}
    (hp : p.run (exec opts env m i) d = some (a, d')) : d'.tokens = d.tokens :=
  Prog.run_rel (fun d d' : Daemon => d'.tokens = d.tokens) (fun _ => rfl)
    (fun _ _ _ h h' => Eq.trans h' h)
    (fun _ _ _ _ _ _ ho => (exec_memory ho).2) (Prog.uses_true p) hp

/-! ## The frame in memory -/

/-- The tokens of the message, and behind them the stack. -/
theorem received_toks (frame : List UInt8) :
    (d.received i frame env).toks = (jsmnParse frame (d.tokens i)).2 ++ env.stack := by
  show Function.update d.tokens i (jsmnParse frame (d.tokens i)).2 i ++ env.stack = _
  rw [Function.update_self]

/-- The bytes of the message are those of the frame. -/
theorem received_js {frame : List UInt8} (hlen : frame.length ≤ maxMsgBytes) {k : ℕ}
    (hk : k < frame.length) : (d.received i frame env).js k = frame[k]? := by
  have hlt : k < (frame ++ [0]).length := by
    rw [List.length_append]
    omega
  have hjs : ∀ pos : ℤ, (d.received i frame env).js pos = if 0 ≤ pos ∧ pos < maxMsgBytes + 1 then
      some ((frame ++ [0] ++ d.msgBuf.drop (frame.length + 1)).getD pos.toNat 0)
      else env.outside pos := fun _ => rfl
  rw [hjs, if_pos ⟨by omega, by omega⟩, Int.toNat_natCast, List.getD_eq_getElem?_getD,
    List.getElem?_append_left hlt, List.getElem?_append_left hk, List.getElem?_eq_getElem hk]
  rfl

/-- A list whose bytes stand one after the other is held. -/
theorem holds_of_js {m : Msg} {text : Bytes} (pos : ℕ)
    (h : ∀ k, k < text.length → m.js (pos + k : ℕ) = text[k]?) : m.Holds pos text := by
  induction text generalizing pos with
  | nil => exact Msg.holds_nil _
  | cons c text ih =>
    refine Msg.holds_cons.mpr ⟨h 0 (Nat.succ_pos _), ?_⟩
    refine ih (pos + 1) fun k hk => ?_
    have hnext := h (k + 1) (Nat.succ_lt_succ hk)
    rw [List.getElem?_cons_succ] at hnext
    rw [← hnext]
    congr 2
    omega

/-- The message holds the frame. -/
theorem received_holds {frame : List UInt8} (hlen : frame.length ≤ maxMsgBytes) :
    (d.received i frame env).Holds 0 frame :=
  holds_of_js 0 fun k hk => by
    rw [Nat.zero_add]
    exact received_js hlen hk

/-- A frame that is a JSON text stands in memory with its tokens. -/
theorem received_has {t : Document} (ht : t.wellFormed = true)
    (harray : (d.tokens i).length = maxJsonTokens) (hfit : t.value.count ≤ maxJsonTokens)
    (hlen : t.text.length ≤ maxMsgBytes) : (d.received i t.text env).Has t.root := by
  have hheld : (d.received i t.text env).Holds 0 t.text := received_holds hlen
  have htext : t.text = t.before ++ (t.value.text ++ t.after) := by simp [Document.text]
  rw [htext] at hheld
  obtain ⟨-, hrest⟩ := Msg.holds_append.mp hheld
  obtain ⟨hvalue, -⟩ := Msg.holds_append.mp hrest
  rw [Int.zero_add, ← htext] at hvalue
  refine ⟨hvalue, ?_⟩
  show t.value.toks t.before.length <+: _
  rw [received_toks, jsmnParse_text ht harray hfit]
  exact ⟨(d.tokens i).drop t.value.count ++ env.stack, by simp [Document.root]⟩

end SlcRtld.Control
