import SlcRtld.Control.Frame

/-!
# The receiver's registers

The daemon keeps in its own variables what it has set the receiver to. The registers that the gain
and the bias tee are set by are what the librtlsdr calls have left in them, and the trace has the
calls. `exec_hardware` says which operations of a session thread make such a call: the setters, and
no other.
-/

namespace SlcRtld.Control

open Libc Rtl Auth Vita Json Effect

/-- The registers of the tuner's gain and of the bias tee. -/
structure Registers where
  /-- The tuner sets its gain itself. -/
  automatic : Bool
  gain : ℤ
  biasTee : Bool
deriving DecidableEq

/-- A call of librtlsdr that succeeds. A gain is rounded to one that the tuner has. -/
def Registers.call (applied : ℤ → ℤ) (r : Registers) : HwCall → Registers
  | .setTunerGainMode manual => { r with automatic := !manual }
  | .setTunerGain tenth => { r with gain := applied tenth }
  | .setBiasTee on => { r with biasTee := on }
  | _ => r

/-- The gain that the tuner is told last at startup, if the AGC is off. -/
def startupGain (o : Startup) : ℤ :=
  if o.gainTenth ≠ rtlDefaultGain then
    ((Double.ofRat (o.gainTenth / 10)).mulPos 10).roundToInt
  else rtlDefaultGain

/-- The registers after `rtl_bridge_init`, and after `main` has applied `--gain`. With `--agc` the
tuner is told no gain. -/
def Registers.init (applied : ℤ → ℤ) (dev : Device) (o : Startup) : Registers where
  automatic := o.agc
  gain := if o.agc then dev.startGain else applied (startupGain o)
  biasTee := o.biasTee

/-- The registers after calls, the last one first. -/
def Registers.calls (applied : ℤ → ℤ) (r : Registers) (cs : List HwCall) : Registers :=
  cs.foldr (fun c r => r.call applied c) r

/-- The call that was observed, if it is one. -/
def Obs.call : Obs → Option HwCall
  | .hardware c => some c
  | _ => none

/-- The registers in a state of the daemon. -/
def Daemon.registers (applied : ℤ → ℤ) (r : Registers) (d : Daemon) : Registers :=
  r.calls applied (d.trace.filterMap Obs.call)

/-- The observation is not of a setting. -/
def Obs.inert (o : Obs) : Prop := ∀ c, o.call = some c → c = .resetBuffer ∨ c = .cancelAsync

section
variable {applied : ℤ → ℤ} {r : Registers} {d d' : Daemon}

/-- Some calls, and then more. -/
theorem Registers.calls_append (cs cs' : List HwCall) :
    r.calls applied (cs ++ cs') = (r.calls applied cs').calls applied cs := List.foldr_append

/-- Observations that are not of a setting leave the registers as they are. -/
theorem registers_of_inert (h : Emits Obs.inert d d') :
    d'.registers applied r = d.registers applied r := by
  obtain ⟨new, hnew, hinert⟩ := h
  rw [Daemon.registers, Daemon.registers, hnew, List.filterMap_append, Registers.calls_append]
  generalize r.calls applied (d.trace.filterMap Obs.call) = r'
  clear hnew
  induction new with
  | nil => rfl
  | cons o os ih =>
    obtain ⟨ho, hos⟩ := List.forall_mem_cons.mp hinert
    cases hcall : o.call with
    | none => rw [List.filterMap_cons_none hcall, ih hos]
    | some c =>
      rw [List.filterMap_cons_some hcall]
      show ((r'.calls applied _).call applied c) = r'
      rw [ih hos]
      rcases ho c hcall with rfl | rfl <;> rfl

/-- A setter makes its calls. -/
theorem registers_set (dev : Device) {β : Type} (x : Setting β) :
    ((d.set dev x).2).registers applied r =
      (d.registers applied r).calls applied (x.apply dev d.radio).2.2 := by
  have hcalls : ∀ cs : List HwCall, (cs.map Obs.hardware).filterMap Obs.call = cs := fun cs => by
    rw [List.filterMap_map]
    exact List.filterMap_some
  show r.calls applied ((((x.apply dev d.radio).2.2).map Obs.hardware ++ d.trace).filterMap
    Obs.call) = _
  rw [List.filterMap_append, hcalls, Registers.calls_append]
  rfl

end

/-- The surroundings that a step runs in, if it is a session thread's. -/
def Action.env : Action → Option Env
  | .request _ _ env | .disconnect _ env => some env
  | _ => none

section
variable {opts : Options} {env : Env} {m : Msg} {i : SessId} {d d' : Daemon}

/-- What is no call leaves the registers. -/
theorem inert_of_no_call {o : Obs} (h : o.call = none) : o.inert := fun c hc => by
  rw [h] at hc
  cases hc

/-- A frame. -/
theorem inert_send (f : Frame) : Emits Obs.inert d (d.send i f) := .send (inert_of_no_call rfl) d

/-- An event. -/
theorem inert_broadcast (skip : Option SessId) (e : Event) :
    Emits Obs.inert d (d.broadcast skip e) :=
  .log (forall_mem_map_obs (fun _ => inert_of_no_call rfl) _) d

/-- The packets. -/
theorem inert_vitaApply (o : VitaOp) : Emits Obs.inert d (d.vitaApply o) :=
  ⟨_, rfl, forall_mem_map_obs (fun _ => inert_of_no_call rfl) _⟩

/-- Only a setter sets the receiver. -/
theorem exec_hardware {β : Type} {o : Op β} {b : β} (h : exec opts env m i β o d = some (b, d')) :
    (∃ x : Setting β, o = .set x ∧ d' = (d.set env.device x).2) ∨
      (∀ x : Setting β, o ≠ .set x) ∧ d'.radio = d.radio ∧ Emits Obs.inert d d' := by
  -- most operations only read
  by_cases hreads : o.Reads
  · rw [exec_reads hreads h]
    refine .inr ⟨?_, rfl, .of_eq rfl⟩
    rintro x rfl
    exact hreads
  cases o with
  | set x =>
    cases h
    exact .inl ⟨x, rfl, rfl⟩
  | makeNonce =>
    refine .inr ⟨nofun, ?_, .makeNonce (fun _ => inert_of_no_call rfl) h⟩
    obtain ⟨raw, -, rfl⟩ := makeNonce_eq h
    rfl
  | rxClaim =>
    obtain rfl : (d.rxClaim i).2 = d' := congrArg Prod.snd (Option.some.inj h)
    unfold Daemon.rxClaim
    split_ifs <;> exact .inr ⟨nofun, rfl, .of_eq rfl⟩
  | send f =>
    cases h
    exact .inr ⟨nofun, rfl, inert_send f⟩
  | broadcast skipSelf e =>
    cases h
    exact .inr ⟨nofun, rfl, inert_broadcast _ e⟩
  | checkResponse =>
    cases h
    exact .inr ⟨nofun, rfl, .log (forall_mem_ite (inert_of_no_call rfl)) d⟩
  | freeSession =>
    cases h
    refine .inr ⟨nofun, rfl, [.closed i], rfl, fun o ho => ?_⟩
    rw [List.mem_singleton.mp ho]
    exact inert_of_no_call rfl
  | vitaSessionAdd | vitaSessionRemove | vitaUpdatePayloadFormat | vitaSendContextAll =>
    cases h
    exact .inr ⟨nofun, rfl, inert_vitaApply _⟩
  -- the reader's thread is the only other thing that calls the device, and no register depends on
  -- it
  | bridgeStart =>
    cases h
    exact .inr ⟨nofun, rfl, _, rfl, forall_mem_ite fun c hc => .inl (Option.some.inj hc).symm⟩
  | bridgeStopLocked =>
    cases h
    exact .inr ⟨nofun, rfl, _, rfl, forall_mem_ite fun c hc => .inr (Option.some.inj hc).symm⟩
  | modify | rxReleaseLocked | allocStreamId | pthreadJoin | resetAdcLevel =>
    cases h
    exact .inr ⟨nofun, rfl, .of_eq rfl⟩
  | _ => exact absurd trivial hreads

/-- A USB buffer neither sets the receiver nor calls the device. -/
theorem rtlCallback_hardware (buf : List UInt8) (nowMs : UInt64) (d : Daemon) :
    (d.rtlCallback buf nowMs).radio = d.radio ∧ Emits Obs.inert d (d.rtlCallback buf nowMs) := by
  unfold Daemon.rtlCallback
  split_ifs
  · rcases measureAdcLevel buf nowMs d.adc with ⟨level, adc⟩
    cases level with
    | none => exact ⟨rfl, (Emits.of_eq rfl).trans (inert_vitaApply _)⟩
    | some l =>
      exact ⟨rfl, ((Emits.of_eq rfl).trans (inert_broadcast none _)).trans (inert_vitaApply _)⟩
  · exact ⟨rfl, .of_eq rfl⟩

/-- Nor does a new connection. -/
theorem sessionCreate_hardware (fd : ℕ) (stack : List Tok) (d : Daemon) :
    (d.sessionCreate fd stack).radio = d.radio ∧ Emits Obs.inert d (d.sessionCreate fd stack) := by
  rcases sessionCreate_cases fd stack d with h | ⟨j, -, h⟩
  · rw [h]
    exact ⟨rfl, .of_eq rfl⟩
  · rw [h]
    refine ⟨rfl, [.connected j], rfl, fun o ho => ?_⟩
    rw [List.mem_singleton.mp ho]
    exact inert_of_no_call rfl

/-- What the setters keep between the settings and the registers, every operation keeps. -/
theorem exec_keeps {I : Radio → Registers → Prop} {applied : ℤ → ℤ} {r : Registers}
    (hset : ∀ {β : Type} (x : Setting β) (s : Radio) (g : Registers), I s g →
      I (x.apply env.device s).2.1 (g.calls applied (x.apply env.device s).2.2))
    {β : Type} {o : Op β} {b : β} (hI : I d.radio (d.registers applied r))
    (h : exec opts env m i β o d = some (b, d')) : I d'.radio (d'.registers applied r) := by
  rcases exec_hardware h with ⟨x, -, rfl⟩ | ⟨-, hradio, hinert⟩
  · rw [registers_set]
    exact hset x d.radio _ hI
  · rw [hradio, registers_of_inert hinert]
    exact hI

/-- What the setters keep between the settings and the registers, every step keeps. -/
theorem step_keeps {I : Radio → Registers → Prop} {applied : ℤ → ℤ} {r : Registers} {a : Action}
    (hset : ∀ env ∈ a.env, ∀ {β : Type} (x : Setting β) (s : Radio) (g : Registers), I s g →
      I (x.apply env.device s).2.1 (g.calls applied (x.apply env.device s).2.2))
    (hI : I d.radio (d.registers applied r)) (h : step opts d a = some d') :
    I d'.radio (d'.registers applied r) := by
  have hrun : ∀ env ∈ a.env, ∀ (m : Msg) (i : SessId) (p : Prog Op Unit) (d d' : Daemon),
      I d.radio (d.registers applied r) → p.run (exec opts env m i) d = some ((), d') →
        I d'.radio (d'.registers applied r) := fun env henv m i p d d' hI hp =>
    Prog.run_rel (fun d d' : Daemon => I d.radio (d.registers applied r) →
        I d'.radio (d'.registers applied r)) (fun _ hI => hI) (fun _ _ _ h h' hI => h' (h hI))
      (fun _ _ _ _ _ _ ho hI => exec_keeps (hset env henv) hI ho) (Prog.uses_true p) hp hI
  cases a with
  | connect fd stack =>
    obtain ⟨-, h⟩ := Option.ite_none_right_eq_some.mp h
    obtain ⟨hradio, hinert⟩ := sessionCreate_hardware fd stack d
    rw [← Option.some.inj h, hradio, registers_of_inert hinert]
    exact hI
  | request i frame env =>
    obtain ⟨-, h⟩ := Option.ite_none_right_eq_some.mp h
    obtain ⟨⟨u, d₁⟩, hp, rfl⟩ := Option.map_eq_some_iff.mp h
    exact hrun env rfl _ i _ (d.tokenise i frame) d₁ hI hp
  | disconnect i env =>
    obtain ⟨-, h⟩ := Option.ite_none_right_eq_some.mp h
    obtain ⟨⟨u, d₁⟩, hp, rfl⟩ := Option.map_eq_some_iff.mp h
    exact hrun env rfl _ i _ d d₁ hI hp
  | usb buf nowMs =>
    obtain ⟨hradio, hinert⟩ := rtlCallback_hardware buf nowMs d
    rw [← Option.some.inj h, hradio, registers_of_inert hinert]
    exact hI

end

end SlcRtld.Control
