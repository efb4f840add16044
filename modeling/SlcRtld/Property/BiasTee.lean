import SlcRtld.Control.Hardware
import SlcRtld.Property.Observer

/-!
# The bias tee after a disconnect

Without `--bias-tee-persist` a session that ends switches the bias tee off. With it, the operator's
value is to be applied again; the daemon leaves the bias tee as it is, which is the same thing as
long as no client has switched it off (`bias_tee_after_disconnect_iff`).
-/

namespace SlcRtld.Property

open Libc Control Effect Rtl Json

/-- The daemon's variables and the register say that the bias tee is on, or that it is off. -/
structure BiasTeeAt (on : Bool) (s : Radio) (g : Registers) : Prop where
  enabled : s.biasTeeEnabled = on
  volts : s.biasTeeVolts = if on then rtlBiasTeeVolts else 0
  register : g.biasTee = on

/-- `rtlsdr_set_bias_tee` succeeds in a step. -/
def BiasTeeWorks (a : Action) : Prop := ∀ env ∈ a.env, env.device.setBiasTee = 0

section
variable {opts : Options} {env : Env} {m : Msg} {i : SessId} {d d' : Daemon} {s : Radio}
  {g : Registers} {dev : Device} {applied : ℤ → ℤ} {on : Bool}

/-- The variables and the register agree. -/
def BiasTeeAgrees (s : Radio) (g : Registers) : Prop := BiasTeeAt s.biasTeeEnabled s g

/-- Receiver and device agree on the supply of the antenna. -/
theorem BiasTeeAt.agrees (h : BiasTeeAt on s g) : BiasTeeAgrees s g := by
  obtain ⟨rfl, hvolts, hregister⟩ := h
  exact ⟨rfl, hvolts, hregister⟩

/-- Setting the supply sets both. -/
theorem biasTeeAt_set (hdev : dev.setBiasTee = 0) (on : Bool) (s : Radio) (g : Registers) :
    BiasTeeAt on (rtlSetBiasTee dev on s).2.1 (g.calls applied (rtlSetBiasTee dev on s).2.2) := by
  unfold rtlSetBiasTee
  rw [if_pos hdev]
  exact ⟨rfl, rfl, rfl⟩

/-- What touches neither keeps them together. -/
theorem BiasTeeAgrees.congr {s' : Radio} {g' : Registers} (h : BiasTeeAgrees s g)
    (henabled : s'.biasTeeEnabled = s.biasTeeEnabled) (hvolts : s'.biasTeeVolts = s.biasTeeVolts)
    (hregister : g'.biasTee = g.biasTee) : BiasTeeAgrees s' g' :=
  ⟨rfl, by rw [hvolts, henabled]; exact h.volts, by rw [hregister, henabled]; exact h.register⟩

/-- Every setter keeps the variables and the register in agreement. -/
theorem BiasTeeAgrees.set (hdev : dev.setBiasTee = 0) {β : Type} (x : Setting β)
    (h : BiasTeeAgrees s g) :
    BiasTeeAgrees (x.apply dev s).2.1 (g.calls applied (x.apply dev s).2.2) := by
  cases x with
  | biasTee enable => exact (biasTeeAt_set hdev enable s g).agrees
  | gain gainDb => exact h.congr rfl rfl rfl
  | agc enable => cases enable <;> exact h.congr rfl rfl rfl
  | frequency freqHz =>
    simp only [Setting.apply, rtlSetFrequency]
    split_ifs <;> exact h.congr rfl rfl rfl
  | sampleRate rateSps =>
    simp only [Setting.apply, rtlSetSampleRate]
    split_ifs <;> exact h.congr rfl rfl rfl
  | ppm value =>
    simp only [Setting.apply, rtlSetPpm]
    split_ifs <;> exact h.congr rfl rfl rfl
  | directSampling mode =>
    simp only [Setting.apply, rtlSetDirectSampling]
    split_ifs <;> exact h.congr rfl rfl rfl

/-- They agree at the start. -/
theorem biasTeeAgrees_init (hdev : dev.setBiasTee = 0) (o : Startup) (contextPackets : Bool) :
    BiasTeeAgrees (Daemon.init dev o contextPackets).radio
      ((Daemon.init dev o contextPackets).registers applied (Registers.init applied dev o)) := by
  have hinit : (rtlBridgeInit dev o).biasTeeEnabled = o.biasTee ∧
      (rtlBridgeInit dev o).biasTeeVolts = if o.biasTee then rtlBiasTeeVolts else 0 := by
    simp [rtlBridgeInit, rtlSetGain, hdev, apply_ite Radio.biasTeeEnabled,
      apply_ite Radio.biasTeeVolts]
  exact BiasTeeAt.agrees ⟨hinit.1, hinit.2, rfl⟩

/-- A step in which a session ends is its `session_destroy` in a state with the same settings. -/
theorem session_ends {a : Action} (hown : Owned d) (hstep : step opts d a = some d')
    (hlive : (d.sessions i).live = true) (hgone : (d'.sessions i).live = false) :
    ∃ env ∈ a.env, ∃ d₁ : Daemon, d₁.radio = d.radio ∧ d' = d₁.destroy opts env.device i := by
  have htouched : d'.sessions i ≠ d.sessions i := fun hsame => by
    rw [hsame, hlive] at hgone
    cases hgone
  rcases touched_cases hown hstep htouched with ⟨fd, hfree, -⟩ |
    ⟨frame, env, c, d₁, rfl, -, -, hout, hserves, rfl⟩ | ⟨env, rfl, rfl⟩
  · rw [hlive] at hfree
    cases hfree
  · have hown' : Owned (d.tokenise i frame) := hown.congr rfl rfl
    split_ifs at hgone ⊢ with hclose
    · obtain ⟨c', -, ha⟩ := outcome_closes hout hown' hlive hclose
      exact ⟨env, rfl, d₁, ha.isPrivate.radio, rfl⟩
    · have hkept : (d₁.sessions i).live = (d.sessions i).live := by
        unfold Session.live
        rw [hserves.fd]
      rw [hkept, hlive] at hgone
      cases hgone
  · exact ⟨env, rfl, d, rfl, rfl⟩

end

/-- In every run, after every step in which a session ends: the bias tee is off without
`--bias-tee-persist` and on with it, and the variables and the register agree on that, if and only
if it was not off before the step with `--bias-tee-persist`. -/
theorem bias_tee_after_disconnect_iff (opts : Options) (dev : Device) (applied : ℤ → ℤ)
    (o : Startup) (contextPackets : Bool) (hdev : dev.setBiasTee = 0) (acts : List Action)
    (a : Action) (hworks : ∀ a' ∈ a :: acts, BiasTeeWorks a') (d d' : Daemon)
    (hrun : runActs (step opts) (Daemon.init dev o contextPackets) acts = some d)
    (hstep : step opts d a = some d') (i : SessId) (hlive : (d.sessions i).live = true)
    (hgone : (d'.sessions i).live = false) :
    BiasTeeAt opts.biasTeePersist d'.radio (d'.registers applied (Registers.init applied dev o)) ↔
      (opts.biasTeePersist = true → d.radio.biasTeeEnabled = true) := by
  obtain ⟨ha, hacts⟩ := List.forall_mem_cons.mp hworks
  have hown : Owned d := Reachable.invariant ⟨acts, hrun⟩ (owned_init dev o contextPackets)
    fun _ _ _ h hs => h.next hs
  have hkeeps : ∀ (d : Daemon) (a : Action) (d' : Daemon),
      BiasTeeAgrees d.radio (d.registers applied (Registers.init applied dev o)) → BiasTeeWorks a →
        step opts d a = some d' →
          BiasTeeAgrees d'.radio (d'.registers applied (Registers.init applied dev o)) :=
    fun _ _ _ h ha hs => step_keeps (fun env henv _ x _ _ h => h.set (ha env henv) x) h hs
  -- the register follows the daemon's flag on the whole run
  have hagrees := hkeeps d a d'
    (runActs_invariant hkeeps (biasTeeAgrees_init hdev o contextPackets) hacts hrun) ha hstep
  -- what ends the session switches the supply off, unless it is persistent
  obtain ⟨env, henv, d₁, hradio, rfl⟩ := session_ends hown hstep hlive hgone
  have henabled : (d₁.destroy opts env.device i).radio.biasTeeEnabled =
      (d.radio.biasTeeEnabled && opts.biasTeePersist) := by
    rw [destroy_radio, hradio, rtlSetBiasTee, if_pos (ha env henv)]
    cases hon : d.radio.biasTeeEnabled <;> cases opts.biasTeePersist <;> simp [hon]
  have hat : ∀ on, BiasTeeAt on (d₁.destroy opts env.device i).radio
      ((d₁.destroy opts env.device i).registers applied (Registers.init applied dev o)) ↔
        (d.radio.biasTeeEnabled && opts.biasTeePersist) = on := by
    intro on
    constructor
    · exact fun h => henabled.symm.trans h.enabled
    · rintro rfl
      exact henabled ▸ hagrees
  rw [hat]
  cases d.radio.biasTeeEnabled <;> cases opts.biasTeePersist <;> simp

/-- A `set_control` that turns the bias tee off. -/
def biasTeeOffFrame : List UInt8 :=
  requestFrame "set_control" "\"function\":\"rx\",\"name\":\"bias_tee\",\"value\":0.0"

/-- A daemon with `--bias-tee-persist`. -/
def masthead : Daemon := Daemon.init obedient ⟨.normal, true, false, 0, 0⟩ true

/-- A client that has not touched the bias tee leaves it on. -/
theorem bias_tee_stays_on :
    ∃ d d', runActs (step { openAccess with biasTeePersist := true }) masthead
        [connect, .request 0 helloFrame (quiet 0)] = some d ∧
      step { openAccess with biasTeePersist := true } d (.disconnect 0 (quiet 0)) = some d' ∧
      BiasTeeAt true d'.radio
        (d'.registers id (Registers.init id obedient ⟨.normal, true, false, 0, 0⟩)) := by
  have hrun : ((runActs (step { openAccess with biasTeePersist := true }) masthead
      [connect, .request 0 helloFrame (quiet 0)]).any fun d => (d.sessions 0).live &&
        d.radio.biasTeeEnabled && (step { openAccess with biasTeePersist := true } d
          (.disconnect 0 (quiet 0))).any fun d' => !(d'.sessions 0).live) = true := by
    decide +kernel
  obtain ⟨d, hd, hchecks⟩ := (Option.any_eq_true ..).mp hrun
  simp only [Bool.and_eq_true] at hchecks
  obtain ⟨⟨hlive, hon⟩, hstep⟩ := hchecks
  obtain ⟨d', hd', hgone⟩ := (Option.any_eq_true ..).mp hstep
  refine ⟨d, d', hd, hd', ?_⟩
  refine (bias_tee_after_disconnect_iff { openAccess with biasTeePersist := true } obedient id _ true rfl
    _ _ ?_ d d' hd hd' 0 hlive (by simpa using hgone)).mpr fun _ => hon
  intro a ha env henv
  fin_cases ha
  · cases henv
    rfl
  · cases henv
  · cases henv
    rfl

/-- A client switches the bias tee off and goes: the operator's value is not restored. -/
theorem bias_tee_stays_off :
    (runActs (step { openAccess with biasTeePersist := true }) masthead
      [connect, .request 0 helloFrame (quiet 0), .request 0 biasTeeOffFrame (quiet 0),
        .disconnect 0 (quiet 0)]).any (fun d => (d.sessions 0).live = false ∧
      masthead.radio.biasTeeVolts = 5 ∧ d.radio.biasTeeVolts = 0) = true := by
  decide +kernel

end SlcRtld.Property
