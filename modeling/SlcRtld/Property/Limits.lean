import SlcRtld.Property.Observer

/-!
# The receiver stays within what it publishes

`get_capabilities` publishes the frequency range and the sample rates of the current sampling mode.
A setting is `Admissible` when it is within them. `set_frequency` and `set_sample_rate` check what
they are asked for; a switch of the mode changes the limits under the settings, and
`apply_mode_change_side_effects` then moves what has become inadmissible (`Moved`). With a device
that applies what it is asked, every state between two requests is admissible
(`radio_admissible`).
-/

namespace SlcRtld.Property

open Control Effect Rtl

/-! ## Settings and limits -/

/-- The device applies what it is asked: it reads back the frequency that was set, and a sample rate
other than zero. -/
structure Applies (dev : Device) : Prop where
  centerFreq : ∀ hz, dev.centerFreq hz = hz
  sampleRate : ∀ sps, dev.sampleRate sps ≠ 0

/-- The frequency and the requested rate are among what is published for the sampling mode. -/
structure Admissible (r : Radio) : Prop where
  min : rtlFreqMin r.samplingMode ≤ r.freqHz
  max : r.freqHz ≤ rtlFreqMax r.samplingMode
  rate : r.rateRequestedSps ∈ rtlRateList r.samplingMode

/-- The frequency of a mode's range that is nearest to a frequency. -/
def nearestFreq (mode : SamplingMode) (hz : ℕ) : ℕ :=
  if hz < rtlFreqMin mode then rtlFreqMin mode
  else if rtlFreqMax mode < hz then rtlFreqMax mode
  else hz

/-- A rate that the mode has, or else the one it prefers. -/
def usableRate (mode : SamplingMode) (sps : ℕ) : ℕ :=
  if sps ∈ rtlRateList mode then sps else rtlPreferredRate mode

/-- What a switch of the mode does to the settings: the frequency moves to the nearest end of the
range if it is outside, the rate to the preferred one if the mode does not have it, and else they
stay. -/
structure Moved (r r' : Radio) : Prop where
  freqHz : r'.freqHz = nearestFreq r'.samplingMode r.freqHz
  rateRequestedSps : r'.rateRequestedSps = usableRate r'.samplingMode r.rateRequestedSps
  rateSps : r.rateRequestedSps ∈ rtlRateList r'.samplingMode → r'.rateSps = r.rateSps

/-- The range of a mode is not empty. -/
theorem rtlFreqMin_le_rtlFreqMax (mode : SamplingMode) : rtlFreqMin mode ≤ rtlFreqMax mode := by
  cases mode <;> decide

/-- The frequencies of a mode fit a word. -/
theorem rtlFreqMax_lt (mode : SamplingMode) : rtlFreqMax mode < 2 ^ 32 := by
  cases mode <;> decide

/-- The preferred rate of a mode is one of its rates. -/
theorem rtlPreferredRate_mem (mode : SamplingMode) :
    rtlPreferredRate mode ∈ rtlRateList mode := by
  cases mode <;> decide

/-- Every move leads to admissible settings. -/
theorem Moved.admissible {r r' : Radio} (h : Moved r r') : Admissible r' := by
  have hrange := rtlFreqMin_le_rtlFreqMax r'.samplingMode
  refine ⟨?_, ?_, ?_⟩
  · rw [h.freqHz, nearestFreq]
    split_ifs <;> omega
  · rw [h.freqHz, nearestFreq]
    split_ifs <;> omega
  · rw [h.rateRequestedSps, usableRate]
    split_ifs with hmem
    · exact hmem
    · exact rtlPreferredRate_mem _

section
variable {dev : Device} {r : Radio}

/-- A frequency within some mode's range is set as it is asked for. -/
theorem rtlSetFrequency_radio (hdev : Applies dev) {hz : ℕ} (hpos : 0 < hz) (hmax : hz < 2 ^ 32) :
    (rtlSetFrequency dev hz r).2.1 = { r with freqHz := hz } := by
  have hback : hz.toUInt32.toNat = hz := UInt32.toNat_ofNat_of_lt hmax
  have hne : hz.toUInt32 ≠ 0 := by
    intro h0
    rw [h0] at hback
    exact hpos.ne hback
  simp only [rtlSetFrequency, hdev.centerFreq, if_pos hne, hback]

/-- What setting a rate does to the receiver. -/
theorem rtlSetSampleRate_radio (hdev : Applies dev) (sps : ℕ) :
    (rtlSetSampleRate dev sps r).2.1 =
      { r with rateSps := (dev.sampleRate sps.toUInt32).toNat, rateRequestedSps := sps } := by
  simp only [rtlSetSampleRate, if_pos (hdev.sampleRate _)]

end

/-! ## The switch of the mode -/

section
variable {dev : Device} {d : Daemon}

/-- Moving the frequency sets it, and tells of it. -/
theorem moveFrequency_radio (hz : ℕ) :
    (d.moveFrequency dev hz).radio = (rtlSetFrequency dev hz d.radio).2.1 := by
  unfold Daemon.moveFrequency
  split_ifs <;> rfl

/-- Moving the rate sets it, and tells of it. -/
theorem moveSampleRate_radio (sps : ℕ) :
    (d.moveSampleRate dev sps).radio = (rtlSetSampleRate dev sps d.radio).2.1 := by
  unfold Daemon.moveSampleRate
  split_ifs <;> rfl

/-- After a change of mode the frequency is the nearest in the range. -/
theorem retuneForMode_radio (hdev : Applies dev) :
    (d.retuneForMode dev).radio =
      { d.radio with freqHz := nearestFreq d.radio.samplingMode d.radio.freqHz } := by
  have hrange := rtlFreqMin_le_rtlFreqMax d.radio.samplingMode
  have hlt := rtlFreqMax_lt d.radio.samplingMode
  have hpos : 0 < rtlFreqMin d.radio.samplingMode := by
    cases d.radio.samplingMode <;> decide
  unfold Daemon.retuneForMode nearestFreq
  by_cases hlow : d.radio.freqHz < rtlFreqMin d.radio.samplingMode
  · simp only [hlow, true_or, if_true]
    rw [moveFrequency_radio, rtlSetFrequency_radio hdev hpos (by omega)]
  · by_cases hhigh : rtlFreqMax d.radio.samplingMode < d.radio.freqHz
    · simp only [hlow, hhigh, or_true, if_true, if_false]
      rw [moveFrequency_radio, rtlSetFrequency_radio hdev (by omega) hlt]
    · simp only [hlow, hhigh, or_self, if_false]

/-- After a change of mode the rate is the one asked for, if the mode has it, and else its preferred
one. -/
theorem resampleForMode_radio (hdev : Applies dev) :
    (d.resampleForMode dev).radio.freqHz = d.radio.freqHz ∧
    (d.resampleForMode dev).radio.samplingMode = d.radio.samplingMode ∧
    (d.resampleForMode dev).radio.rateRequestedSps =
      usableRate d.radio.samplingMode d.radio.rateRequestedSps ∧
    (d.radio.rateRequestedSps ∈ rtlRateList d.radio.samplingMode →
      (d.resampleForMode dev).radio.rateSps = d.radio.rateSps) := by
  unfold Daemon.resampleForMode usableRate
  by_cases hmem : d.radio.rateRequestedSps ∈ rtlRateList d.radio.samplingMode
  · simp [hmem]
  · simp only [hmem, not_false_eq_true, if_true, if_false, false_implies, and_true]
    rw [moveSampleRate_radio, rtlSetSampleRate_radio hdev]
    exact ⟨rfl, rfl, rfl⟩

/-- After a switch of the mode, the settings have moved into its limits. -/
theorem applyModeChangeSideEffects_radio (hdev : Applies dev) :
    (d.applyModeChangeSideEffects dev).radio.samplingMode = d.radio.samplingMode ∧
      Moved d.radio (d.applyModeChangeSideEffects dev).radio := by
  have hretuned := retuneForMode_radio (d := d) hdev
  obtain ⟨hfreq, hmode, hrate, hkept⟩ := resampleForMode_radio (d := d.retuneForMode dev) hdev
  rw [hretuned] at hfreq hmode hrate hkept
  have hsame : (d.applyModeChangeSideEffects dev).radio =
      ((d.retuneForMode dev).resampleForMode dev).radio := rfl
  rw [hsame]
  exact ⟨hmode, by rw [hmode]; exact hfreq, by rw [hmode]; exact hrate, by rw [hmode]; exact hkept⟩

end

/-! ## Requests -/

/-- The frequency, the rates and the mode are the same. -/
structure SameTuning (r r' : Radio) : Prop where
  freqHz : r'.freqHz = r.freqHz
  rateSps : r'.rateSps = r.rateSps
  rateRequestedSps : r'.rateRequestedSps = r.rateRequestedSps
  samplingMode : r'.samplingMode = r.samplingMode

/-- The receiver is the same. -/
theorem SameTuning.of_eq {r r' : Radio} (h : r' = r) : SameTuning r r' := by
  rw [h]
  exact ⟨rfl, rfl, rfl, rfl⟩

/-- What keeps the frequency, the rate and the mode keeps them admissible. -/
theorem SameTuning.admissible {r r' : Radio} (h : SameTuning r r') (hr : Admissible r) :
    Admissible r' := by
  obtain ⟨hmin, hmax, hrate⟩ := hr
  constructor
  · rwa [h.freqHz, h.samplingMode]
  · rwa [h.freqHz, h.samplingMode]
  · rwa [h.rateRequestedSps, h.samplingMode]

/-- The supply of the antenna has no part in it. -/
theorem rtlSetBiasTee_tuning (dev : Device) (enable : Bool) (r : Radio) :
    SameTuning r (rtlSetBiasTee dev enable r).2.1 := by
  unfold rtlSetBiasTee
  split_ifs <;> exact ⟨rfl, rfl, rfl, rfl⟩

/-- Nor has the correction. -/
theorem rtlSetPpm_tuning (dev : Device) (value : ℤ) (r : Radio) :
    SameTuning r (rtlSetPpm dev value r).2.1 := by
  unfold rtlSetPpm
  split_ifs <;> exact ⟨rfl, rfl, rfl, rfl⟩

section
variable {opts : Options} {env : Env} {i : SessId} {d d' : Daemon}

/-- A request that sets the receiver leaves it tuned as it is, tunes it within the limits of its
mode, or switches the mode and moves the settings into the new limits. -/
theorem config_tuning {m : Json.Msg} {c : Command} (hdev : Applies env.device)
    (h : ConfigOutcome opts env m i d c d') :
    SameTuning d.radio d'.radio ∨
    (∃ hz, rtlFreqMin d.radio.samplingMode ≤ hz ∧ hz ≤ rtlFreqMax d.radio.samplingMode ∧
      d'.radio = { d.radio with freqHz := hz }) ∨
    (∃ rate sps, rate ∈ rtlRateList d.radio.samplingMode ∧
      d'.radio = { d.radio with rateSps := sps, rateRequestedSps := rate }) ∨
    (d'.radio.samplingMode ≠ d.radio.samplingMode ∧ Moved d.radio d'.radio) := by
  -- a frequency in the range is positive and fits a word
  have hpos : 0 < rtlFreqMin d.radio.samplingMode := by
    cases d.radio.samplingMode <;> decide
  have hlt := rtlFreqMax_lt d.radio.samplingMode
  cases h with
  | frequency freq _ hmin hmax =>
    exact .inr (.inl ⟨freq, hmin, hmax, rtlSetFrequency_radio hdev (by omega) (by omega)⟩)
  -- a failed setter leaves the receiver as it was
  | frequencyFailed freq _ _ happlied =>
    have hzero : env.device.centerFreq freq.toUInt32 = 0 := UInt32.toNat_inj.mp happlied
    refine .inl (SameTuning.of_eq ?_)
    show (rtlSetFrequency env.device freq d.radio).2.1 = d.radio
    simp only [rtlSetFrequency, hzero, ne_eq, not_true_eq_false, if_false]
  | sampleRate rate _ _ _ hlist =>
    exact .inr (.inr (.inl ⟨rate, _, hlist, rtlSetSampleRate_radio hdev rate⟩))
  | sampleRateFailed rate _ _ _ happlied =>
    have hzero : env.device.sampleRate rate.toUInt32 = 0 := UInt32.toNat_inj.mp happlied
    exact absurd hzero (hdev.sampleRate _)
  | rfGain _ _ _ _ d₁ hd₁ | agc _ _ d₁ hd₁ =>
    rw [hd₁]
    exact .inl ⟨rfl, rfl, rfl, rfl⟩
  | biasTee en _ d₁ hd₁ =>
    obtain rfl : (d.set env.device (.biasTee en)).2 = d₁ := congrArg Prod.snd hd₁
    exact .inl (rtlSetBiasTee_tuning ..)
  | biasTeeFailed en => exact .inl (rtlSetBiasTee_tuning ..)
  | ppm value _ d₁ hd₁ =>
    rw [hd₁]
    exact .inl (rtlSetPpm_tuning ..)
  -- a new mode moves the frequency and the rate into its range
  | directSampling mode id hmode _ d₁ hd₁ =>
    have hrc : env.device.setDirectSampling = 0 := congrArg Prod.fst hd₁
    have hradio : d₁.radio = { d.radio with samplingMode := mode } := by
      have hset : (rtlSetDirectSampling env.device mode d.radio).2.1 = d₁.radio :=
        congrArg (fun r => r.2.radio) hd₁
      rw [← hset, rtlSetDirectSampling, if_pos hrc]
    have hswitched : ∀ e : Daemon, e.radio = d₁.radio →
        (e.applyModeChangeSideEffects env.device).radio.samplingMode = mode ∧
          Moved d.radio (e.applyModeChangeSideEffects env.device).radio := by
      intro e he
      obtain ⟨hkept, hmoved⟩ := applyModeChangeSideEffects_radio (d := e) hdev
      rw [he, hradio] at hkept hmoved
      exact ⟨hkept, hmoved.freqHz, hmoved.rateRequestedSps, hmoved.rateSps⟩
    obtain ⟨hnew, hmoved⟩ := hswitched ((d₁.send i (.ok id (.appliedControl .directSampling
      (.word (dsName mode))))).broadcast none (.controlChanged .directSampling
      (.word (dsName mode)))) rfl
    exact .inr (.inr (.inr ⟨hnew.trans_ne hmode, hmoved⟩))
  | directSamplingFailed mode _ _ hrc =>
    refine .inl (SameTuning.of_eq ?_)
    show (rtlSetDirectSampling env.device mode d.radio).2.1 = d.radio
    exact if_neg hrc

/-- A message keeps the settings admissible; if it switches the mode, they have moved. -/
theorem outcome_admissible {m : Json.Msg} {c : Option Command} (hdev : Applies env.device)
    (h : Outcome opts env m i d c d') (hd : Admissible d.radio) :
    Admissible d'.radio ∧
      (d'.radio.samplingMode ≠ d.radio.samplingMode → Moved d.radio d'.radio) := by
  have hsame : SameTuning d.radio d'.radio → Admissible d'.radio ∧
      (d'.radio.samplingMode ≠ d.radio.samplingMode → Moved d.radio d'.radio) :=
    fun hs => ⟨hs.admissible hd, fun hne => absurd hs.samplingMode hne⟩
  cases h with
  | ignored | answered | status => exact hsame (SameTuning.of_eq rfl)
  | auth ha => exact hsame (SameTuning.of_eq ha.isPrivate.radio)
  | stream _ ht => exact hsame (SameTuning.of_eq (streamOutcome_unseen ht).radio)
  | config _ _ hc =>
    obtain hs | ⟨hz, hmin, hmax, hr⟩ | ⟨rate, sps, hlist, hr⟩ | ⟨-, hmoved⟩ :=
      config_tuning hdev hc
    · exact hsame hs
    · rw [hr]
      exact ⟨⟨hmin, hmax, hd.rate⟩, fun hne => absurd rfl hne⟩
    · rw [hr]
      exact ⟨⟨hd.min, hd.max, hlist⟩, fun hne => absurd rfl hne⟩
    · exact ⟨hmoved.admissible, fun _ => hmoved⟩

/-- Nor has the end of a session. -/
theorem destroy_tuning (dev : Device) : SameTuning d.radio (d.destroy opts dev i).radio := by
  rw [destroy_radio]
  split_ifs
  · exact rtlSetBiasTee_tuning ..
  · exact SameTuning.of_eq rfl

end

/-! ## Runs -/

/-- The device applies what a request asks it for. -/
def DeviceApplies : Action → Prop
  | .request _ _ env => Applies env.device
  | _ => True

section
variable {opts : Options} {d d' : Daemon} {a : Action}

/-- A step keeps the settings admissible; if it switches the mode, they have moved. -/
theorem step_admissible (ha : DeviceApplies a) (hstep : step opts d a = some d')
    (hd : Admissible d.radio) :
    Admissible d'.radio ∧
      (d'.radio.samplingMode ≠ d.radio.samplingMode → Moved d.radio d'.radio) := by
  -- a step that keeps the tuning keeps it admissible
  have hsame : SameTuning d.radio d'.radio → Admissible d'.radio ∧
      (d'.radio.samplingMode ≠ d.radio.samplingMode → Moved d.radio d'.radio) :=
    fun hs => ⟨hs.admissible hd, fun hne => absurd hs.samplingMode hne⟩
  cases stepped_of_step hstep with
  | connect fd stack =>
    refine hsame (SameTuning.of_eq ?_)
    rcases sessionCreate_cases fd stack d with hc | ⟨i, -, hc⟩
    · rw [hc]
    · rw [hc]
      rfl
  | request i frame env c d₁ _ _ hout =>
    obtain ⟨hadmissible, hmoved⟩ := outcome_admissible ha hout hd
    split_ifs
    · -- the end of the session leaves the receiver tuned as the message has
      have hs : SameTuning d₁.radio (d₁.destroy opts env.device i).radio := destroy_tuning _
      refine ⟨hs.admissible hadmissible, fun hne => ?_⟩
      have hm := hmoved (hs.samplingMode ▸ hne)
      exact ⟨by rw [hs.freqHz, hs.samplingMode]; exact hm.freqHz,
        by rw [hs.rateRequestedSps, hs.samplingMode]; exact hm.rateRequestedSps,
        by rw [hs.rateSps, hs.samplingMode]; exact hm.rateSps⟩
    · exact ⟨hadmissible, hmoved⟩
  | disconnect => exact hsame (destroy_tuning _)
  | usb => exact hsame (SameTuning.of_eq (Unseen.rtlCallback ..).radio)

end

/-- The receiver starts with a frequency and a rate that its mode has. -/
theorem rtlBridgeInit_admissible {dev : Device} (hdev : Applies dev) (o : Startup) :
    Admissible (rtlBridgeInit dev o) := by
  have hfreq : (dev.centerFreq rtlDefaultFreq.toUInt32).toNat = rtlDefaultFreq := by
    rw [hdev.centerFreq]
    decide
  have hrange : rtlFreqMin o.mode ≤ rtlDefaultFreq ∧ rtlDefaultFreq ≤ rtlFreqMax o.mode := by
    cases o.mode <;> decide
  have hdefault : ∀ r : Radio, r.freqHz = rtlDefaultFreq →
      r.rateRequestedSps = rtlPreferredRate o.mode → r.samplingMode = o.mode → Admissible r := by
    intro r hr hrate hmode
    refine ⟨?_, ?_, ?_⟩
    · rw [hr, hmode]
      exact hrange.1
    · rw [hr, hmode]
      exact hrange.2
    · rw [hrate, hmode]
      exact rtlPreferredRate_mem o.mode
  unfold rtlBridgeInit
  dsimp only
  split_ifs <;> exact hdefault _ hfreq rfl rfl

/-- With a device that applies what it is asked, whatever the sampling mode at the start and
whatever the requests, the frequency and the requested rate are within what is published for the
current mode in every state reached; and a request that switches the mode moves the frequency or the
rate only if it is not admissible in the new mode, to the nearest end of the range and to the
preferred rate. -/
theorem radio_admissible (opts : Options) (dev : Device) (o : Startup) (contextPackets : Bool)
    (acts : List Action) (d : Daemon) (hdev : Applies dev) (hacts : ∀ a ∈ acts, DeviceApplies a)
    (hrun : runActs (step opts) (Daemon.init dev o contextPackets) acts = some d) :
    Admissible d.radio ∧
    (∀ a d', DeviceApplies a → step opts d a = some d' →
      d'.radio.samplingMode ≠ d.radio.samplingMode → Moved d.radio d'.radio) := by
  have hadmissible : Admissible d.radio := by
    have hinit : Admissible (Daemon.init dev o contextPackets).radio :=
      rtlBridgeInit_admissible hdev o
    generalize Daemon.init dev o contextPackets = d₀ at hrun hinit
    induction acts generalizing d₀ with
    | nil =>
      obtain rfl := Option.some.inj hrun
      exact hinit
    | cons a as ih =>
      obtain ⟨ha, has⟩ := List.forall_mem_cons.mp hacts
      rw [runActs_cons, Option.bind_eq_some_iff] at hrun
      obtain ⟨d₁, hd₁, hrest⟩ := hrun
      exact ih has d₁ hrest (step_admissible ha hd₁ hinit).1
  exact ⟨hadmissible, fun a d' ha hstep => (step_admissible ha hstep hadmissible).2⟩

/-- A device that reads back every frequency. -/
def faithful : Device := { obedient with centerFreq := id }

/-- The device of the examples applies what it is asked for. -/
theorem faithful_applies : Applies faithful := by
  refine ⟨fun _ => rfl, fun sps => ?_⟩
  show (if sps = 0 then 1 else sps) ≠ 0
  split_ifs with h
  · decide
  · exact h

/-- A request to sample the first branch directly. -/
def branchFrame : List UInt8 :=
  requestFrame "set_control"
    "\"function\":\"rx\",\"name\":\"direct_sampling\",\"value\":\"i_branch\""

/-- A client tunes the receiver above the range of direct sampling. -/
def tunedHigh : List Action :=
  [connect, .request 0 helloFrame { quiet 0 with device := faithful },
    .request 0 (tuneFrame "100000000") { quiet 0 with device := faithful }]

/-- A switch to direct sampling takes the frequency down to the end of the range. -/
theorem radio_admissible_switched :
    ∃ d d', runActs (step openAccess) (Daemon.init faithful ⟨.normal, false, false, 0, 0⟩ true)
        tunedHigh = some d ∧ d.radio.freqHz = 100000000 ∧ Admissible d.radio ∧
      step openAccess d (.request 0 branchFrame { quiet 0 with device := faithful }) = some d' ∧
      d'.radio.freqHz = 30000000 ∧ Moved d.radio d'.radio := by
  have hrun : ((runActs (step openAccess)
      (Daemon.init faithful ⟨.normal, false, false, 0, 0⟩ true) tunedHigh).any fun d =>
        d.radio.freqHz = 100000000 && d.radio.samplingMode = .normal &&
        (step openAccess d (.request 0 branchFrame { quiet 0 with device := faithful })).any
          fun d' => d'.radio.freqHz = 30000000 && d'.radio.samplingMode = .directI) = true := by
    decide +kernel
  obtain ⟨d, hd, hchecks⟩ := (Option.any_eq_true ..).mp hrun
  simp only [Bool.and_eq_true, decide_eq_true_eq, and_assoc] at hchecks
  obtain ⟨hfreq, hmode, hstep⟩ := hchecks
  obtain ⟨d', hd', hchecks'⟩ := (Option.any_eq_true ..).mp hstep
  simp only [Bool.and_eq_true, decide_eq_true_eq] at hchecks'
  have happlies : ∀ a ∈ tunedHigh, DeviceApplies a := by
    simp only [tunedHigh, connect, List.forall_mem_cons]
    exact ⟨trivial, faithful_applies, faithful_applies, nofun⟩
  obtain ⟨hadmissible, hmoves⟩ :=
    radio_admissible openAccess faithful _ true tunedHigh d faithful_applies happlies hd
  have hswitched : d'.radio.samplingMode ≠ d.radio.samplingMode := by
    rw [hchecks'.2, hmode]
    decide
  exact ⟨d, d', hd, hfreq, hadmissible, hd', hchecks'.1,
    hmoves (.request 0 branchFrame { quiet 0 with device := faithful }) d' faithful_applies hd'
      hswitched⟩

end SlcRtld.Property
