import SlcRtld.Property.Ownership

/-!
# Following the receiver by events

A client that has read the status of the receiver can follow it by the events it is sent afterwards:
what it then believes (`viewsOf`) is how the receiver is set (`Exact`). One operation changes the
receiver and says nothing: when a session ends, `session_destroy` turns the bias tee off.
`observer_exact_iff` shows that it is the only one: the view is exact in every state of a run
exactly when no other session ends while the client has a view and the bias tee is on and not
persistent.

A request that sets the receiver first changes it and then announces the change; between the two,
the observer is one event behind (`Behind`).
-/

namespace SlcRtld.Property

open Control Effect Rtl Vita

/-! ## What a client believes -/

/-- The settings of the receiver that a client follows. -/
structure View where
  frequencyHz : ℕ
  sampleRateSps : ℕ
  actualSampleRateSps : ℕ
  rfGainTenths : ℤ
  agc : Bool
  biasTeeTenths : ℤ
  ppmCorrection : ℤ
  directSampling : CStr
deriving DecidableEq

/-- How the receiver is set. -/
def viewOfRadio (r : Radio) : View :=
  ⟨r.freqHz, r.rateRequestedSps, r.rateSps, r.gainTenthDb, r.agcEnabled, 10 * r.biasTeeVolts,
    r.ppmCorrection, dsName r.samplingMode⟩

/-- The snapshot that a status gives. -/
def View.ofStatus (s : Status) : View :=
  ⟨s.frequencyHz, s.sampleRateSps, s.actualSampleRateSps, s.gainTenthDb, s.agc, 10 * s.biasTeeVolts,
    s.ppmCorrection, s.directSampling⟩

/-- A view after an event. -/
def View.follow (v : View) : Event → View
  | .frequencyChanged hz => { v with frequencyHz := hz }
  | .sampleRateChanged sps actual => { v with sampleRateSps := sps, actualSampleRateSps := actual }
  | .controlChanged .rfGain (.tenths n) => { v with rfGainTenths := n }
  | .controlChanged .agc (.boolean b) => { v with agc := b }
  | .controlChanged .biasTee (.tenths n) => { v with biasTeeTenths := n }
  | .controlChanged .ppmCorrection (.integer n) => { v with ppmCorrection := n }
  | .controlChanged .directSampling (.word w) => { v with directSampling := w }
  | _ => v

/-- What a client's views become when something is observed of the daemon: a status is one more
snapshot, an event changes every view, and a connection begins and ends without one. -/
def see (o : SessId) (vs : List View) : Obs → List View
  | .connected j | .closed j => if j = o then [] else vs
  | .sent j (.ok _ (.status s)) => if j = o then .ofStatus s :: vs else vs
  | .sent j (.event e) => if j = o then vs.map (·.follow e) else vs
  | _ => vs

/-- The views of the client in a slot: for each status it has been sent on its connection, the
snapshot and the events since. -/
def viewsOf (o : SessId) : List Obs → List View
  | [] => []
  | x :: xs => see o (viewsOf o xs) x

/-- Every view that the client in a slot has is how the receiver is set. -/
def Exact (o : SessId) (d : Daemon) : Prop :=
  ∀ v ∈ viewsOf o d.trace, v = viewOfRadio d.radio

/-! ## Observations that change no view -/

/-- The event is not about the settings of the receiver. -/
def quietEvent : Event → Bool
  | .frequencyChanged _ | .sampleRateChanged _ _ | .controlChanged _ _ => false
  | _ => true

/-- A quiet event changes no view. -/
theorem follow_quiet {e : Event} (h : quietEvent e = true) (v : View) : v.follow e = v := by
  cases e with
  | frequencyChanged | sampleRateChanged | controlChanged => cases h
  | capabilitiesChanged | controlRevoked | streamState | adcOverload => rfl

/-- The message is neither a status nor an event about the settings. -/
def quietFrame : Frame → Bool
  | .event e => quietEvent e
  | .ok _ (.status _) => false
  | _ => true

/-- The observation changes nobody's view. -/
def quietObs : Obs → Bool
  | .connected _ | .closed _ => false
  | .sent _ f => quietFrame f
  | _ => true

variable {o : SessId}

/-- A quiet observation changes no view. -/
theorem see_quiet {x : Obs} (h : quietObs x = true) (vs : List View) : see o vs x = vs := by
  cases x with
  | connected | closed => cases h
  | hardware | nonce | verify | datagram => rfl
  | sent j f =>
    cases f with
    | error | authFailed => rfl
    | event e =>
      have hmap : vs.map (·.follow e) = vs := by
        rw [funext (follow_quiet h)]
        exact List.map_id' vs
      simp only [see, hmap, ite_self]
    | ok id r =>
      cases r with
      | status => cases h
      | _ => rfl

/-- Quiet observations on top of a trace. -/
theorem viewsOf_append_quiet {xs : List Obs} (h : ∀ x ∈ xs, quietObs x = true) (tr : List Obs) :
    viewsOf o (xs ++ tr) = viewsOf o tr := by
  induction xs with
  | nil => rfl
  | cons x xs ih =>
    obtain ⟨hx, hxs⟩ := List.forall_mem_cons.mp h
    exact (see_quiet hx _).trans (ih hxs)

/-- A change that leaves the settings and everybody's view of them alone. -/
structure Unseen (d d' : Daemon) : Prop where
  radio : d'.radio = d.radio
  views : ∀ o, viewsOf o d'.trace = viewsOf o d.trace

/-- Nothing has happened. -/
theorem Unseen.refl (d : Daemon) : Unseen d d := ⟨rfl, fun _ => rfl⟩

/-- Two steps, one after the other. -/
theorem Unseen.trans {d d₁ d₂ : Daemon} (h : Unseen d d₁) (h' : Unseen d₁ d₂) : Unseen d d₂ :=
  ⟨h'.radio.trans h.radio, fun o => (h'.views o).trans (h.views o)⟩

/-- An unseen step keeps the view exact, and does not make it so. -/
theorem Unseen.exact {d d' : Daemon} (h : Unseen d d') : Exact o d' ↔ Exact o d := by
  unfold Exact
  rw [h.radio, h.views]

/-! Each operation that leaves the receiver alone is silent when what it says is. -/

section
variable {d d₁ : Daemon} {i : SessId}

/-- Quiet observations. -/
theorem Unseen.log {xs : List Obs} (h : ∀ x ∈ xs, quietObs x = true) (d : Daemon) :
    Unseen d (d.log xs) :=
  ⟨rfl, fun _ => viewsOf_append_quiet h d.trace⟩

/-- The record of a session is in no view. -/
theorem Unseen.modify (i : SessId) (f : Session → Session) (d : Daemon) : Unseen d (d.modify i f) :=
  ⟨rfl, fun _ => rfl⟩

/-- A quiet frame. -/
theorem Unseen.send {f : Frame} (h : quietFrame f = true) (d : Daemon) : Unseen d (d.send i f) := by
  refine Unseen.log (fun x hx => ?_) d
  split_ifs at hx
  · rw [List.mem_singleton.mp hx]
    exact h
  · cases hx

/-- A quiet event. -/
theorem Unseen.broadcast {skip : Option SessId} {e : Event} (h : quietEvent e = true) (d : Daemon) :
    Unseen d (d.broadcast skip e) := by
  refine Unseen.log (fun x hx => ?_) d
  obtain ⟨j, -, rfl⟩ := List.mem_map.mp hx
  exact h

/-- The table of streams and its packets are in no view. -/
theorem Unseen.vitaApply (op : VitaOp) (d : Daemon) : Unseen d (d.vitaApply op) := by
  refine ⟨rfl, fun o => viewsOf_append_quiet (fun x hx => ?_) d.trace⟩
  obtain ⟨g, -, rfl⟩ := List.mem_map.mp hx
  rfl

/-- Hardware calls that change no setting are not seen either. -/
theorem quiet_hardware {c : Prop} [Decidable c] {call : HwCall} :
    ∀ x ∈ (if c then [Obs.hardware call] else []), quietObs x = true := by
  intro x hx
  split_ifs at hx
  · rw [List.mem_singleton.mp hx]
    rfl
  · cases hx

/-- The reader is started. -/
theorem Unseen.bridgeStart {created ok : Bool} (h : d.bridgeStart created = (ok, d₁)) :
    Unseen d d₁ := by
  obtain ⟨-, rfl⟩ := Prod.mk.inj h
  exact ⟨rfl, fun _ => viewsOf_append_quiet quiet_hardware d.trace⟩

/-- The reader is stopped. -/
theorem Unseen.stopReading (d : Daemon) : Unseen d d.stopReading :=
  ⟨rfl, fun _ => viewsOf_append_quiet quiet_hardware d.trace⟩

/-- A stream is taken out of the table. -/
theorem Unseen.removeVita (i : SessId) (d : Daemon) : Unseen d (d.removeVita i) := by
  unfold Daemon.removeVita
  split_ifs
  · exact (Unseen.vitaApply ..).trans (Unseen.modify ..)
  · exact Unseen.refl d

/-- The channel is claimed. -/
theorem Unseen.rxClaim (h : d.rxClaim i = (true, d₁)) : Unseen d d₁ := by
  obtain ⟨-, rfl⟩ := rxClaim_eq h
  exact ⟨rfl, fun _ => rfl⟩

/-- The channel is released, and the notices are quiet. -/
theorem Unseen.rxRelease (i : SessId) (d : Daemon) : Unseen d (d.rxRelease i) := by
  obtain ⟨js, -, hd⟩ := rxRelease_eq i d
  rw [hd]
  refine ⟨rfl, fun o => viewsOf_append_quiet (fun x hx => ?_) d.trace⟩
  obtain ⟨j, -, rfl⟩ := List.mem_map.mp hx
  rfl

/-- The end of a stream. -/
theorem Unseen.endStream (i : SessId) (d : Daemon) : Unseen d (d.endStream i) := by
  unfold Daemon.endStream
  split_ifs
  · exact ((Unseen.removeVita i d).trans (Unseen.stopReading _)).trans (Unseen.broadcast rfl _)
  · exact Unseen.removeVita i d

/-- A new nonce. -/
theorem Unseen.makeNonce {os : List Auth.GetRandom} {made : Bool}
    (h : d.makeNonce os i = some (made, d₁)) : Unseen d d₁ := by
  obtain ⟨raw, -, rfl⟩ := makeNonce_eq h
  exact ⟨rfl, fun _ => rfl⟩

/-- A response is checked. -/
theorem Unseen.checkResponse {opts : Options} {method keyId response : CStr} {ok : Bool}
    (h : d.checkResponse opts i method keyId response = (ok, d₁)) : Unseen d d₁ := by
  obtain ⟨-, rfl⟩ := Prod.mk.inj h
  refine Unseen.log (fun x hx => ?_) d
  split_ifs at hx
  · rw [List.mem_singleton.mp hx]
    rfl
  · cases hx

/-- A USB buffer: the overload notice is quiet. -/
theorem Unseen.rtlCallback (buf : List UInt8) (nowMs : UInt64) (d : Daemon) :
    Unseen d (d.rtlCallback buf nowMs) := by
  unfold Daemon.rtlCallback
  split_ifs
  · rcases measureAdcLevel buf nowMs d.adc with ⟨_ | level, adc⟩
    · exact ⟨rfl, fun o => (Unseen.vitaApply (.callback buf) { d with adc := adc }).views o⟩
    · have hadc : Unseen d { d with adc := adc } := ⟨rfl, fun _ => rfl⟩
      exact (hadc.trans (Unseen.broadcast rfl _)).trans (Unseen.vitaApply ..)
  · exact Unseen.refl d

end

section
variable {opts : Options} {env : Env} {m : Json.Msg} {i : SessId} {d d' : Daemon} {c : Command}

/-- `hello` and `authenticate` leave the receiver alone and say nothing of it. -/
theorem authOutcome_unseen (h : AuthOutcome opts env m i d c d') : Unseen d d' := by
  cases h with
  | hello => exact (Unseen.modify ..).trans (Unseen.send rfl _)
  | challenged _ _ name id hex made d₁ hmade =>
    exact (((Unseen.modify ..).trans (Unseen.makeNonce hmade)).trans (Unseen.modify ..)).trans
      (Unseen.send rfl _)
  | unlocked method keyId response id _ _ d₁ hok =>
    exact (((Unseen.modify ..).trans (Unseen.checkResponse hok)).trans (Unseen.modify ..)).trans
      (Unseen.send rfl _)
  | rejected method keyId response id _ _ hex made d₁ d₂ hok hmade =>
    exact ((((((Unseen.modify ..).trans (Unseen.checkResponse hok)).trans (Unseen.modify ..)).trans
      (Unseen.makeNonce hmade)).trans (Unseen.modify ..)).trans (Unseen.send rfl _)).trans
      (Unseen.modify ..)

/-- So do the stream commands. -/
theorem streamOutcome_unseen (h : StreamOutcome env m i d c d') : Unseen d d' := by
  cases h with
  | refused _ d₁ hclaim =>
    exact ((Unseen.rxClaim hclaim).trans (Unseen.rxRelease i d₁)).trans (Unseen.send rfl _)
  | opened _ d₁ hclaim addr port =>
    have halloc : Unseen d₁ d₁.allocStreamId.2 := ⟨rfl, fun _ => rfl⟩
    exact ((((Unseen.rxClaim hclaim).trans halloc).trans (Unseen.modify ..)).trans
      (Unseen.send rfl _)).trans (Unseen.broadcast rfl _)
  | startBusy _ _ p =>
    exact ((Unseen.vitaApply (.add p) d).trans (Unseen.modify ..)).trans (Unseen.send rfl _)
  | startFailed _ _ p _ d₁ hstart =>
    exact (((((Unseen.vitaApply (.add p) d).trans (Unseen.modify ..)).trans
      (Unseen.bridgeStart hstart)).trans (Unseen.vitaApply ..)).trans (Unseen.modify ..)).trans
      (Unseen.send rfl _)
  | started _ _ p _ _ d₁ hstart =>
    exact (((((Unseen.vitaApply (.add p) d).trans (Unseen.modify ..)).trans
      (Unseen.bridgeStart hstart)).trans (Unseen.modify ..)).trans (Unseen.send rfl _)).trans
      (Unseen.send rfl _)
  | stopped =>
    exact ((((Unseen.removeVita i d).trans (Unseen.stopReading _)).trans (Unseen.modify ..)).trans
      (Unseen.send rfl _)).trans (Unseen.send rfl _)
  | closed =>
    exact (((Unseen.removeVita i d).trans (Unseen.modify ..)).trans (Unseen.rxRelease i _)).trans
      (Unseen.send rfl _)
  | closedStreaming =>
    exact (((((Unseen.removeVita i d).trans (Unseen.stopReading _)).trans (Unseen.modify ..)).trans
      (Unseen.rxRelease i _)).trans (Unseen.send rfl _)).trans (Unseen.send rfl _)

end

/-! ## Changes and their announcements -/

/-- The voltage of the bias tee is what being on or off means. -/
def TeeAgrees (r : Radio) : Prop := r.biasTeeVolts = if r.biasTeeEnabled then rtlBiasTeeVolts else 0

/-- A client that has a view is past `hello`, so that events reach it. -/
def Attentive (o : SessId) (d : Daemon) : Prop :=
  viewsOf o d.trace ≠ [] → (d.sessions o).live = true ∧ (d.sessions o).state ≠ .awaitHello

/-- The client in a slot follows the receiver. -/
structure InView (o : SessId) (d : Daemon) : Prop where
  exact : Exact o d
  attentive : Attentive o d
  tee : TeeAgrees d.radio

/-- The client in a slot will follow the receiver when it has been sent the event. -/
structure Behind (o : SessId) (e : Event) (d : Daemon) : Prop where
  exact : ∀ v ∈ viewsOf o d.trace, v.follow e = viewOfRadio d.radio
  attentive : Attentive o d
  tee : TeeAgrees d.radio

section
variable {d d' : Daemon} {e : Event} {dev : Device}

/-- A session goes on listening where its record and the views stay. -/
theorem Attentive.congr (h : Attentive o d) (hsessions : d'.sessions = d.sessions)
    (hviews : viewsOf o d'.trace = viewsOf o d.trace) : Attentive o d' := by
  unfold Attentive
  rw [hsessions, hviews]
  exact h

/-- An unseen step keeps a session in view. -/
theorem InView.unseen (h : InView o d) (hs : Unseen d d') (hsessions : d'.sessions = d.sessions) :
    InView o d' :=
  ⟨hs.exact.mpr h.exact, h.attentive.congr hsessions (hs.views o), hs.radio ▸ h.tee⟩

/-- An unseen step keeps a session behind by the same event. -/
theorem Behind.unseen (h : Behind o e d) (hs : Unseen d d') (hsessions : d'.sessions = d.sessions) :
    Behind o e d' where
  exact := by
    rw [hs.views, hs.radio]
    exact h.exact
  attentive := h.attentive.congr hsessions (hs.views o)
  tee := hs.radio ▸ h.tee

/-- The state of the antenna's supply is told by two fields. -/
theorem TeeAgrees.congr {r r' : Radio} (h : TeeAgrees r)
    (henabled : r'.biasTeeEnabled = r.biasTeeEnabled) (hvolts : r'.biasTeeVolts = r.biasTeeVolts) :
    TeeAgrees r' := by
  unfold TeeAgrees
  rw [henabled, hvolts]
  exact h

/-- Every setter keeps the two fields of the antenna's supply together. -/
theorem TeeAgrees.set {β : Type} (dev : Device) (x : Setting β) {r : Radio} (h : TeeAgrees r) :
    TeeAgrees (x.apply dev r).2.1 := by
  cases x with
  | gain | agc => exact h
  | frequency | sampleRate | directSampling | ppm =>
    simp only [Setting.apply, rtlSetFrequency, rtlSetSampleRate, rtlSetDirectSampling, rtlSetPpm]
    refine h.congr ?_ ?_
    · split_ifs <;> rfl
    · split_ifs <;> rfl
  | biasTee enable =>
    simp only [Setting.apply, rtlSetBiasTee]
    by_cases hrc : dev.setBiasTee = 0
    · rw [if_pos hrc]
      rfl
    · rw [if_neg hrc]
      exact h

/-- A setting leaves a client behind by the event that announces it. -/
theorem InView.set {β : Type} (h : InView o d) {x : Setting β}
    (hview : viewOfRadio (x.apply dev d.radio).2.1 = (viewOfRadio d.radio).follow e) :
    Behind o e (d.set dev x).2 := by
  have hviews : viewsOf o (d.set dev x).2.trace = viewsOf o d.trace := by
    refine viewsOf_append_quiet (fun y hy => ?_) d.trace
    obtain ⟨call, -, rfl⟩ := List.mem_map.mp hy
    rfl
  refine ⟨fun v hv => ?_, h.attentive.congr rfl hviews, h.tee.set dev x⟩
  rw [hviews] at hv
  rw [h.exact v hv]
  exact hview.symm

/-- Each of some clients is sent an event once. -/
theorem viewsOf_events {js : List SessId} (hjs : js.Nodup) (e : Event) (tr : List Obs) :
    viewsOf o (js.map (fun j => .sent j (.event e)) ++ tr) =
      if o ∈ js then (viewsOf o tr).map (·.follow e) else viewsOf o tr := by
  induction js with
  | nil => rfl
  | cons j js ih =>
    obtain ⟨hj, hjs'⟩ := List.nodup_cons.mp hjs
    simp only [List.map_cons, List.cons_append, viewsOf, see, ih hjs']
    by_cases hjo : j = o
    · subst hjo
      simp [hj]
    · simp [hjo, Ne.symm hjo]

/-- An event to everybody reaches every client that has a view. -/
theorem viewsOf_broadcast (h : Attentive o d) (e : Event) :
    viewsOf o (d.broadcast none e).trace = (viewsOf o d.trace).map (·.follow e) := by
  have hnodup : (d.listeners none).reverse.Nodup :=
    List.nodup_reverse.mpr ((List.nodup_finRange _).filter _)
  refine (viewsOf_events hnodup e d.trace).trans ?_
  split_ifs with hmem
  · rfl
  · have hnil : viewsOf o d.trace = [] := by
      by_contra hne
      obtain ⟨hlive, hstate⟩ := h hne
      exact hmem (by simp [Daemon.listeners, hlive, hstate])
    rw [hnil]
    rfl

/-- The event that a session is behind by is broadcast. -/
theorem Behind.broadcast (h : Behind o e d) : InView o (d.broadcast none e) := by
  have hviews := viewsOf_broadcast h.attentive e
  refine ⟨fun v hv => ?_, fun hne => h.attentive fun hnil => hne ?_, h.tee⟩
  · rw [hviews] at hv
    obtain ⟨v', hv', rfl⟩ := List.mem_map.mp hv
    exact h.exact v' hv'
  · rw [hviews, hnil]
    rfl

/-- A quiet frame before the event. -/
theorem Behind.send (h : Behind o e d) {i : SessId} {f : Frame} (hf : quietFrame f = true) :
    Behind o e (d.send i f) :=
  h.unseen (Unseen.send hf d) rfl

/-! What each setter does to the view. -/

/-- A frequency that is set, and the event that tells it. -/
theorem view_frequency {hz : ℕ} {r : Radio} (h : (rtlSetFrequency dev hz r).1 ≠ 0) :
    viewOfRadio (rtlSetFrequency dev hz r).2.1 =
      (viewOfRadio r).follow (.frequencyChanged (rtlSetFrequency dev hz r).1) := by
  have happlied : dev.centerFreq hz.toUInt32 ≠ 0 := fun h0 => h (by simp [rtlSetFrequency, h0])
  simp only [rtlSetFrequency, if_pos happlied]
  rfl

/-- A rate that is set, and the event that tells it. -/
theorem view_sampleRate {sps : ℕ} {r : Radio} (h : (rtlSetSampleRate dev sps r).1 ≠ 0) :
    viewOfRadio (rtlSetSampleRate dev sps r).2.1 =
      (viewOfRadio r).follow (.sampleRateChanged sps (rtlSetSampleRate dev sps r).1) := by
  have happlied : dev.sampleRate sps.toUInt32 ≠ 0 := fun h0 => h (by simp [rtlSetSampleRate, h0])
  simp only [rtlSetSampleRate, if_pos happlied]
  rfl

/-- The antenna's supply, and the event that tells it. -/
theorem view_biasTee {enable : Bool} {r : Radio} (h : (rtlSetBiasTee dev enable r).1 = 0) :
    viewOfRadio (rtlSetBiasTee dev enable r).2.1 = (viewOfRadio r).follow (.controlChanged .biasTee
      (.tenths (10 * (rtlSetBiasTee dev enable r).2.1.biasTeeVolts))) := by
  have hrc : dev.setBiasTee = 0 := h
  simp only [rtlSetBiasTee, if_pos hrc]
  rfl

/-- A correction, and the event that tells it. -/
theorem view_ppm (value : ℤ) (r : Radio) :
    viewOfRadio (rtlSetPpm dev value r).2.1 = (viewOfRadio r).follow (.controlChanged .ppmCorrection
      (.integer (rtlSetPpm dev value r).2.1.ppmCorrection)) := by
  simp only [rtlSetPpm]
  split_ifs <;> rfl

/-- A sampling mode, and the event that tells it. -/
theorem view_directSampling {mode : SamplingMode} {r : Radio}
    (h : (rtlSetDirectSampling dev mode r).1 = 0) :
    viewOfRadio (rtlSetDirectSampling dev mode r).2.1 =
      (viewOfRadio r).follow (.controlChanged .directSampling (.word (dsName mode))) := by
  have hrc : dev.setDirectSampling = 0 := h
  simp only [rtlSetDirectSampling, if_pos hrc]
  rfl

/-! ## Requests -/

/-- A device that does what it is asked for tunes. -/
theorem set_frequency_ne_zero (hdev : dev.Succeeds) (hz : ℕ) (d : Daemon) :
    (d.set dev (.frequency hz)).1 ≠ 0 :=
  fun h0 => hdev.centerFreq hz.toUInt32 (UInt32.toNat_inj.mp h0)

/-- And samples. -/
theorem set_sampleRate_ne_zero (hdev : dev.Succeeds) (sps : ℕ) (d : Daemon) :
    (d.set dev (.sampleRate sps)).1 ≠ 0 :=
  fun h0 => hdev.sampleRate sps.toUInt32 (UInt32.toNat_inj.mp h0)

/-- Another frequency, with its event. -/
theorem InView.moveFrequency (h : InView o d) (hdev : dev.Succeeds) (hz : ℕ) :
    InView o (d.moveFrequency dev hz) := by
  have happlied := set_frequency_ne_zero hdev hz d
  unfold Daemon.moveFrequency
  rw [if_pos happlied]
  exact (h.set (x := .frequency hz) (view_frequency happlied)).broadcast

/-- Another rate, with its event. -/
theorem InView.moveSampleRate (h : InView o d) (hdev : dev.Succeeds) (sps : ℕ) :
    InView o (d.moveSampleRate dev sps) := by
  have happlied := set_sampleRate_ne_zero hdev sps d
  unfold Daemon.moveSampleRate
  rw [if_pos happlied]
  exact (h.set (x := .sampleRate sps) (view_sampleRate happlied)).broadcast

/-- The frequency and the rate follow the mode, each with its event. -/
theorem InView.applyModeChangeSideEffects (h : InView o d) (hdev : dev.Succeeds) :
    InView o (d.applyModeChangeSideEffects dev) := by
  have hretuned : InView o (d.retuneForMode dev) := by
    unfold Daemon.retuneForMode
    by_cases hrange : d.radio.freqHz < rtlFreqMin d.radio.samplingMode ∨
        rtlFreqMax d.radio.samplingMode < d.radio.freqHz
    · rw [if_pos hrange]
      exact h.moveFrequency hdev _
    · rw [if_neg hrange]
      exact h
  have hresampled : InView o ((d.retuneForMode dev).resampleForMode dev) := by
    generalize d.retuneForMode dev = d₁ at hretuned ⊢
    unfold Daemon.resampleForMode
    by_cases hlist : d₁.radio.rateRequestedSps ∉ rtlRateList d₁.radio.samplingMode
    · rw [if_pos hlist]
      exact hretuned.moveSampleRate hdev _
    · rw [if_neg hlist]
      exact hretuned
  exact (hresampled.unseen (Unseen.vitaApply ..) rfl).unseen (Unseen.vitaApply ..) rfl

/-- A request that sets the receiver announces what it sets. -/
theorem InView.config {opts : Options} {env : Env} {m : Json.Msg} {i : SessId} {c : Command}
    (h : InView o d) (hdev : env.device.Succeeds) (hc : ConfigOutcome opts env m i d c d') : InView o d' := by
  cases hc with
  | frequency freq id _ _ happlied =>
    exact ((h.set (x := .frequency freq) (view_frequency happlied)).send rfl).broadcast
  | sampleRate rate id _ _ _ happlied =>
    exact ((h.set (x := .sampleRate rate) (view_sampleRate happlied)).send rfl).broadcast
  | frequencyFailed freq id message happlied =>
    exact absurd happlied (set_frequency_ne_zero hdev freq d)
  | sampleRateFailed rate id message _ happlied =>
    exact absurd happlied (set_sampleRate_ne_zero hdev rate d)
  | rfGain val id _ _ d₁ hd₁ =>
    subst hd₁
    exact (((h.set (x := .gain val) rfl).send rfl).unseen (Unseen.vitaApply ..) rfl).broadcast
  | agc en id d₁ hd₁ =>
    subst hd₁
    exact (((h.set (x := .agc en) rfl).send rfl).unseen (Unseen.vitaApply ..) rfl).broadcast
  | biasTee en id d₁ hd₁ =>
    obtain ⟨hrc, rfl⟩ := Prod.mk.inj hd₁
    exact ((h.set (x := .biasTee en) (view_biasTee hrc)).send rfl).broadcast
  | biasTeeFailed en id message hrc => exact absurd hdev.setBiasTee hrc
  | ppm value id d₁ hd₁ =>
    subst hd₁
    exact ((h.set (x := .ppm value) (view_ppm value d.radio)).send rfl).broadcast
  | directSampling mode id _ _ d₁ hd₁ =>
    obtain ⟨hrc, rfl⟩ := Prod.mk.inj hd₁
    have hswitched := ((h.set (x := .directSampling mode) (view_directSampling hrc)).send (i := i)
      (f := .ok id (.appliedControl .directSampling (.word (dsName mode)))) rfl).broadcast
    exact (hswitched.applyModeChangeSideEffects hdev).unseen (Unseen.broadcast rfl _) rfl
  | directSamplingFailed mode id message hrc => exact absurd hdev.setDirectSampling hrc

end

section
variable {opts : Options} {env : Env} {m : Json.Msg} {i : SessId} {d d' : Daemon}

/-- A session that is served hears events as before. -/
theorem Attentive.serves (h : Attentive o d) (hs : Serves i d d')
    (hviews : viewsOf o d'.trace = viewsOf o d.trace) : Attentive o d' := by
  intro hne
  rw [hviews] at hne
  obtain ⟨hlive, hstate⟩ := h hne
  by_cases hoi : o = i
  · subst hoi
    exact ⟨by rwa [Session.live, hs.fd], hs.pastHello hstate⟩
  · rw [hs.others o hoi]
    exact ⟨hlive, hstate⟩

/-- A status is one more exact view for the client that asked. -/
theorem InView.status (h : InView o d) (hlive : (d.sessions i).live = true) {s : Status}
    (hs : s.Describes d.radio) (hstate : (d.sessions i).state ≠ .awaitHello) (id : CStr) :
    InView o (d.send i (.ok id (.status s))) := by
  have htrace : (d.send i (.ok id (.status s))).trace =
      .sent i (.ok id (.status s)) :: d.trace := by
    simp [Daemon.send, Daemon.log, hlive]
  have hviews : viewsOf o (d.send i (.ok id (.status s))).trace =
      if i = o then .ofStatus s :: viewsOf o d.trace else viewsOf o d.trace := by
    rw [htrace]
    rfl
  have hsnapshot : View.ofStatus s = viewOfRadio d.radio := by
    obtain ⟨h₁, h₂, h₃, h₄, h₅, h₆, h₇, h₈⟩ := hs
    simp only [View.ofStatus, viewOfRadio, h₁, h₂, h₃, h₄, h₅, h₆, h₇, h₈]
  by_cases hio : i = o
  · subst hio
    rw [if_pos rfl] at hviews
    refine ⟨fun v hv => ?_, fun _ => ⟨hlive, hstate⟩, h.tee⟩
    rw [hviews] at hv
    rcases List.mem_cons.mp hv with rfl | hv
    · exact hsnapshot
    · exact h.exact v hv
  · rw [if_neg hio] at hviews
    refine ⟨fun v hv => ?_, h.attentive.congr rfl hviews, h.tee⟩
    rw [hviews] at hv
    exact h.exact v hv

/-- A plain reply tells nothing of the receiver. -/
theorem quiet_of_plain {f : Frame} (h : f.plain = true) : quietFrame f = true := by
  cases f with
  | ok id r =>
    cases r with
    | status => cases h
    | _ => rfl
  | error | authFailed => rfl
  | event => cases h

/-- The handling of a message leaves no client behind. -/
theorem InView.outcome {c : Option Command} (h : InView o d) (hdev : env.device.Succeeds)
    (hown : Owned d) (hlive : (d.sessions i).live = true) (hout : Outcome opts env m i d c d') :
    InView o d' := by
  have hserves := outcome_serves hout hown hlive
  cases hout with
  | ignored => exact h
  | answered c f hf => exact h.unseen (Unseen.send (quiet_of_plain hf) d) rfl
  | status id s hs hstate => exact h.status hlive hs hstate id
  | auth ha =>
    have hs := authOutcome_unseen ha
    exact ⟨hs.exact.mpr h.exact, h.attentive.serves hserves (hs.views o), hs.radio ▸ h.tee⟩
  | config _ _ hc => exact h.config hdev hc
  | stream _ ht =>
    have hs := streamOutcome_unseen ht
    exact ⟨hs.exact.mpr h.exact, h.attentive.serves hserves (hs.views o), hs.radio ▸ h.tee⟩

/-! ## The end of a session -/

/-- The end of a session closes its own view, and no other. -/
theorem destroy_views (dev : Device) :
    viewsOf o (d.destroy opts dev i).trace = if i = o then [] else viewsOf o d.trace := by
  have hends : Unseen d ((d.endStream i).rxRelease i) :=
    (Unseen.endStream i d).trans (Unseen.rxRelease i _)
  have htee : viewsOf o (((d.endStream i).rxRelease i).biasTeeFallback opts dev).trace =
      viewsOf o d.trace := by
    rw [← hends.views o]
    unfold Daemon.biasTeeFallback
    split_ifs <;> rfl
  rw [← htee]
  rfl

/-- The end of a session may switch the antenna's supply off. -/
theorem destroy_radio (dev : Device) :
    (d.destroy opts dev i).radio = if d.radio.biasTeeEnabled && !opts.biasTeePersist then
      (rtlSetBiasTee dev false d.radio).2.1 else d.radio := by
  have hends : Unseen d ((d.endStream i).rxRelease i) :=
    (Unseen.endStream i d).trans (Unseen.rxRelease i _)
  show (((d.endStream i).rxRelease i).biasTeeFallback opts dev).radio = _
  unfold Daemon.biasTeeFallback
  rw [hends.radio]
  split_ifs
  · show (rtlSetBiasTee dev false ((d.endStream i).rxRelease i).radio).2.1 = _
    rw [hends.radio]
  · exact hends.radio

/-- A session other than the client's has ended between two states, while the client had a view and
the bias tee was on and not persistent. -/
def QuietFallback (opts : Options) (o : SessId) (d d' : Daemon) : Prop :=
  viewsOf o d.trace ≠ [] ∧ d.radio.biasTeeEnabled = true ∧ opts.biasTeePersist = false ∧
    ∃ j, j ≠ o ∧ (d.sessions j).live = true ∧ (d'.sessions j).live = false

/-- The session has ended. -/
theorem destroy_ends (dev : Device) : ((d.destroy opts dev i).sessions i).live = false := by
  rw [destroy_self]
  rfl

/-- The end of a session, as long as no other is watching that would miss the antenna's supply. -/
theorem InView.destroy (h : InView o d) (dev : Device)
    (hok : i ≠ o → viewsOf o d.trace ≠ [] →
      (d.radio.biasTeeEnabled && !opts.biasTeePersist) = false) :
    InView o (d.destroy opts dev i) := by
  have htee : TeeAgrees (d.destroy opts dev i).radio := by
    rw [destroy_radio]
    split_ifs
    · exact h.tee.set dev (.biasTee false)
    · exact h.tee
  have hviews : viewsOf o (d.destroy opts dev i).trace = _ := destroy_views dev
  by_cases hio : i = o
  · rw [if_pos hio] at hviews
    exact ⟨fun v hv => by simp [hviews] at hv, fun hne => absurd hviews hne, htee⟩
  · rw [if_neg hio] at hviews
    refine ⟨fun v hv => ?_, fun hne => ?_, htee⟩
    · rw [hviews] at hv
      rw [destroy_radio, hok hio (List.ne_nil_of_mem hv)]
      exact h.exact v hv
    · rw [hviews] at hne
      rw [destroy_of_ne opts dev (Ne.symm hio)]
      exact h.attentive hne

/-- The bias tee that is turned off makes every view of another client wrong. -/
theorem destroy_not_exact (h : InView o d) {dev : Device} (hdev : dev.Succeeds) (hio : i ≠ o)
    (hviews : viewsOf o d.trace ≠ []) (hon : d.radio.biasTeeEnabled = true)
    (hpersist : opts.biasTeePersist = false) : ¬ Exact o (d.destroy opts dev i) := by
  intro hexact
  obtain ⟨v, hv⟩ := List.exists_mem_of_ne_nil _ hviews
  have hbefore := h.exact v hv
  have hafter : v = viewOfRadio (d.destroy opts dev i).radio :=
    hexact v (by rwa [destroy_views, if_neg hio])
  have hvolts : d.radio.biasTeeVolts = rtlBiasTeeVolts := by
    rw [h.tee, if_pos hon]
  have hoff : (d.destroy opts dev i).radio.biasTeeVolts = 0 := by
    rw [destroy_radio, hon, hpersist]
    simp [rtlSetBiasTee, hdev.setBiasTee]
  have htenths := congrArg View.biasTeeTenths (hbefore.symm.trans hafter)
  simp only [viewOfRadio, hvolts, hoff, rtlBiasTeeVolts] at htenths
  omega

/-- A new connection. -/
theorem InView.sessionCreate (h : InView o d) (fd : ℕ) (stack : List Json.Tok) :
    InView o (d.sessionCreate fd stack) := by
  rcases sessionCreate_cases fd stack d with hd | ⟨i, hfree, hd⟩
  · rwa [hd]
  · have hviews : viewsOf o (d.sessionCreate fd stack).trace =
        if i = o then [] else viewsOf o d.trace := by
      rw [hd]
      rfl
    have hradio : (d.sessionCreate fd stack).radio = d.radio := by
      rw [hd]
      rfl
    refine ⟨fun v hv => ?_, fun hne => ?_, hradio ▸ h.tee⟩
    · rw [hviews] at hv
      rw [hradio]
      split_ifs at hv
      · cases hv
      · exact h.exact v hv
    · rw [hviews] at hne
      split_ifs at hne with hio
      · exact absurd rfl hne
      · have hself : (d.sessionCreate fd stack).sessions o = d.sessions o := by
          rw [hd]
          exact Function.update_of_ne (Ne.symm hio) ..
        rw [hself]
        exact h.attentive hne

/-! ## Runs -/

/-- The hardware calls of a step succeed. -/
def HardwareSucceeds : Action → Prop
  | .request _ _ env | .disconnect _ env => env.device.Succeeds
  | _ => True

/-- What is known of every state: who owns the channel, and that the client follows. -/
theorem follows_next {a : Action} (hown : Owned d) (h : InView o d) (ha : HardwareSucceeds a)
    (hstep : step opts d a = some d') (hquiet : ¬ QuietFallback opts o d d') : InView o d' := by
  cases stepped_of_step hstep with
  | connect fd stack => exact h.sessionCreate fd stack
  | request i frame env c d₁ hlive _ hout =>
    have hown' : Owned (d.tokenise i frame) := hown.congr rfl rfl
    have h' : InView o (d.tokenise i frame) := h.unseen ⟨rfl, fun _ => rfl⟩ rfl
    have h₁ : InView o d₁ := h'.outcome ha hown' hlive hout
    -- after a rejected response the daemon closes the session, once the reply is out
    cases hclose : (d₁.sessions i).closeAfterReply with
    | false => exact h₁
    | true =>
      obtain ⟨c', -, hauth⟩ := outcome_closes hout hown' hlive hclose
      have hs := authOutcome_unseen hauth
      refine h₁.destroy env.device fun hio hne => ?_
      rw [hs.views] at hne
      -- the client misses the fallback only while the bias tee is on and not persistent
      rw [hs.radio, Bool.eq_false_iff]
      intro hon
      simp only [Bool.and_eq_true, Bool.not_eq_true'] at hon
      refine hquiet ⟨hne, hon.1, hon.2, i, hio, hlive, ?_⟩
      rw [hclose]
      exact destroy_ends env.device
  | disconnect i env hlive =>
    refine h.destroy env.device fun hio hne => ?_
    rw [Bool.eq_false_iff]
    intro hon
    simp only [Bool.and_eq_true, Bool.not_eq_true'] at hon
    exact hquiet ⟨hne, hon.1, hon.2, i, hio, hlive, destroy_ends env.device⟩
  -- samples change no setting
  | usb buf nowMs => exact h.unseen (Unseen.rtlCallback buf nowMs d) (rtlCallback_frame buf nowMs d).1

/-- A session ends only in a step of its own, which destroys it. -/
theorem ends_by_destroy {a : Action} {j : SessId} (hown : Owned d) (hstep : step opts d a = some d')
    (hbefore : (d.sessions j).live = true) (hafter : (d'.sessions j).live = false) :
    ∃ d₁ env, (a = .disconnect j env ∨ ∃ frame, a = .request j frame env) ∧ Unseen d d₁ ∧
      Serves j d d₁ ∧ d' = d₁.destroy opts env.device j := by
  have hkept : d'.sessions j ≠ d.sessions j := by
    intro hsame
    rw [hsame, hbefore] at hafter
    cases hafter
  rcases touched_cases hown hstep hkept with ⟨fd, hfree, -⟩ |
    ⟨frame, env, c, d₁, rfl, hlive, -, hout, hserves, rfl⟩ | ⟨env, rfl, rfl⟩
  · rw [hbefore] at hfree
    cases hfree
  · have hown' : Owned (d.tokenise j frame) := hown.congr rfl rfl
    cases hclose : (d₁.sessions j).closeAfterReply with
    | false =>
      simp only [hclose, Bool.false_eq_true, if_false] at hafter
      rw [Session.live, hserves.fd] at hafter
      rw [Session.live, hafter] at hbefore
      cases hbefore
    | true =>
      obtain ⟨c', -, hauth⟩ := outcome_closes hout hown' hlive hclose
      have htokenised : Unseen d (d.tokenise j frame) := ⟨rfl, fun _ => rfl⟩
      exact ⟨d₁, env, .inr ⟨frame, rfl⟩, htokenised.trans (authOutcome_unseen hauth), hserves, rfl⟩
  · exact ⟨d, env, .inl rfl, Unseen.refl d, Serves.of_eq rfl rfl hown, rfl⟩

/-- The daemon starts with the two fields of the antenna's supply together. -/
theorem teeAgrees_init (dev : Device) (s : Startup) : TeeAgrees (rtlBridgeInit dev s) := by
  unfold TeeAgrees rtlBridgeInit
  dsimp only
  split
  · rfl
  · rfl

end

/-- The views of a client are exact in every state of a run of successful hardware calls, exactly
when no other session ends in it while the client has a view and the bias tee is on and not
persistent. -/
theorem observer_exact_iff (opts : Options) (dev : Device) (startup : Startup)
    (contextPackets : Bool) (o : SessId) (acts : List Action)
    (hhardware : ∀ a ∈ acts, HardwareSucceeds a) :
    Always (step opts) (Exact o) (Daemon.init dev startup contextPackets) acts ↔
      Along (step opts) (fun d _ d' => ¬ QuietFallback opts o d d')
        (Daemon.init dev startup contextPackets) acts := by
  have hinit : InView o (Daemon.init dev startup contextPackets) :=
    ⟨(fun _ hv => by cases hv), fun h => absurd rfl h, teeAgrees_init dev startup⟩
  have hiff : Along (step opts) (fun _ _ d' => Exact o d')
      (Daemon.init dev startup contextPackets) acts ↔
      Along (step opts) (fun d _ d' => ¬ QuietFallback opts o d d')
        (Daemon.init dev startup contextPackets) acts := by
    refine along_iff (I := fun d => Owned d ∧ InView o d) ?_ ?_
      ⟨owned_init dev startup contextPackets, hinit⟩ hhardware
    · rintro d a d' ⟨hown, h⟩ ha hstep hquiet
      have h' := follows_next hown h ha hstep hquiet
      exact ⟨⟨hown.next hstep, h'⟩, h'.exact⟩
    · rintro d a d' ⟨hown, h⟩ ha hstep hquiet
      obtain ⟨hviews, hon, hpersist, j, hjo, hbefore, hafter⟩ := not_not.mp hquiet
      obtain ⟨d₁, env, hact, hs, hserves, rfl⟩ := ends_by_destroy hown hstep hbefore hafter
      have h₁ : InView o d₁ :=
        ⟨hs.exact.mpr h.exact, h.attentive.serves hserves (hs.views o), hs.radio ▸ h.tee⟩
      have hdev : env.device.Succeeds := by
        rcases hact with rfl | ⟨frame, rfl⟩
        · exact ha
        · exact ha
      rw [← hs.views] at hviews
      rw [← hs.radio] at hon
      exact destroy_not_exact h₁ hdev hjo hviews hon hpersist
  exact ⟨fun h => hiff.mp h.2, fun h => ⟨hinit.exact, hiff.mpr h⟩⟩

/-- A `get_status`. -/
def statusFrame : List UInt8 := requestFrame "get_status" ""

/-- A `set_control` that turns the bias tee on. -/
def biasTeeFrame : List UInt8 :=
  requestFrame "set_control" "\"function\":\"rx\",\"name\":\"bias_tee\",\"value\":5.0"

/-- One client watches, and another one turns the bias tee on. -/
def watched : List Action :=
  [connect, .request 0 helloFrame (quiet 0), .request 0 statusFrame (quiet 0), connect,
    .request 1 helloFrame (quiet 0), .request 1 biasTeeFrame (quiet 0)]

/-- The device of the runs below succeeds in everything. -/
theorem obedient_succeeds : obedient.Succeeds where
  centerFreq := fun hz => by
    show (if hz = 0 then 1 else hz) ≠ 0
    split_ifs with h
    · decide
    · exact h
  sampleRate := fun sps => by
    show (if sps = 0 then 1 else sps) ≠ 0
    split_ifs with h
    · decide
    · exact h
  setBiasTee := rfl
  setFreqCorrection := rfl
  setDirectSampling := rfl

/-- So do the steps of the run. -/
theorem watched_succeeds : ∀ a ∈ watched, HardwareSucceeds a := by
  intro a ha
  fin_cases ha
  all_goals first | exact obedient_succeeds | trivial

/-- While nobody disconnects, the first client's view is exact, also when the second one has turned
the bias tee on. -/
theorem observer_exact_while_connected :
    Always (step openAccess) (Exact 0) started watched ∧
      ∃ d, runActs (step openAccess) started watched = some d ∧ viewsOf 0 d.trace ≠ [] ∧
        d.radio.biasTeeVolts = rtlBiasTeeVolts := by
  have hstay : Along (step openAccess) (fun d _ d' => ∀ j, (d.sessions j).live = true →
      (d'.sessions j).live = true) started watched := by
    decide +kernel
  have hrun : ((runActs (step openAccess) started watched).any fun d =>
      viewsOf 0 d.trace ≠ [] && d.radio.biasTeeVolts = rtlBiasTeeVolts) = true := by
    decide +kernel
  obtain ⟨d, hd, hchecks⟩ := (Option.any_eq_true ..).mp hrun
  simp only [Bool.and_eq_true, decide_eq_true_eq] at hchecks
  refine ⟨(observer_exact_iff openAccess obedient _ true 0 watched watched_succeeds).mpr
    (hstay.mono ?_), d, hd, hchecks⟩
  rintro d a d' - hlive ⟨-, -, -, j, -, hbefore, hafter⟩
  rw [hlive j hbefore] at hafter
  cases hafter

/-- The second client disconnects: the bias tee is off, and the first client's view still has it
on. -/
theorem observer_misses_fallback :
    ∃ d, runActs (step openAccess) started (watched ++ [.disconnect 1 (quiet 0)]) = some d ∧
      d.radio.biasTeeVolts = 0 ∧ (∃ v ∈ viewsOf 0 d.trace, v.biasTeeTenths = 50) ∧
      ¬ Exact 0 d := by
  have hrun : ((runActs (step openAccess) started (watched ++ [.disconnect 1 (quiet 0)])).any
      fun d => d.radio.biasTeeVolts = 0 &&
        (viewsOf 0 d.trace).any (·.biasTeeTenths = 50)) = true := by
    decide +kernel
  obtain ⟨d, hd, hchecks⟩ := (Option.any_eq_true ..).mp hrun
  simp only [Bool.and_eq_true, decide_eq_true_eq, List.any_eq_true] at hchecks
  obtain ⟨hoff, v, hv, hon⟩ := hchecks
  refine ⟨d, hd, hoff, ⟨v, hv, hon⟩, fun hexact => ?_⟩
  have htenths := congrArg View.biasTeeTenths (hexact v hv)
  rw [hon] at htenths
  simp [viewOfRadio, hoff] at htenths

end SlcRtld.Property
