import SlcRtld.Property.Accounting
import SlcRtld.Property.Observer

/-!
# An open stream is described truthfully

`open_stream` tells its client the sample rate and the kind of signal, and `start_rx` puts the rate
and the Payload Format word into the VITA slot, where the timestamps are computed from them. While
the stream is open nobody may change the rate or the sampling mode: other sessions are kept out by
the ownership of the channel, the session itself by its state (`set_sample_rate`) and by its
`stream_open` flag (`direct_sampling`).

The guards hold as long as a session with an open stream is in one of the two stream states
(`InStream`). A second `hello` puts it back to idle, and the rate can be changed under the running
stream (`open_stream_misdescribed`); in every run without such a `hello` an open stream is described
truthfully (`open_stream_described`).
-/

namespace SlcRtld.Property

open Control Effect Rtl Vita

/-! ## The property -/

/-- The rates and the sampling mode are the same. -/
structure SameRates (r r' : Radio) : Prop where
  rateSps : r'.rateSps = r.rateSps
  rateRequestedSps : r'.rateRequestedSps = r.rateRequestedSps
  samplingMode : r'.samplingMode = r.samplingMode

/-- Nothing has been set. -/
theorem SameRates.refl (r : Radio) : SameRates r r := ⟨rfl, rfl, rfl⟩

/-- The receiver is the same. -/
theorem SameRates.of_eq {r r' : Radio} (h : r' = r) : SameRates r r' := h ▸ SameRates.refl r

/-- One after the other. -/
theorem SameRates.trans {r r' r'' : Radio} (h : SameRates r r') (h' : SameRates r' r'') :
    SameRates r r'' :=
  ⟨h'.rateSps.trans h.rateSps, h'.rateRequestedSps.trans h.rateRequestedSps,
    h'.samplingMode.trans h.samplingMode⟩

/-- The setter is for something other than the rate or the mode. -/
def KeepsRates {β : Type} : Setting β → Prop
  | .sampleRate _ | .directSampling _ => False
  | _ => True

/-- The other setters keep the rates and the mode. -/
theorem set_sameRates {β : Type} {x : Setting β} (hx : KeepsRates x) (dev : Device) (r : Radio) :
    SameRates r (x.apply dev r).2.1 := by
  cases x with
  | frequency freqHz =>
    simp only [Setting.apply, rtlSetFrequency]
    split_ifs <;> exact ⟨rfl, rfl, rfl⟩
  | biasTee enable =>
    simp only [Setting.apply, rtlSetBiasTee]
    split_ifs <;> exact ⟨rfl, rfl, rfl⟩
  | ppm value =>
    simp only [Setting.apply, rtlSetPpm]
    split_ifs <;> exact ⟨rfl, rfl, rfl⟩
  | gain | agc => exact ⟨rfl, rfl, rfl⟩
  | sampleRate | directSampling => exact absurd hx id

/-- A slot that is active has the rate and the Payload Format word of the receiver. -/
def Describes (r : Radio) (s : Slot) : Prop :=
  s.active = true → s.rateHzAnchor = r.rateSps.toUInt64 ∧
    s.payloadFmtWord0 = samplingModePayloadFmt r.samplingMode

/-- Every active slot describes the receiver. -/
def Described (d : Daemon) : Prop := ∀ k, Describes d.radio (d.vita.slots k)

/-- A session with an open stream is in one of the stream states. -/
def InStream (s : Session) : Prop :=
  s.streamOpen = true → s.state = .streamOpen ∨ s.state = .streaming

/-! ## Slots -/

section
variable {r r' : Radio} {v : Table}

/-- What describes a receiver describes any with the same rates and mode. -/
theorem Describes.congr {s : Slot} (h : Describes r s) (hr : SameRates r r') : Describes r' s := by
  unfold Describes
  rw [hr.rateSps, hr.samplingMode]
  exact h

/-- The operation stores nothing that does not describe the receiver. -/
def StoresTruth (r : Radio) : VitaOp → Prop
  | .add p => p.rateSps = r.rateSps.toUInt64 ∧
      p.payloadFmtWord0 = samplingModePayloadFmt r.samplingMode
  | .updatePayloadFormat w => w = samplingModePayloadFmt r.samplingMode
  | _ => True

/-- An operation that stores the truth keeps every slot true. -/
theorem apply_describes {o : VitaOp} (hv : ∀ k, Describes r (v.slots k)) (ho : StoresTruth r o)
    (k : VitaId) : Describes r ((v.apply o).1.slots k) := by
  refine apply_slots hv nofun (fun p s hp _ _ => ?_) (fun s e he hactive hs _ => ?_) k
  · subst hp
    exact ho
  · obtain ⟨hrate, hword⟩ := hs hactive
    rw [Slot.step_rateHzAnchor, Slot.step_payloadFmtWord0]
    refine ⟨hrate, ?_⟩
    cases e with
    | payloadFormat w =>
      cases o with
      | updatePayloadFormat w' =>
        cases he
        exact ho
      | _ => cases he
    | _ => exact hword

/-- Slots that are not active describe nothing. -/
theorem described_of_inactive {d : Daemon} (h : ∀ k, (d.vita.slots k).active = false) :
    Described d := by
  intro k hactive
  rw [h k] at hactive
  cases hactive

end

/-! ## Messages -/

section
variable {opts : Options} {env : Env} {m : Json.Msg} {i : SessId} {d d' : Daemon}
  {flow : Option (SessId × VitaId)}

/-- A stream command leaves its session in one of the stream states, or without a stream, or as it
was. -/
theorem streamOutcome_inStream {c : Command} (h : StreamOutcome env m i d c d')
    (hin : InStream (d.sessions i)) : InStream (d'.sessions i) := by
  cases h with
  -- the channel is given back, and the stream was not open
  | refused hopen d₁ hclaim =>
    obtain ⟨-, rfl⟩ := rxClaim_eq hclaim
    have hself : (({ d with rxOwner := some i }.modify i Session.own).rxRelease i).sessions i =
        (d.sessions i).own.disown := by
      rw [rxRelease_sessions, Daemon.modify_self, Daemon.modify_self]
    intro hopen'
    have hsame := congrArg Session.streamOpen hself
    exact absurd (hopen.symm.trans (hsame.symm.trans hopen')) (by decide)
  | opened _ d₁ _ addr port =>
    have hself := Daemon.modify_self i (Session.openStream d₁.allocStreamId.1 addr port)
      d₁.allocStreamId.2
    exact fun _ => .inl (congrArg Session.state hself)
  -- the token of a slot has no part in the state
  | startBusy _ _ p =>
    have hself := Daemon.modify_self i (Session.setToken (vitaSessionAdd p d.vita).1)
      (d.vitaApply (.add p))
    intro hopen
    have hstate := hin ((congrArg Session.streamOpen hself).symm.trans hopen)
    exact hstate.imp (congrArg Session.state hself).trans (congrArg Session.state hself).trans
  | startFailed _ _ p _ d₁ hstart =>
    obtain ⟨hsessions, -⟩ := bridgeStart_frame hstart
    have hadded : d₁.sessions i = (d.sessions i).setToken (vitaSessionAdd p d.vita).1 :=
      (congrFun hsessions i).trans (Daemon.modify_self ..)
    have hself : ((d₁.vitaApply (.remove (vitaSessionAdd p d.vita).1)).modify i
        (Session.setToken (-1))).sessions i =
          ((d.sessions i).setToken (vitaSessionAdd p d.vita).1).setToken (-1) := by
      rw [Daemon.modify_self, ← hadded]
      rfl
    intro hopen
    have hstate := hin ((congrArg Session.streamOpen hself).symm.trans hopen)
    exact hstate.imp (congrArg Session.state hself).trans (congrArg Session.state hself).trans
  | started _ _ p _ _ d₁ =>
    have hself := Daemon.modify_self i (Session.setState .streaming) d₁
    exact fun _ => .inr (congrArg Session.state hself)
  | stopped =>
    have hself := Daemon.modify_self i (Session.setState .streamOpen) (d.removeVita i).stopReading
    exact fun _ => .inl (congrArg Session.state hself)
  | closed =>
    have hself : (((d.removeVita i).modify i Session.closeStream).rxRelease i).sessions i =
        ((d.removeVita i).sessions i).closeStream.disown := by
      rw [rxRelease_sessions, Daemon.modify_self, Daemon.modify_self]
    exact fun hopen => nomatch (congrArg Session.streamOpen hself).symm.trans hopen
  | closedStreaming =>
    have hself : ((((d.removeVita i).stopReading).modify i Session.closeStream).rxRelease
        i).sessions i = ((d.removeVita i).stopReading.sessions i).closeStream.disown := by
      rw [rxRelease_sessions, Daemon.modify_self, Daemon.modify_self]
    exact fun hopen => nomatch (congrArg Session.streamOpen hself).symm.trans hopen

/-- So does every message but an accepted `hello` of a session with an open stream. -/
theorem outcome_inStream {c : Option Command} (h : Outcome opts env m i d c d')
    (hhello : (d.sessions i).streamOpen = true → ¬ (c = some .hello ∧ OffersVersion m))
    (hin : InStream (d.sessions i)) : InStream (d'.sessions i) := by
  cases h with
  | ignored | answered | status => exact hin
  | auth ha =>
    intro hopen
    have hbefore : (d.sessions i).streamOpen = true :=
      (congrArg StreamFields.streamOpen ha.isPrivate.streamFields).symm.trans hopen
    rcases ha.state with ⟨rfl, hm⟩ | hsame
    · exact absurd ⟨rfl, hm⟩ (hhello hbefore)
    · rw [hsame]
      exact hin hbefore
  | config _ _ hc =>
    rw [hc.configures.sessions]
    exact hin
  | stream _ ht => exact streamOutcome_inStream ht hin

/-- A request that sets the receiver, of a session with an open stream, changes neither the rates
nor the mode, and leaves the slots alone or sends their Context packets. -/
theorem config_kept {c : Command} (h : ConfigOutcome opts env m i d c d')
    (hdev : env.device.Succeeds) (hopen : (d.sessions i).streamOpen = true)
    (hin : InStream (d.sessions i)) :
    SameRates d.radio d'.radio ∧
      (d'.vita = d.vita ∨ ∃ gain, d'.vita = (d.vita.apply (.contextAll gain)).1) := by
  have hset : ∀ {β : Type} {x : Setting β}, KeepsRates x →
      SameRates d.radio (d.set env.device x).2.radio :=
    fun hx => set_sameRates hx env.device d.radio
  cases h with
  | frequency freq => exact ⟨hset (x := .frequency freq) trivial, .inl rfl⟩
  | frequencyFailed freq => exact ⟨hset (x := .frequency freq) trivial, .inl rfl⟩
  | sampleRate _ _ hstate hstate' =>
    -- the session would have to be in neither stream state
    rcases hin hopen with h | h
    · exact absurd h hstate'
    · exact absurd h hstate
  | sampleRateFailed rate _ _ _ happlied =>
    exact absurd happlied (set_sampleRate_ne_zero hdev rate d)
  | rfGain val _ _ _ d₁ hd₁ =>
    subst hd₁
    exact ⟨hset (x := .gain val) trivial, .inr ⟨_, rfl⟩⟩
  | agc en _ d₁ hd₁ =>
    subst hd₁
    exact ⟨hset (x := .agc en) trivial, .inr ⟨_, rfl⟩⟩
  | biasTee en _ d₁ hd₁ =>
    obtain rfl : (d.set env.device (.biasTee en)).2 = d₁ := congrArg Prod.snd hd₁
    exact ⟨hset (x := .biasTee en) trivial, .inl rfl⟩
  | biasTeeFailed en => exact ⟨hset (x := .biasTee en) trivial, .inl rfl⟩
  | ppm value _ d₁ hd₁ =>
    subst hd₁
    exact ⟨hset (x := .ppm value) trivial, .inl rfl⟩
  | directSampling _ _ _ hclosed => exact absurd (hopen.symm.trans hclosed) (by decide)
  | directSamplingFailed mode _ _ hrc =>
    refine ⟨SameRates.of_eq ?_, .inl rfl⟩
    exact if_neg hrc

/-! ## What the client is told -/

/-- Where an observation is the reply to an `open_stream`, it describes the receiver. -/
def OpensTruly (r : Radio) (o : Obs) : Prop :=
  ∀ i id s, o = .sent i (.ok id (.opened s)) → s.Describes r

/-- What a reply says stays true as long as the rates and the mode do. -/
theorem opened_congr {s : OpenedStream} {r r' : Radio} (h : s.Describes r)
    (hr : SameRates r r') : s.Describes r' :=
  ⟨h.sampleRateSps.trans hr.rateSps.symm, by rw [hr.samplingMode]; exact h.signalType⟩

/-- Events and replies to other commands open no stream. -/
theorem chatter_opensTruly (r : Radio) : Chatter (OpensTruly r) where
  hardware := fun _ _ _ _ => Obs.noConfusion
  datagram := fun _ _ _ _ => Obs.noConfusion
  event := fun _ _ _ _ _ hsent => Frame.noConfusion (Obs.sent.inj hsent).2

/-- A good reply tells the truth if it does where it opens a stream. -/
theorem opensTruly_ok {r : Radio} {res : Result} (h : ∀ s, res = .opened s → s.Describes r) (id : CStr) :
    OpensTruly r (.sent i (.ok id res)) := by
  intro j id' s hsent
  exact h s (Frame.ok.inj (Obs.sent.inj hsent).2).2

/-- A reply to `open_stream` describes the receiver as it is then. -/
theorem outcome_opensTruly {c : Option Command} (h : Outcome opts env m i d c d') :
    Emits (OpensTruly d'.radio) d d' := by
  have hother : ∀ {r : Radio} {f : Frame}, (∀ id s, f ≠ .ok id (.opened s)) → OpensTruly r (.sent i f) :=
    fun hf j id s hsent => absurd (Obs.sent.inj hsent).2 (hf id s)
  cases h with
  | ignored => exact Emits.of_eq rfl
  | answered _ f hf =>
    refine Emits.send (hother fun id s hsame => ?_) d
    rw [hsame] at hf
    exact Bool.false_ne_true hf
  | status id s => exact Emits.send (opensTruly_ok (fun _ => Result.noConfusion) id) d
  | auth ha =>
    refine ha.emits (fun _ _ _ _ => Obs.noConfusion) (fun _ _ _ _ _ => Obs.noConfusion)
      (fun id r hr => ?_) fun id hex => ?_
    · exact opensTruly_ok (fun s hs => absurd hs (hr s)) id
    · exact hother fun _ _ => Frame.noConfusion
  | config _ _ hc =>
    refine hc.emits (chatter_opensTruly _) (fun id r hr => ?_) fun _ _ id code message _ _ _ => ?_
    · exact opensTruly_ok (fun s hs => absurd hs (hr s)) id
    · exact hother fun _ _ => Frame.noConfusion
  | stream _ ht =>
    refine ht.emits (chatter_opensTruly _) (fun id r hr => ?_) fun id code message _ => ?_
    · -- a stream command leaves the settings alone
      rw [(streamOutcome_unseen ht).radio]
      exact opensTruly_ok hr id
    · exact hother fun _ _ => Frame.noConfusion

/-! ## The invariant -/

/-- What is known of every state in which the guards hold. -/
structure Settled (d : Daemon) : Prop where
  owned : Owned d
  carries : ∃ flow, Flows d flow
  inStream : ∀ i, InStream (d.sessions i)
  described : Described d

/-- Some connected session has a stream open. -/
def SomeOpen (d : Daemon) : Prop :=
  ∃ i, (d.sessions i).live = true ∧ (d.sessions i).streamOpen = true

/-- An active slot belongs to an open stream. -/
theorem Settled.inactive (h : Settled d) (hnone : ¬ SomeOpen d) (k : VitaId) :
    (d.vita.slots k).active = false := by
  rw [Bool.eq_false_iff]
  intro hactive
  obtain ⟨flow, hc⟩ := h.carries
  obtain ⟨i, hi⟩ := hc.slots k hactive
  obtain ⟨hstate, hlive, -⟩ := hc.flows i k hi
  exact hnone ⟨i, hlive, (h.owned.agrees i hlive).2.2 (.inr hstate)⟩

/-- Removing a slot keeps the others true. -/
theorem removeVita_describes {r : Radio} (h : ∀ k, Describes r (d.vita.slots k)) (k : VitaId) :
    Describes r ((d.removeVita i).vita.slots k) := by
  unfold Daemon.removeVita
  split_ifs
  · exact apply_describes (o := .remove _) h trivial k
  · exact h k

/-- A stream that starts describes the receiver, and one that ends leaves the others alone. -/
theorem streamOutcome_described {c : Command} (h : StreamOutcome env m i d c d')
    (hd : Described d) : Described d' := by
  have hradio := (streamOutcome_unseen h).radio
  unfold Described
  rw [hradio]
  cases h with
  | refused _ d₁ hclaim =>
    obtain ⟨-, rfl⟩ := rxClaim_eq hclaim
    intro k
    show Describes d.radio ((Daemon.rxRelease i _).vita.slots k)
    rw [rxRelease_vita]
    exact hd k
  | opened _ d₁ hclaim =>
    obtain ⟨-, rfl⟩ := rxClaim_eq hclaim
    exact hd
  | startBusy _ _ p htoken =>
    rcases vitaSessionAdd_cases p d.vita with hfull | ⟨l, -, hl, -⟩
    · intro k
      show Describes d.radio ((vitaSessionAdd p d.vita).2.1.slots k)
      rw [hfull]
      exact hd k
    · omega
  -- the slot that was added is cleared again
  | startFailed _ _ p htoken d₁ hstart =>
    obtain ⟨-, rfl⟩ := Prod.mk.inj hstart
    intro k
    show Describes d.radio
      ((vitaSessionRemove (vitaSessionAdd p d.vita).1 (vitaSessionAdd p d.vita).2.1).1.slots k)
    rcases remove_added_slots htoken k with hsame | ⟨hzero, -⟩
    · rw [hsame]
      exact hd k
    · rw [hzero]
      nofun
  -- the slot is filled with the rates of the receiver
  | started _ _ p hp _ d₁ hstart =>
    obtain ⟨-, rfl⟩ := Prod.mk.inj hstart
    subst hp
    exact fun k => apply_describes (o := .add _) hd ⟨rfl, rfl⟩ k
  | stopped => exact fun k => removeVita_describes hd k
  | closed | closedStreaming =>
    intro k
    show Describes d.radio ((Daemon.rxRelease i _).vita.slots k)
    rw [rxRelease_vita]
    exact removeVita_describes hd k

/-- A message keeps the description, and keeps the rates and the mode while a stream is open. -/
theorem outcome_described {c : Option Command} (h : Outcome opts env m i d c d')
    (hdev : env.device.Succeeds) (hd : Settled d) :
    Described d' ∧ (SomeOpen d → SameRates d.radio d'.radio) := by
  cases h with
  | ignored | answered | status => exact ⟨hd.described, fun _ => SameRates.refl _⟩
  -- authentication leaves the receiver and the slots alone
  | auth ha =>
    have hradio := ha.isPrivate.radio
    refine ⟨?_, fun _ => SameRates.of_eq hradio⟩
    unfold Described
    rw [hradio, ha.isPrivate.vita]
    exact hd.described
  | stream _ ht =>
    exact ⟨streamOutcome_described ht hd.described,
      fun _ => SameRates.of_eq (streamOutcome_unseen ht).radio⟩
  | config _ hfree hc =>
    by_cases hopen : SomeOpen d
    · -- the channel is not held by another session, so the open stream is this session's own
      obtain ⟨j, hlive, hj⟩ := hopen
      obtain ⟨howner, howns, -⟩ := hd.owned.agrees j hlive
      have hheld : d.rxOwner = some j := howner.mpr (howns.mpr hj)
      obtain rfl : j = i := by
        have hown : ¬ (d.rxOwner ≠ none ∧ d.rxOwner ≠ some i) := of_decide_eq_false hfree
        rw [hheld] at hown
        by_contra hne
        exact hown ⟨nofun, fun h => hne (Option.some.inj h)⟩
      obtain ⟨hrates, hvita⟩ := config_kept hc hdev hj (hd.inStream j)
      refine ⟨fun k => ?_, fun _ => hrates⟩
      rcases hvita with hsame | ⟨gain, hcontext⟩
      · rw [hsame]
        exact (hd.described k).congr hrates
      · rw [hcontext]
        exact (apply_describes (o := .contextAll gain) hd.described trivial k).congr hrates
    · -- no slot is active, and a request that sets the receiver activates none
      refine ⟨described_of_inactive fun k => ?_, fun h => absurd h hopen⟩
      rw [(hc.configures.identity k).1]
      exact hd.inactive hopen k

/-- The end of a session keeps the rates and the mode. -/
theorem destroy_sameRates (dev : Device) : SameRates d.radio (d.destroy opts dev i).radio := by
  rw [destroy_radio]
  split_ifs
  · exact set_sameRates (x := .biasTee false) trivial dev d.radio
  · exact SameRates.refl _

/-- The end of a session keeps the slots true. -/
theorem destroy_described (hd : Described d) (dev : Device) :
    Described (d.destroy opts dev i) := by
  intro k
  refine Describes.congr ?_ (destroy_sameRates dev)
  rw [destroy_vita]
  unfold Daemon.endStream
  split_ifs
  · exact removeVita_describes hd k
  · exact removeVita_describes hd k

end

/-! ## Runs -/

/-- A `hello` that is accepted on a session with an open stream. -/
def HelloWhileOpen (opts : Options) (d : Daemon) : Action → Prop
  | .request i frame env => (d.sessions i).streamOpen = true ∧
      d.command opts i frame env = some (some .hello) ∧ OffersVersion (d.received i frame env)
  | _ => False

section
variable {opts : Options} {d d' : Daemon} {a : Action}

/-- A session that streams has a stream open. -/
theorem HelloWhileOpen.of_streaming (hown : Owned d) (hstep : step opts d a = some d')
    (h : HelloWhileStreaming opts d a) : HelloWhileOpen opts d a := by
  cases a with
  | request i frame env =>
    obtain ⟨⟨hlive, -⟩, -⟩ := Option.ite_none_right_eq_some.mp hstep
    exact ⟨(hown.agrees i hlive).2.2 (.inr h.1), h.2⟩
  | connect | disconnect | usb => exact absurd h id

/-- The sessions' part of the invariant: only an accepted `hello` takes a session with an open
stream out of the stream states. -/
theorem inStream_next (hown : Owned d) (hin : ∀ j, InStream (d.sessions j))
    (hstep : step opts d a = some d') (hhello : ¬ HelloWhileOpen opts d a) (j : SessId) :
    InStream (d'.sessions j) := by
  by_cases htouched : d'.sessions j = d.sessions j
  · rw [htouched]
    exact hin j
  rcases touched_cases hown hstep htouched with ⟨fd, -, hnew⟩ |
    ⟨frame, env, c, d₁, rfl, hlive, hcommand, hout, -, rfl⟩ | ⟨env, rfl, rfl⟩
  · rw [hnew]
    nofun
  · split_ifs
    · rw [destroy_self]
      nofun
    · refine outcome_inStream hout (fun hopen ⟨hc, hm⟩ => hhello ⟨hopen, ?_, hm⟩) (hin j)
      rw [hcommand, hc]
  · rw [destroy_self]
    nofun

/-- The end of a session is no reply. -/
theorem destroy_opensTruly {r : Radio} (dev : Device) : Emits (OpensTruly r) d (d.destroy opts dev i) := by
  have hP := chatter_opensTruly r
  refine ((hP.endStream i d).trans (hP.rxRelease i _)).trans ((hP.biasTeeFallback opts dev _).trans
    ((Emits.modify ..).trans (Emits.log (fun o ho => ?_) _)))
  rw [List.mem_singleton.mp ho]
  exact fun _ _ _ => Obs.noConfusion

/-- The receiver's part: a step keeps the description, and keeps the rates and the mode while a
stream is open. -/
theorem described_next (hd : Settled d) (ha : HardwareSucceeds a)
    (hstep : step opts d a = some d') :
    Described d' ∧ (SomeOpen d → SameRates d.radio d'.radio) := by
  cases stepped_of_step hstep with
  | connect fd stack =>
    rcases sessionCreate_cases fd stack d with hc | ⟨i, -, hc⟩
    · rw [hc]
      exact ⟨hd.described, fun _ => SameRates.refl _⟩
    · rw [hc]
      exact ⟨hd.described, fun _ => SameRates.refl _⟩
  | request i frame env c d₁ _ _ hout =>
    -- the tokens are written into the slot before the handler looks at the request
    have hreceived : Settled (d.tokenise i frame) := by
      obtain ⟨flow, hc⟩ := hd.carries
      exact ⟨hd.owned.congr rfl rfl, ⟨flow, hc.congr (fun _ => ⟨rfl, rfl⟩) rfl rfl⟩, hd.inStream,
        hd.described⟩
    obtain ⟨hdescribed, hrates⟩ := outcome_described hout ha hreceived
    -- a reply may be the last one, and then the session is destroyed
    split_ifs
    · exact ⟨destroy_described hdescribed env.device,
        fun hopen => (hrates hopen).trans (destroy_sameRates env.device)⟩
    · exact ⟨hdescribed, hrates⟩
  | disconnect i env =>
    exact ⟨destroy_described hd.described env.device, fun _ => destroy_sameRates env.device⟩
  -- samples go out as they are, and no rate changes on the way
  | usb buf nowMs =>
    have hradio : (d.rtlCallback buf nowMs).radio = d.radio := (Unseen.rtlCallback ..).radio
    refine ⟨?_, fun _ => SameRates.of_eq hradio⟩
    unfold Described
    rw [hradio]
    unfold Daemon.rtlCallback
    split_ifs
    · rcases measureAdcLevel buf nowMs d.adc with ⟨_ | level, adc⟩
      · exact fun k => apply_describes (o := .callback buf) hd.described trivial k
      · exact fun k => apply_describes (o := .callback buf) hd.described trivial k
    · exact hd.described

/-- In every step: the reply to an `open_stream` describes the receiver as the step leaves it. -/
theorem step_opensTruly (hstep : step opts d a = some d') : Emits (OpensTruly d'.radio) d d' := by
  cases stepped_of_step hstep with
  | connect fd stack =>
    rcases sessionCreate_cases fd stack d with hc | ⟨i, -, hc⟩
    · rw [hc]
      exact Emits.of_eq rfl
    · rw [hc]
      refine Emits.log (fun o ho => ?_) _
      rw [List.mem_singleton.mp ho]
      exact fun _ _ _ => Obs.noConfusion
  | request i frame env c d₁ _ _ hout =>
    -- the frame has been tokenised before, which is not observed
    have hquiet : Emits (OpensTruly d₁.radio) d (d.tokenise i frame) := Emits.of_eq rfl
    have htold : Emits (OpensTruly d₁.radio) d d₁ := hquiet.trans (outcome_opensTruly hout)
    split_ifs
    · refine Emits.trans (htold.mono fun o ho j id s hs => ?_) (destroy_opensTruly env.device)
      exact opened_congr (ho j id s hs) (destroy_sameRates env.device)
    · exact htold
  | disconnect i env => exact destroy_opensTruly env.device
  | usb buf nowMs => exact (chatter_opensTruly _).rtlCallback buf nowMs d

/-- A step keeps the invariant. -/
theorem Settled.next (hd : Settled d) (ha : HardwareSucceeds a) (hstep : step opts d a = some d')
    (hhello : ¬ HelloWhileOpen opts d a) : Settled d' := by
  obtain ⟨flow, hc⟩ := hd.carries
  exact ⟨hd.owned.next hstep,
    flows_next hd.owned hc hstep fun h => hhello (.of_streaming hd.owned hstep h),
    inStream_next hd.owned hd.inStream hstep hhello, (described_next hd ha hstep).1⟩

/-- The invariant holds in every state of a run without a `hello` on an open stream, and while a
session keeps its stream open, the rates and the mode stay as they are. The induction is on the
actions; the invariant says that the guards hold in every state on the way. -/
theorem Settled.run {acts : List Action} (hd : Settled d) (hacts : ∀ a ∈ acts, HardwareSucceeds a)
    (hhello : Along (step opts) (fun d a _ => ¬ HelloWhileOpen opts d a) d acts)
    (hrun : runActs (step opts) d acts = some d') :
    Settled d' ∧ ∀ i, Always (step opts) (fun e => (e.sessions i).live = true ∧
      (e.sessions i).streamOpen = true) d acts → SameRates d.radio d'.radio := by
  induction acts generalizing d with
  | nil =>
    obtain rfl := Option.some.inj hrun
    exact ⟨hd, fun _ _ => SameRates.refl _⟩
  | cons a as ih =>
    obtain ⟨ha, has⟩ := List.forall_mem_cons.mp hacts
    rw [runActs_cons, Option.bind_eq_some_iff] at hrun
    obtain ⟨d₁, hd₁, hrest⟩ := hrun
    obtain ⟨hfirst, hhellos⟩ := hhello d₁ hd₁
    obtain ⟨hsettled, hrates⟩ := ih (hd.next ha hd₁ hfirst) has hhellos hrest
    refine ⟨hsettled, fun i ⟨hnow, hthen⟩ => ?_⟩
    exact ((described_next hd ha hd₁).2 ⟨i, hnow⟩).trans (hrates i (hthen d₁ hd₁))

end

/-- At the start there are no sessions and no streams. -/
theorem settled_init (dev : Device) (o : Startup) (contextPackets : Bool) :
    Settled (Daemon.init dev o contextPackets) :=
  ⟨owned_init dev o contextPackets, ⟨none, flows_init dev o contextPackets⟩, nofun, nofun⟩

/-- In every run whose hardware calls succeed, and in which no session says an accepted `hello`
while it has a stream open: as long as a session keeps its stream open, the rates and the sampling
mode are those of the state in which it began to, and so are those that the reply to its
`open_stream` has told it; and every active slot describes the receiver. -/
theorem open_stream_described (opts : Options) (dev : Device) (o : Startup) (contextPackets : Bool)
    (before after : List Action) (d d' : Daemon)
    (hbefore : runActs (step opts) (Daemon.init dev o contextPackets) before = some d)
    (hafter : runActs (step opts) d after = some d')
    (hhardware : ∀ a ∈ before ++ after, HardwareSucceeds a)
    (hhello : Along (step opts) (fun d a _ => ¬ HelloWhileOpen opts d a)
      (Daemon.init dev o contextPackets) (before ++ after)) :
    (∀ i, Always (step opts) (fun e => (e.sessions i).live = true ∧
        (e.sessions i).streamOpen = true) d after → SameRates d.radio d'.radio ∧
        ∀ d₀ a id s, step opts d₀ a = some d → Observed d₀ d (.sent i (.ok id (.opened s))) →
          s.Describes d'.radio) ∧
      Described d' := by
  obtain ⟨hbefore', hafter'⟩ := List.forall_mem_append.mp hhardware
  obtain ⟨hhello₁, hhello₂⟩ := hhello.append hbefore
  have hd := ((settled_init dev o contextPackets).run hbefore' hhello₁ hbefore).1
  obtain ⟨hsettled, hkept⟩ := hd.run hafter' hhello₂ hafter
  refine ⟨fun i hopen => ?_, hsettled.described⟩
  have hrates := hkept i hopen
  refine ⟨hrates, fun d₀ a id s hstep htold => ?_⟩
  exact opened_congr ((step_opensTruly hstep).observed htold i id s rfl) hrates

/-- A request for a sample rate. -/
def rateFrame (sps : String) : List UInt8 :=
  requestFrame "set_sample_rate" ("\"function\":\"rx\",\"sample_rate_sps\":\"" ++ sps ++ "\"")

/-- The device of the run succeeds in everything. -/
theorem streamingClient_succeeds : ∀ a ∈ streamingClient, HardwareSucceeds a := by
  intro a ha
  fin_cases ha
  all_goals first | exact obedient_succeeds | trivial

/-- A client opens a stream and starts it; a request for another rate is refused, and the slot still
has the rate of the receiver. -/
theorem open_stream_described_started :
    ∃ d d', runActs (step openAccess) started streamingClient = some d ∧
      runActs (step openAccess) d [.request 0 (rateFrame "250000") (quiet 0)] = some d' ∧
      (d'.vita.slots 0).active = true ∧ SameRates d.radio d'.radio ∧
      (d'.vita.slots 0).rateHzAnchor = d'.radio.rateSps.toUInt64 := by
  have hrun : ((runActs (step openAccess) started streamingClient).any fun d =>
      ((d.sessions 0).live && (d.sessions 0).streamOpen) &&
      (runActs (step openAccess) d [.request 0 (rateFrame "250000") (quiet 0)]).any fun d' =>
        ((d'.sessions 0).live && (d'.sessions 0).streamOpen) && (d'.vita.slots 0).active) =
      true := by
    decide +kernel
  -- no message of a session with an open stream is a `hello`
  have hhello : Along (step openAccess) (fun d a _ => (match a with
      | .request i frame env => (d.sessions i).streamOpen &&
          d.command openAccess i frame env = some (some .hello)
      | _ => false) = false) started
      (streamingClient ++ [.request 0 (rateFrame "250000") (quiet 0)]) := by
    decide +kernel
  obtain ⟨d, hd, hchecks⟩ := (Option.any_eq_true ..).mp hrun
  simp only [Bool.and_eq_true] at hchecks
  obtain ⟨hopen, hchecks⟩ := hchecks
  obtain ⟨d', hd', hchecks⟩ := (Option.any_eq_true ..).mp hchecks
  simp only [Bool.and_eq_true] at hchecks
  obtain ⟨hopen', hactive⟩ := hchecks
  obtain ⟨hrates, hdescribed⟩ := open_stream_described openAccess obedient _ true streamingClient
    [.request 0 (rateFrame "250000") (quiet 0)] d d' hd hd'
    (List.forall_mem_append.mpr ⟨streamingClient_succeeds,
      List.forall_mem_singleton.mpr obedient_succeeds⟩)
    (hhello.mono fun d a d' _ hcheck hbad => by
      cases a with
      | request i frame env => simp [hbad.1, hbad.2.1] at hcheck
      | connect | disconnect | usb => exact hbad)
  have halways : Always (step openAccess) (fun e => (e.sessions 0).live = true ∧
      (e.sessions 0).streamOpen = true) d [.request 0 (rateFrame "250000") (quiet 0)] := by
    refine ⟨hopen, fun e he => ⟨?_, trivial⟩⟩
    rw [runActs_cons, he] at hd'
    obtain rfl := Option.some.inj hd'
    exact hopen'
  exact ⟨d, d', hd, hd', hactive, (hrates 0 halways).1, (hdescribed 0 hactive).1⟩

/-- The client says `hello` again on its running stream, and its request for another rate is carried
out: the slot goes on with the old one. -/
theorem open_stream_misdescribed :
    ∃ d d', runActs (step openAccess) started streamingClient = some d ∧
      runActs (step openAccess) d [.request 0 helloFrame (quiet 0),
        .request 0 (rateFrame "250000") (quiet 0)] = some d' ∧
      Always (step openAccess) (fun e => (e.sessions 0).live = true ∧
        (e.sessions 0).streamOpen = true) d [.request 0 helloFrame (quiet 0),
        .request 0 (rateFrame "250000") (quiet 0)] ∧
      ¬ SameRates d.radio d'.radio ∧ ¬ Described d' := by
  have hrun : ((runActs (step openAccess) started streamingClient).any fun d =>
      decide (Always (step openAccess) (fun e => (e.sessions 0).live = true ∧
        (e.sessions 0).streamOpen = true) d [.request 0 helloFrame (quiet 0),
        .request 0 (rateFrame "250000") (quiet 0)]) &&
      (runActs (step openAccess) d [.request 0 helloFrame (quiet 0),
        .request 0 (rateFrame "250000") (quiet 0)]).any fun d' =>
          d'.radio.rateSps ≠ d.radio.rateSps && (d'.vita.slots 0).active &&
          (d'.vita.slots 0).rateHzAnchor ≠ d'.radio.rateSps.toUInt64) = true := by
    decide +kernel
  obtain ⟨d, hd, hchecks⟩ := (Option.any_eq_true ..).mp hrun
  simp only [Bool.and_eq_true, decide_eq_true_eq] at hchecks
  obtain ⟨hopen, hchecks⟩ := hchecks
  obtain ⟨d', hd', hchecks⟩ := (Option.any_eq_true ..).mp hchecks
  simp only [Bool.and_eq_true, decide_eq_true_eq] at hchecks
  obtain ⟨⟨hrate, hactive⟩, hanchor⟩ := hchecks
  exact ⟨d, d', hd, hd', hopen, fun h => hrate h.rateSps, fun h => hanchor (h 0 hactive).1⟩

end SlcRtld.Property
