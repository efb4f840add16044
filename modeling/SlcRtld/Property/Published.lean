import SlcRtld.Property.Parameters
import SlcRtld.Libc.Format

/-!
# What is published is accepted

`get_capabilities` publishes the frequencies, the rates and the values of the controls that a client
may ask for, as numbers that `printf` has written. A client that sends one of them back, spelled as
it was published, gets it: the text is converted to the number that was printed, passes the check,
and the hardware is told that number (`published_values_taken`).
-/

namespace SlcRtld.Property

open Control Libc Json Rtl Effect
open Effect.Prog (perform Post Yields)

/-! ## Texts that were printed -/

/-- A natural number has no sign. -/
theorem fmtInt_natCast (n : ℕ) : fmtInt n = fmtUnsigned n := if_neg (by omega)

/-- `strtoull` reads back a number that has been written. -/
theorem strtoull_integer {n k : ℕ} (hn : n < 10 ^ k) (hk : 2 ≤ k) (hlt : n < 2 ^ 64) :
    strtoull ((fmtUnsigned n).take k) = (n, false) := by
  have htext : fmtUnsigned n = (integerNumeral n).text := (integerNumeral_text n).symm
  have hread := readInteger_take (integerNumeral_wellFormed n) hk
  have hlen : (fmtUnsigned n).length ≤ k := (fmtUnsigned_length (by omega)).mpr hn
  have hall : (integerNumeral n).int.take (k - (integerNumeral n).signText.length) = fmtUnsigned n :=
    List.take_of_length_le hlen
  rw [hall, (fmtUnsigned_spec n).2.2.1] at hread
  rw [strtoull, htext, hread]
  dsimp only
  rw [if_neg (by omega)]
  rfl

/-- `strtol` reads back a number that has been written. -/
theorem strtol_integer {z : ℤ} (hlow : -100 ≤ z) (hhigh : z ≤ 100) :
    toInt32 (strtol ((fmtInt z).take 63)) = z := by
  have hread := readInteger_take (integerNumeral_wellFormed z) (k := 63) (by norm_num)
  have hsign := signText_length (integerNumeral z)
  have hlen : (fmtUnsigned z.natAbs).length ≤ 3 := by
    rw [fmtUnsigned_length (by norm_num)]
    omega
  have hall : (integerNumeral z).int.take (63 - (integerNumeral z).signText.length) =
      fmtUnsigned z.natAbs := by
    refine List.take_of_length_le (hlen.trans ?_)
    split_ifs at hsign <;> omega
  rw [hall, (fmtUnsigned_spec _).2.2.1] at hread
  rw [strtol, ← integerNumeral_text, hread]
  dsimp only
  have hsigned : (if (integerNumeral z).neg then -(z.natAbs : ℤ) else (z.natAbs : ℤ)) = z := by
    simp only [integerNumeral, decide_eq_true_eq]
    split_ifs <;> omega
  rw [hsigned, toInt32, min_eq_left (by omega), max_eq_right (by omega)]
  omega

/-- A gain in tenths fits its buffer. -/
theorem fmtTenths_length {g : ℤ} (hg : |g| < 2 ^ 31) : (fmtTenths g).length ≤ 63 := by
  obtain ⟨hlow, hhigh⟩ := abs_lt.mp hg
  have hint : (fmtUnsigned (g.natAbs / 10)).length ≤ 10 := by
    rw [fmtUnsigned_length (by norm_num)]
    omega
  have hfrac : (fmtUnsigned (g.natAbs % 10)).length ≤ 1 := by
    rw [fmtUnsigned_length (by norm_num)]
    omega
  have hsign : (if g < 0 then [0x2d] else [] : CStr).length ≤ 1 := by
    split_ifs <;> simp
  simp only [fmtTenths, List.length_append, List.length_singleton]
  omega

/-- A gain that was printed is read as the double next to it. -/
theorem strtod_tenths {g : ℤ} (hg : |g| < 2 ^ 31) :
    strtod ((fmtTenths g).take 63) = Double.ofRat (g / 10) := by
  rw [← tenthsNumeral_text, strtod_take (tenthsNumeral_wellFormed g) (by norm_num), tenthsNumeral_text,
    List.take_of_length_le (fmtTenths_length hg), ← tenthsNumeral_text,
    decimalValue_text (tenthsNumeral_wellFormed g), tenthsNumeral_value]

/-- A gain of the list that was printed passes the check, and is what the tuner is told. -/
theorem gain_roundTrip {opts : Options} {g : ℤ} (hmem : g ∈ opts.tunerGains) (hg : |g| < 2 ^ 31) :
    onGainList opts (strtod ((fmtTenths g).take 63)) = true ∧
      ((strtod ((fmtTenths g).take 63)).mulPos 10).roundToInt = g := by
  have hbound : |(g : ℚ)| < 2 ^ 31 := by exact_mod_cast hg
  obtain ⟨hglow, hghigh⟩ := abs_lt.mp hbound
  have hsmall : |(g : ℚ) / 10| ≤ 2 ^ 40 := by
    rw [abs_le]
    constructor <;> linarith
  obtain ⟨y, hy, hnear⟩ := Double.ofRat_finite hsmall
  rw [strtod_tenths hg, hy]
  constructor
  · refine List.any_eq_true.mpr ⟨g, hmem, ?_⟩
    rw [hy]
    show ((Double.ofRat (y - y)).fabs.ltRat _) = true
    rw [sub_self]
    decide +kernel
  · obtain ⟨hlow, hhigh⟩ := abs_le.mp hnear
    norm_num at hlow hhigh
    have hproduct : |y * 10| ≤ 2 ^ 40 := by
      rw [abs_le]
      constructor <;> linarith
    obtain ⟨u, hu, huerror⟩ := Double.ofRat_finite hproduct
    have hmul : (Double.finite y).mulPos 10 = .finite u := hu
    rw [hmul]
    obtain ⟨hulow, huhigh⟩ := abs_le.mp huerror
    norm_num at hulow huhigh
    refine Double.roundToInt_eq ?_
    rw [abs_lt]
    constructor <;> linarith

/-! ## Requests that pass the checks -/

/-- The observation is not an error that a session's client is sent. -/
def Accepted (i : SessId) (o : Obs) : Prop := ∀ id code text, o ≠ .sent i (.error id code text)

/-- Events refuse nothing. -/
theorem chatter_accepted (i : SessId) : Chatter (Accepted i) where
  hardware := fun _ _ _ _ => Obs.noConfusion
  datagram := fun _ _ _ _ => Obs.noConfusion
  event := fun _ _ _ _ _ heq => Frame.noConfusion (Obs.sent.inj heq).2

/-- A request makes calls, and is not answered with an error if they succeed. -/
structure Takes (env : Env) (i : SessId) (cs : List HwCall) (d d' : Daemon) : Prop where
  told : calls d' = cs ++ calls d
  accepted : env.device.Succeeds → Emits (Accepted i) d d'

/-- A request that the checks of the configuration commands let pass. -/
structure Permitted (m : Msg) (i : SessId) (d : Daemon) (p : ℕ) : Prop where
  params : m.tokFindKey 0 (bytes "params") = some (some p)
  function : ∃ f, m.tokFindKey p (bytes "function") = some (some f) ∧ m.tokEq f (bytes "rx") = some true
  channel : m.tokFindKey p (bytes "channel") = some none
  free : d.rxOwnedByOther i = false

section
variable {opts : Options} {env : Env} {m : Msg} {i : SessId} {d : Daemon} {id : CStr} {p vi : ℕ}
  {text : CStr}

/-- A good reply refuses nothing. -/
theorem emits_ok (id : CStr) (r : Result) (d : Daemon) : Emits (Accepted i) d (d.send i (.ok id r)) :=
  .send (fun _ _ _ heq => Frame.noConfusion (Obs.sent.inj heq).2) d

/-- A read of the message with a known answer. -/
theorem yields_read {β : Type} {o : Op β} {x : Option β} {a : β}
    (ho : exec opts env m i β o d = x.map (·, d)) (hx : x = some a) (Q : β → Daemon → Prop) :
    Yields (exec opts env m i) (perform o) Q d ↔ Q a d :=
  Prog.yields_of_run ((Prog.run_perform ..).trans (exec_read ho hx)) Q

/-- The checks that come first let the request pass. -/
theorem yields_configChecks (h : Permitted m i d p) {Q : Unit → Daemon → Prop} {k : ℕ → Prog Op Unit}
    (hk : Yields (exec opts env m i) (k p) Q d) :
    Yields (exec opts env m i) (do
      let some p ← requireFunction id | return
      if !(← channelOk id p) then return
      if !(← mayConfigure id) then return
      k p) Q d := by
  obtain ⟨hparams, ⟨f, hfunction, hrx⟩, hchannel, hfree⟩ := h
  simp only [requireFunction, findParams, channelOk, mayConfigure, Prog.yields_bind]
  rw [yields_read rfl hparams]
  simp only [Prog.yields_bind]
  rw [yields_read rfl hfunction]
  simp only [Prog.yields_bind]
  rw [yields_read rfl hrx, if_pos rfl, Prog.yields_pure]
  simp only [Prog.yields_bind]
  rw [yields_read rfl hchannel, if_pos Option.isNone_none, Prog.yields_pure, if_neg (by decide)]
  simp only [Prog.yields_bind]
  rw [Prog.yields_of_post fun _ => post_rxOwnedByOther, hfree, if_pos (by decide), Prog.yields_pure,
    if_neg (by decide)]
  exact hk

/-- A frequency of the range is told to the tuner. -/
theorem cmdSetFrequency_takes (hperm : Permitted m i d p)
    (hvi : m.tokFindKey p (bytes "frequency_hz") = some (some vi)) (htext : m.tokStr vi 32 = some text)
    {f : ℕ} (hread : strtoull text = (f, false)) (hmin : rtlFreqMin d.radio.samplingMode ≤ f)
    (hmax : f ≤ rtlFreqMax d.radio.samplingMode) :
    Yields (exec opts env m i) (cmdSetFrequency id)
      (fun _ d' => Takes env i [.setCenterFreq f.toUInt32] d d') d := by
  have hpos : 1 ≤ f := by
    have hband : 1 ≤ rtlFreqMin d.radio.samplingMode := by
      cases d.radio.samplingMode <;> decide
    omega
  refine yields_configChecks hperm ?_
  rw [Prog.yields_bind, yields_read rfl hvi]
  dsimp only
  rw [Prog.yields_bind, yields_read rfl htext, hread]
  dsimp only
  rw [if_neg (by simp; omega), Prog.yields_bind, Prog.yields_of_post fun _ => post_radio,
    if_neg (by omega), Prog.yields_bind, Prog.yields_of_post fun _ => post_set]
  refine Prog.yields_ite (fun hfailed => ?_) (fun _ => ?_)
  · rw [Prog.yields_of_post fun _ => post_sendError]
    refine ⟨?_, fun hdev => (hdev.centerFreq f.toUInt32 (UInt32.toNat_inj.mp hfailed)).elim⟩
    rw [calls_send, calls_set]
    rfl
  · rw [Prog.yields_bind, Prog.yields_of_post fun _ => post_sendOk,
      Prog.yields_of_post fun _ => post_cpBroadcastEvent]
    refine ⟨?_, fun _ => (((chatter_accepted i).set ..).trans (emits_ok ..)).trans
      ((chatter_accepted i).broadcast ..)⟩
    rw [calls_broadcast, calls_send, calls_set]
    rfl

/-- A rate of the list is told to the tuner, if the session has no stream. -/
theorem cmdSetSampleRate_takes (hperm : Permitted m i d p)
    (hstate : (d.sessions i).state ≠ .streaming ∧ (d.sessions i).state ≠ .streamOpen)
    (hvi : m.tokFindKey p (bytes "sample_rate_sps") = some (some vi))
    (htext : m.tokStr vi 16 = some text) {r : ℕ} (hread : (strtoull text).1 % 2 ^ 32 = r)
    (hlist : r ∈ rtlRateList d.radio.samplingMode) :
    Yields (exec opts env m i) (cmdSetSampleRate id)
      (fun _ d' => Takes env i [.setSampleRate r.toUInt32] d d') d := by
  refine yields_configChecks hperm ?_
  rw [Prog.yields_bind, Prog.yields_of_post fun _ => post_self, if_neg (not_or.mpr hstate),
    Prog.yields_bind, yields_read rfl hvi]
  dsimp only
  rw [Prog.yields_bind, yields_read rfl htext, Prog.yields_bind, Prog.yields_of_post fun _ => post_radio,
    hread, if_neg (not_not.mpr hlist), Prog.yields_bind, Prog.yields_of_post fun _ => post_set]
  refine Prog.yields_ite (fun hfailed => ?_) (fun _ => ?_)
  · rw [Prog.yields_of_post fun _ => post_sendError]
    refine ⟨?_, fun hdev => (hdev.sampleRate r.toUInt32 (UInt32.toNat_inj.mp hfailed)).elim⟩
    rw [calls_send, calls_set]
    rfl
  · rw [Prog.yields_bind, Prog.yields_of_post fun _ => post_sendOk,
      Prog.yields_of_post fun _ => post_cpBroadcastEvent]
    refine ⟨?_, fun _ => (((chatter_accepted i).set ..).trans (emits_ok ..)).trans
      ((chatter_accepted i).broadcast ..)⟩
    rw [calls_broadcast, calls_send, calls_set]
    rfl

/-- A control is set by its branch. -/
theorem cmdSetControl_branch {Q : Unit → Daemon → Prop} {ni : ℕ} {name : CStr}
    (hperm : Permitted m i d p) (hni : m.tokFindKey p (bytes "name") = some (some ni))
    (hname : m.tokStr ni 32 = some name) (hvi : m.tokFindKey p (bytes "value") = some (some vi))
    (htext : m.tokStr vi 64 = some text)
    (hbranch : Yields (exec opts env m i) (if name = ControlName.rfGain.text then setRfGain opts id vi text
      else if name = ControlName.agc.text then setAgc id vi
      else if name = ControlName.biasTee.text then setBiasTee id vi text
      else if name = ControlName.ppmCorrection.text then setPpmCorrection id vi text
      else if name = ControlName.directSampling.text then setDirectSampling id vi text
      else sendError id .notSupported "Unknown control name") Q d) :
    Yields (exec opts env m i) (cmdSetControl opts id) Q d := by
  refine yields_configChecks hperm ?_
  rw [Prog.yields_bind, yields_read rfl hni, Prog.yields_bind, yields_read rfl hvi]
  dsimp only
  rw [Prog.yields_bind, yields_read rfl hname, Prog.yields_bind, yields_read rfl htext]
  exact hbranch

/-- A token that is taken for a number. -/
theorem yields_tokIsNumeric (hnumeric : LooksNumeric m vi) (Q : Bool → Daemon → Prop) :
    Yields (exec opts env m i) (tokIsNumeric vi) Q d ↔ Q true d := by
  obtain ⟨htype, htrue, hfalse⟩ := hnumeric
  simp only [tokIsNumeric, tokIsBool, Prog.yields_bind]
  rw [yields_read rfl htype, if_neg (by decide)]
  simp only [Prog.yields_bind]
  rw [yields_read rfl htrue, if_neg (by decide), yields_read rfl hfalse, Prog.yields_pure]
  rfl

/-- A gain of the list is told to the tuner, if the AGC is off. -/
theorem setRfGain_takes (hnumeric : LooksNumeric m vi) (hagc : d.radio.agcEnabled = false)
    (hlist : onGainList opts (strtod text) = true) {w : ℤ}
    (hround : ((strtod text).mulPos 10).roundToInt = w) :
    Yields (exec opts env m i) (setRfGain opts id vi text) (fun _ d' => Takes env i
      [.setTunerGain w, .setTunerGainMode true] d d') d := by
  subst hround
  rw [setRfGain, Prog.yields_bind, yields_tokIsNumeric hnumeric, if_neg (by decide), Prog.yields_bind,
    Prog.yields_of_post fun _ => post_radio, hagc, if_neg (by decide)]
  dsimp only
  rw [hlist, if_neg (by decide), Prog.yields_bind, Prog.yields_of_post fun _ => post_set, Prog.yields_bind,
    Prog.yields_of_post fun _ => post_sendOk, Prog.yields_bind,
    Prog.yields_of_post fun _ => post_vitaSendContextAll, Prog.yields_of_post fun _ => post_cpBroadcastEvent]
  refine ⟨?_, fun _ => (((chatter_accepted i).set ..).trans (emits_ok ..)).trans
    (((chatter_accepted i).vitaApply ..).trans ((chatter_accepted i).broadcast ..))⟩
  rw [calls_broadcast, calls_vitaApply, calls_send, calls_set]
  rfl

/-- A voltage of the bias tee switches it. -/
theorem setBiasTee_takes (hnumeric : LooksNumeric m vi) {on : Bool}
    (hread : strtod text = .finite (if on then rtlBiasTeeVolts else 0 : ℕ)) :
    Yields (exec opts env m i) (setBiasTee id vi text) (fun _ d' => Takes env i [.setBiasTee on] d d') d := by
  have hvolts : ¬ (strtod text ≠ .finite 0 ∧ strtod text ≠ .finite rtlBiasTeeVolts) := by
    rw [hread]
    cases on <;> decide
  have hon : decide (strtod text = .finite rtlBiasTeeVolts) = on := by
    rw [hread]
    cases on <;> decide
  rw [setBiasTee, Prog.yields_bind, yields_tokIsNumeric hnumeric, if_neg (by decide)]
  dsimp only
  rw [if_neg hvolts, hon, Prog.yields_bind, Prog.yields_of_post fun _ => post_set]
  refine Prog.yields_ite (fun hfailed => ?_) (fun _ => ?_)
  · rw [Prog.yields_of_post fun _ => post_sendError]
    refine ⟨?_, fun hdev => absurd hdev.setBiasTee hfailed⟩
    rw [calls_send, calls_set]
    rfl
  · rw [Prog.yields_bind, Prog.yields_of_post fun _ => post_radio, Prog.yields_bind,
      Prog.yields_of_post fun _ => post_sendOk, Prog.yields_bind, Prog.yields_of_post fun _ => post_radio,
      Prog.yields_of_post fun _ => post_cpBroadcastEvent]
    refine ⟨?_, fun _ => (((chatter_accepted i).set ..).trans (emits_ok ..)).trans
      ((chatter_accepted i).broadcast ..)⟩
    rw [calls_broadcast, calls_send, calls_set]
    rfl

/-- A correction of the range is told to the tuner. -/
theorem setPpmCorrection_takes (hnumeric : LooksNumeric m vi) {z : ℤ} (hlow : -100 ≤ z) (hhigh : z ≤ 100)
    (hread : toInt32 (strtol text) = z) :
    Yields (exec opts env m i) (setPpmCorrection id vi text) (fun _ d' => Takes env i
      [.setFreqCorrection z] d d') d := by
  rw [setPpmCorrection, Prog.yields_bind, yields_tokIsNumeric hnumeric, if_neg (by decide)]
  dsimp only
  rw [hread, if_neg (by omega), Prog.yields_bind, Prog.yields_of_post fun _ => post_set, Prog.yields_bind,
    Prog.yields_of_post fun _ => post_radio, Prog.yields_bind, Prog.yields_of_post fun _ => post_sendOk,
    Prog.yields_bind, Prog.yields_of_post fun _ => post_radio, Prog.yields_of_post fun _ => post_cpBroadcastEvent]
  refine ⟨?_, fun _ => (((chatter_accepted i).set ..).trans (emits_ok ..)).trans
    ((chatter_accepted i).broadcast ..)⟩
  rw [calls_broadcast, calls_send, calls_set]
  rfl

end

/-! ## The theorem -/

/-- The parameters have a member that is spelled in a given way, with no quotation marks. -/
def SpelledAs (p : Node) (key : String) (text : CStr) : Prop :=
  ∃ x, p.member (bytes key) = some x ∧ x.value = .primitive text

/-- The parameters name a control. -/
def Names (p : Node) (c : ControlName) : Prop :=
  ∃ y, p.member (bytes "name") = some y ∧ y.value.raw = c.text

/-- A request about the receiver, in a frame that is taken, of a session that may set it. -/
structure Entitled (opts : Options) (env : Env) (i : SessId) (t : Document) (c : Command) (p : Node)
    (d : Daemon) : Prop extends DispatchedText opts env i t c p d where
  live : (d.sessions i).live = true
  length : 1 ≤ t.text.length ∧ t.text.length ≤ maxMsgBytes
  function : ∃ f, p.member (bytes "function") = some f ∧ f.value.raw = bytes "rx"
  channel : p.member (bytes "channel") = none
  free : d.rxOwnedByOther i = false

/-- The request is carried out, and the hardware is told the given calls. -/
def Obtains (opts : Options) (env : Env) (i : SessId) (t : Document) (cs : List HwCall) (d : Daemon) : Prop :=
  ∃ d', step opts d (.request i t.text env) = some d' ∧ Takes env i cs d d'

section
variable {opts : Options} {env : Env} {i : SessId} {t : Document} {c : Command} {p : Node}
  {d : Daemon} {dev : Device} {o : Startup} {contextPackets : Bool}

section
variable (hreach : Reachable (step opts) (Daemon.init dev o contextPackets) d)
  (h : Entitled opts env i t c p d)
include hreach h

/-- The parameters have their node in the message. -/
theorem Entitled.hasParams : (d.received i t.text env).Has p :=
  (h.toDispatchedText.has hreach h.live h.length.2).of_member h.params

/-- The checks that come first are passed. -/
theorem Entitled.permitted : Permitted (d.received i t.text env) i (d.tokenise i t.text) p.index := by
  have hhas := h.toDispatchedText.has hreach h.live h.length.2
  have hp := h.hasParams hreach
  obtain ⟨f, hf, hrx⟩ := h.function
  refine ⟨?_, ⟨f.index, ?_, ?_⟩, ?_, h.free⟩
  · have hfind : (d.received i t.text env).tokFindKey 0 (bytes "params") = _ :=
      hhas.tokFindKey (Node.object_of_member h.params) (bytes "params")
    rw [hfind, h.params]
    rfl
  · rw [hp.tokFindKey h.object, hf]
    rfl
  · rw [(hp.of_member hf).tokEq, hrx]
    rfl
  · rw [hp.tokFindKey h.object, h.channel]
    rfl

/-- A parameter that was printed is found, and copied as it is. -/
theorem Entitled.carried {key : String} {n : Numeral} (hn : n.WellFormed) (hcarries : SpelledAs p key n.text)
    (cap : ℕ) :
    ∃ vi, (d.received i t.text env).tokFindKey p.index (bytes key) = some (some vi) ∧
      (d.received i t.text env).tokStr vi cap = some (n.text.take (cap - 1)) ∧
      LooksNumeric (d.received i t.text env) vi := by
  obtain ⟨x, hx, hvalue⟩ := hcarries
  have hp := h.hasParams hreach
  have hhas := hp.of_member hx
  have hnumber := (Numeral.isNumber_iff n.text).mpr ⟨n, hn, rfl⟩
  have hnul : 0 ∉ n.text.take (cap - 1) := fun hmem =>
    isNumber_no_nul hnumber (List.mem_of_mem_take hmem)
  have hname : ∀ s : CStr, isNumber s = false →
      (d.received i t.text env).tokIsPrimitive x.index s = some false := by
    intro s hs
    have hne : x.value.raw ≠ s := by
      rw [hvalue]
      rintro rfl
      exact absurd (hs.symm.trans hnumber) (by decide)
    rw [hhas.tokIsPrimitive, decide_eq_false hne, Bool.and_false]
  refine ⟨x.index, ?_, ?_, ?_, hname _ (by decide), hname _ (by decide)⟩
  · rw [hp.tokFindKey h.object, hx]
    rfl
  · rw [hhas.tokStr, hvalue]
    exact congrArg some (cstr_of_no_nul hnul)
  · rw [hhas.tokType, hvalue]
    rfl

/-- A control's name is found, and copied as it is. -/
theorem Entitled.named {x : ControlName} (hnames : Names p x) :
    ∃ ni, (d.received i t.text env).tokFindKey p.index (bytes "name") = some (some ni) ∧
      (d.received i t.text env).tokStr ni 32 = some x.text := by
  obtain ⟨y, hy, hraw⟩ := hnames
  have hp := h.hasParams hreach
  refine ⟨y.index, ?_, ?_⟩
  · rw [hp.tokFindKey h.object, hy]
    rfl
  · rw [(hp.of_member hy).tokStr, hraw]
    cases x <;> decide

/-- What the handler of a request does, the request does. -/
theorem Entitled.obtains (hconfig : c = .setFrequency ∨ c = .setSampleRate ∨ c = .setControl)
    {cs : List HwCall}
    (hhandler : ∀ id, Yields (exec opts env (d.received i t.text env) i) (c.fn opts id)
      (fun _ d' => Takes env i cs (d.tokenise i t.text) d') (d.tokenise i t.text)) :
    Obtains opts env i t cs d := by
  have hown : Owned d := hreach.invariant (owned_init dev o contextPackets) fun _ _ _ h hs => h.next hs
  obtain ⟨id, henv⟩ := envelope_of_command h.command
  obtain ⟨⟨⟩, d', hrun, htold, haccepted⟩ := hhandler id
  have hmsg : (handleMessage opts (jsmnParse t.text (d.tokens i)).1).run
      (exec opts env (d.received i t.text env) i) (d.tokenise i t.text) = some ((), d') := by
    rw [handleMessage, Prog.run_bind, henv]
    exact hrun
  have hopen : (d'.sessions i).closeAfterReply = false := by
    refine (message_stays hown h.live h.command ?_ hmsg).2
    rcases hconfig with rfl | rfl | rfl <;> decide
  exact ⟨d', (if_pos ⟨h.live, h.length⟩).trans (request_of_run henv hrun hopen), htold, haccepted⟩

end

/-- From any reachable state, a request for a value that `get_capabilities` publishes in the mode
that the receiver is in, spelled as it is published, of a session that may set the receiver: a
frequency of the range, a rate of the list (while the session has no stream), a gain of the tuner's
list (while the AGC is off), a voltage of the bias tee, or a correction. The request is carried out,
the hardware is told that value and nothing else, and the client is not sent an error if the device
does as it is told. -/
theorem published_values_taken (hgains : ∀ g ∈ opts.tunerGains, |g| < 2 ^ 31)
    (hreach : Reachable (step opts) (Daemon.init dev o contextPackets) d)
    (h : Entitled opts env i t c p d) :
    (c = .setFrequency → ∀ f, rtlFreqMin d.radio.samplingMode ≤ f →
      f ≤ rtlFreqMax d.radio.samplingMode → SpelledAs p "frequency_hz" (fmtUnsigned f) →
      Obtains opts env i t [.setCenterFreq f.toUInt32] d) ∧
    (c = .setSampleRate → (d.sessions i).state ≠ .streaming → (d.sessions i).state ≠ .streamOpen →
      ∀ r ∈ rtlRateList d.radio.samplingMode, SpelledAs p "sample_rate_sps" (fmtUnsigned r) →
      Obtains opts env i t [.setSampleRate r.toUInt32] d) ∧
    (c = .setControl → Names p .rfGain → d.radio.agcEnabled = false →
      ∀ g ∈ opts.tunerGains, SpelledAs p "value" (fmtTenths g) →
      Obtains opts env i t [.setTunerGain g, .setTunerGainMode true] d) ∧
    (c = .setControl → Names p .biasTee → ∀ on : Bool,
      SpelledAs p "value" (fmtTenths (if on then 10 * rtlBiasTeeVolts else 0)) →
      Obtains opts env i t [.setBiasTee on] d) ∧
    (c = .setControl → Names p .ppmCorrection → ∀ z : ℤ, -100 ≤ z → z ≤ 100 →
      SpelledAs p "value" (fmtInt z) → Obtains opts env i t [.setFreqCorrection z] d) := by
  refine ⟨?_, ?_, ?_, ?_, ?_⟩
  -- a frequency of the range is a word, and its digits fit the buffer
  · rintro rfl f hmin hmax hcarries
    have hlt : f < 2 ^ 32 := by
      have hband : rtlFreqMax d.radio.samplingMode < 2 ^ 32 := by
        cases d.radio.samplingMode <;> decide
      omega
    rw [← fmtInt_natCast, ← integerNumeral_text] at hcarries
    obtain ⟨vi, hvi, htext, -⟩ := h.carried hreach (integerNumeral_wellFormed f) hcarries 32
    rw [integerNumeral_text, fmtInt_natCast] at htext
    exact h.obtains hreach (.inl rfl) fun id => cmdSetFrequency_takes (h.permitted hreach) hvi htext
      (strtoull_integer (by omega) (by norm_num) (by omega)) hmin hmax
  -- a rate of the list likewise
  · rintro rfl hstreaming hopen r hlist hcarries
    have hlt : r < 2 ^ 32 := by
      have hrates : ∀ mode, ∀ r ∈ rtlRateList mode, r < 2 ^ 32 := by
        intro mode
        cases mode <;> decide
      exact hrates _ r hlist
    rw [← fmtInt_natCast, ← integerNumeral_text] at hcarries
    obtain ⟨vi, hvi, htext, -⟩ := h.carried hreach (integerNumeral_wellFormed r) hcarries 16
    rw [integerNumeral_text, fmtInt_natCast] at htext
    have hread : (strtoull ((fmtUnsigned r).take 15)).1 % 2 ^ 32 = r := by
      rw [strtoull_integer (by omega) (by norm_num) (by omega)]
      exact Nat.mod_eq_of_lt hlt
    exact h.obtains hreach (.inr (.inl rfl)) fun id => cmdSetSampleRate_takes (h.permitted hreach)
      ⟨hstreaming, hopen⟩ hvi htext hread hlist
  -- a gain is written with one decimal, and reading it back gives the same tenths
  · rintro rfl hnames hagc g hmem hcarries
    obtain ⟨ni, hni, hname⟩ := h.named hreach hnames
    rw [← tenthsNumeral_text] at hcarries
    obtain ⟨vi, hvi, htext, hnumeric⟩ := h.carried hreach (tenthsNumeral_wellFormed g) hcarries 64
    rw [tenthsNumeral_text] at htext
    obtain ⟨hlist, hround⟩ := gain_roundTrip hmem (hgains g hmem)
    refine h.obtains hreach (.inr (.inr rfl)) fun id =>
      cmdSetControl_branch (h.permitted hreach) hni hname hvi htext ?_
    rw [if_pos rfl]
    exact setRfGain_takes (d := d.tokenise i t.text) hnumeric hagc hlist hround
  -- the two voltages are written as constants
  · rintro rfl hnames on hcarries
    obtain ⟨ni, hni, hname⟩ := h.named hreach hnames
    rw [← tenthsNumeral_text] at hcarries
    obtain ⟨vi, hvi, htext, hnumeric⟩ := h.carried hreach (tenthsNumeral_wellFormed _) hcarries 64
    rw [tenthsNumeral_text] at htext
    refine h.obtains hreach (.inr (.inr rfl)) fun id =>
      cmdSetControl_branch (h.permitted hreach) hni hname hvi htext ?_
    rw [if_neg (by decide), if_neg (by decide), if_pos rfl]
    refine setBiasTee_takes hnumeric ?_
    cases on <;> decide +kernel
  -- a correction has at most three digits and a sign
  · rintro rfl hnames z hlow hhigh hcarries
    obtain ⟨ni, hni, hname⟩ := h.named hreach hnames
    rw [← integerNumeral_text] at hcarries
    obtain ⟨vi, hvi, htext, hnumeric⟩ := h.carried hreach (integerNumeral_wellFormed z) hcarries 64
    rw [integerNumeral_text] at htext
    refine h.obtains hreach (.inr (.inr rfl)) fun id =>
      cmdSetControl_branch (h.permitted hreach) hni hname hvi htext ?_
    rw [if_neg (by decide), if_neg (by decide), if_neg (by decide), if_pos rfl]
    exact setPpmCorrection_takes hnumeric hlow hhigh (strtol_integer hlow hhigh)

end

/-- The second gain of the list, sent back as it is published. -/
theorem published_values_taken_gain :
    ∃ p d, Reachable (step openAccess) started d ∧
      Entitled openAccess (quiet 0) 0 (gainText "10.0") .setControl p d ∧
      Obtains openAccess (quiet 0) 0 (gainText "10.0") [.setTunerGain 100, .setTunerGainMode true] d := by
  have hrun : dispatches (gainText "10.0") .setControl (fun p => (p.member (bytes "channel")).isNone &&
      (p.member (bytes "function")).any (fun f => f.value.raw = bytes "rx") &&
      (p.member (bytes "name")).any (fun y => y.value.raw = ControlName.rfGain.text) &&
      (p.member (bytes "value")).any fun x => x.value.type = .primitive && x.value.raw = fmtTenths 100)
      (fun d => !d.rxOwnedByOther 0 && !d.radio.agcEnabled && (d.sessions 0).live) = true := by
    decide +kernel
  obtain ⟨p, d, hreach, hdispatched, hparams, hchecks⟩ := dispatchedText_of_dispatches hrun
  simp only [Bool.and_eq_true, Option.any_eq_true, decide_eq_true_eq, Option.isNone_iff_eq_none,
    Bool.not_eq_true'] at hparams hchecks
  obtain ⟨⟨⟨hchannel, hf⟩, hy⟩, x, hx, htype, hraw⟩ := hparams
  obtain ⟨⟨hfree, hagc⟩, hlive⟩ := hchecks
  have hentitled : Entitled openAccess (quiet 0) 0 (gainText "10.0") .setControl p d :=
    ⟨hdispatched, hlive, by decide +kernel, hf, hchannel, hfree⟩
  exact ⟨p, d, hreach, hentitled,
    (published_values_taken (by decide) hreach hentitled).2.2.1 rfl hy hagc 100 (by decide)
      ⟨x, hx, eq_primitive htype hraw⟩⟩

end SlcRtld.Property
