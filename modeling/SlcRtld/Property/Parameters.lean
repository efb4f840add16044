import SlcRtld.Control.Hardware
import SlcRtld.Property.TreeLookup
import SlcRtld.Libc.Convert

/-!
# What the receiver is told

The configuration commands copy a parameter's text into a buffer, convert it with a function of the
C library and check the result; they never look at the parameter as a JSON number. `MayCall` says
which calls a request can lead to, and from which member of the message their arguments come. For a
request that is a JSON text the members are those of its syntax tree, and the arguments can be
compared with the numbers that stand there (`frequency_and_rate_taken`, `control_values_taken`).
-/

namespace SlcRtld.Property

open Control Libc Json Rtl Effect
open Effect.Prog (perform Post)

/-! ## Calls -/

/-- The calls that have set hardware, the last one first. -/
def calls (d : Daemon) : List HwCall := d.trace.filterMap Obs.call

section
variable {d : Daemon} {i : SessId}

/-- The calls among some observations. -/
theorem calls_log (os : List Obs) : calls (d.log os) = os.filterMap Obs.call ++ calls d :=
  List.filterMap_append

/-- A frame is no call. -/
@[simp] theorem calls_send (f : Frame) : calls (d.send i f) = calls d := by
  unfold Daemon.send
  split_ifs <;> rfl

/-- An event is no call. -/
@[simp] theorem calls_broadcast (skip : Option SessId) (e : Event) :
    calls (d.broadcast skip e) = calls d := by
  unfold Daemon.broadcast
  have hnone : ((d.listeners skip).reverse.map fun j => Obs.sent j (.event e)).filterMap Obs.call = [] := by
    rw [List.filterMap_map, List.filterMap_eq_nil_iff]
    exact fun _ _ => rfl
  rw [calls_log, hnone, List.nil_append]

/-- The packets are no calls. -/
@[simp] theorem calls_vitaApply (o : Vita.VitaOp) : calls (d.vitaApply o) = calls d := by
  unfold Daemon.vitaApply
  have hnone : ((d.vita.apply o).2.reverse.map Obs.datagram).filterMap Obs.call = [] := by
    rw [List.filterMap_map, List.filterMap_eq_nil_iff]
    exact fun _ _ => rfl
  rw [calls_log, hnone, List.nil_append]
  rfl

/-- A setter makes the calls that it makes on the receiver, and these come on top of the trace. -/
theorem calls_set {β : Type} (dev : Device) (x : Setting β) :
    calls (d.set dev x).2 = (x.apply dev d.radio).2.2 ++ calls d := by
  unfold Daemon.set
  have hcalls : ((x.apply dev d.radio).2.2.map Obs.hardware).filterMap Obs.call =
      (x.apply dev d.radio).2.2 := by
    rw [List.filterMap_map]
    exact List.filterMap_some
  rw [calls_log, hcalls]
  rfl

end

/-! ## Where the arguments come from -/

/-- In a step the client of a session has been sent a good reply. -/
def AnswersOk (i : SessId) (d d' : Daemon) : Prop := ∃ id r, Observed d d' (.sent i (.ok id r))

/-- An observation that is not a good reply to a session. -/
def NotOk (i : SessId) (o : Obs) : Prop := ∀ id r, o ≠ .sent i (.ok id r)

/-- The calls that a configuration request can lead to, and where their arguments come from. -/
inductive MayCall (opts : Options) (m : Msg) (r : Radio) : Command → List HwCall → Prop where
  | frequency (f : ℕ) (hasked : AsksFrequency m f) (hmin : rtlFreqMin r.samplingMode ≤ f)
      (hmax : f ≤ rtlFreqMax r.samplingMode) :
      MayCall opts m r .setFrequency [.setCenterFreq f.toUInt32]
  | sampleRate (rate : ℕ) (hasked : AsksRate m rate) (hlist : rate ∈ rtlRateList r.samplingMode) :
      MayCall opts m r .setSampleRate [.setSampleRate rate.toUInt32]
  | gain (val : Double) (hasked : AsksControl m .rfGain fun text => strtod text = val)
      (hagc : r.agcEnabled = false) (hlist : onGainList opts val = true) :
      MayCall opts m r .setControl [.setTunerGain (val.mulPos 10).roundToInt, .setTunerGainMode true]
  | biasTee (en : Bool) (hasked : AsksBiasTee m en) : MayCall opts m r .setControl [.setBiasTee en]
  | ppm (value : ℤ) (hasked : AsksControl m .ppmCorrection fun text => toInt32 (strtol text) = value)
      (hrange : -100 ≤ value ∧ value ≤ 100) : MayCall opts m r .setControl [.setFreqCorrection value]
  | other (cs : List HwCall) (c : ControlName) (hname : NamesControl m c)
      (hc : c = .agc ∨ c = .directSampling) : MayCall opts m r .setControl cs

/-- What a request of a command tells the hardware: calls that it may lead to, or nothing, and then
it has not succeeded, or asks for a control that is not set. -/
def Tells (opts : Options) (m : Msg) (i : SessId) (c : Command) (d d' : Daemon) : Prop :=
  (calls d' = calls d ∧ (AnswersOk i d d' → c = .setControl ∧
    (NamesControl m .directSampling ∨ NamesControl m .rfGain ∧ d.radio.agcEnabled = true))) ∨
  ∃ cs, calls d' = cs ++ calls d ∧ MayCall opts m d.radio c cs

section
variable {opts : Options} {env : Env} {m : Msg} {i : SessId} {d d' : Daemon} {c : Command} {id : CStr}

/-- Events and calls are no replies. -/
theorem chatter_notOk : Chatter (NotOk i) where
  hardware _ _ _ := Obs.noConfusion
  datagram _ _ _ := Obs.noConfusion
  event _ _ _ _ h := by cases h

/-- Without a good reply the request has not succeeded. -/
theorem not_answersOk (h : Emits (NotOk i) d d') : ¬ AnswersOk i d d' := by
  rintro ⟨id, r, ho⟩
  exact h.observed ho id r rfl

/-- An error is not a good reply. -/
theorem notOk_error {code : ErrorCode} {text : CStr} : NotOk i (.sent i (.error id code text)) := by
  rintro _ _ ⟨⟩

/-- A request that sets the receiver makes the calls of its setting. -/
theorem config_tells (h : ConfigOutcome opts env m i d c d') :
    ∃ cs, calls d' = cs ++ calls d ∧ MayCall opts m d.radio c cs := by
  have hmore : ∃ cs, calls d' = cs ++ calls d := by
    obtain ⟨new, hnew, -⟩ := h.outputs
    refine ⟨new.filterMap Obs.call, ?_⟩
    unfold calls
    rw [hnew, List.filterMap_append]
  cases h with
  | frequency f id hmin hmax _ hasked =>
    refine ⟨_, ?_, .frequency f hasked hmin hmax⟩
    rw [calls_broadcast, calls_send, calls_set]
    rfl
  | frequencyFailed f id message _ hasked hmin hmax =>
    refine ⟨_, ?_, .frequency f hasked hmin hmax⟩
    rw [calls_send, calls_set]
    rfl
  | sampleRate rate id _ _ hlist _ hasked =>
    refine ⟨_, ?_, .sampleRate rate hasked hlist⟩
    rw [calls_broadcast, calls_send, calls_set]
    rfl
  | sampleRateFailed rate id message hlist _ hasked =>
    refine ⟨_, ?_, .sampleRate rate hasked hlist⟩
    rw [calls_send, calls_set]
    rfl
  | rfGain val id hagc hlist d₁ hd₁ hasked =>
    subst hd₁
    refine ⟨_, ?_, .gain val hasked hagc hlist⟩
    rw [calls_broadcast, calls_vitaApply, calls_send, calls_set]
    rfl
  | biasTee en id d₁ hd₁ hasked =>
    have hset := calls_set (d := d) env.device (.biasTee en)
    rw [hd₁] at hset
    refine ⟨_, ?_, .biasTee en hasked⟩
    rw [calls_broadcast, calls_send, hset]
    rfl
  | biasTeeFailed en id message _ hasked =>
    refine ⟨_, ?_, .biasTee en hasked⟩
    rw [calls_send, calls_set]
    rfl
  | ppm value id d₁ hd₁ hasked hrange =>
    subst hd₁
    refine ⟨_, ?_, .ppm value hasked hrange⟩
    rw [calls_broadcast, calls_send, calls_set]
    rfl
  -- the other two may make any calls
  | agc _ _ _ _ hasked =>
    obtain ⟨cs, hcs⟩ := hmore
    exact ⟨cs, hcs, .other cs _ hasked (.inl rfl)⟩
  | directSampling _ _ _ _ _ _ hasked | directSamplingFailed _ _ _ _ hasked =>
    obtain ⟨cs, hcs⟩ := hmore
    exact ⟨cs, hcs, .other cs _ hasked (.inr rfl)⟩

/-- A message for the receiver tells the hardware what its command may tell it. -/
theorem outcome_tells (h : Outcome opts env m i d (some c) d')
    (hconfig : c = .setFrequency ∨ c = .setSampleRate ∨ c = .setControl) : Tells opts m i c d d' := by
  cases h with
  | answered _ f _ hun =>
    refine .inl ⟨calls_send f, fun hok => ?_⟩
    cases hun with
    | error => exact absurd hok (not_answersOk (Emits.send notOk_error d))
    | reports _ hc => rcases hconfig with rfl | rfl | rfl <;> exact absurd hc (by decide)
    | automatic _ hname hagc => exact ⟨rfl, .inr ⟨hname, hagc⟩⟩
    | sameMode _ hname => exact ⟨rfl, .inl hname⟩
  | config _ _ hc => exact .inr (config_tells hc)
  | status => rcases hconfig with hc | hc | hc <;> cases hc
  | auth ha => rcases hconfig with rfl | rfl | rfl <;> cases ha
  | stream _ hs => rcases hconfig with rfl | rfl | rfl <;> cases hs

end

/-! ## Numbers -/

section
variable {opts : Options} {n : Numeral}

/-- The check of `cmd_set_control` passes numbers near a gain of the list only. -/
theorem onGainList_near (hgains : ∀ g ∈ opts.tunerGains, |g| < 2 ^ 31) {val : Double}
    (h : onGainList opts val = true) :
    ∃ g ∈ opts.tunerGains, ∃ v : ℚ, val = .finite v ∧ |v - g / 10| < 51 / 1000 := by
  obtain ⟨g, hg, hnear⟩ := List.any_eq_true.mp h
  have hbound : |(g : ℚ) / 10| ≤ 2 ^ 40 := by
    have : |(g : ℚ)| < 2 ^ 31 := by exact_mod_cast hgains g hg
    rw [abs_div]
    norm_num
    linarith
  obtain ⟨y, hy, hyerror⟩ := Double.ofRat_finite hbound
  rw [hy] at hnear
  refine ⟨g, hg, ?_⟩
  cases val with
  -- the difference is a double below the double nearest to a twentieth
  | finite v =>
    have hsub : (Double.finite v).sub (.finite y) = Double.ofRat (v - y) := rfl
    rw [hsub] at hnear
    cases hz : Double.ofRat (v - y) with
    | finite z =>
      rw [hz] at hnear
      have hlt : |z| < Double.roundBits 53 (-1074) (1 / 20) := of_decide_eq_true hnear
      have hzerror := Double.ofRat_error hz
      have htwentieth := Double.roundBits_error (1 / 20)
      have hsize : |v - y| ≤ |z - (v - y)| + |z| := by
        rw [abs_sub_comm z]
        exact (abs_add_le (v - y - z) z).trans_eq' (by rw [sub_add_cancel])
      have htriangle : |v - g / 10| ≤ |v - y| + |y - g / 10| := abs_sub_le ..
      rw [abs_of_pos (by norm_num : (0 : ℚ) < 1 / 20)] at htwentieth
      have hrounded := (abs_le.mp htwentieth).2
      norm_num at hrounded hzerror hyerror
      refine ⟨v, rfl, ?_⟩
      linarith
    -- neither an infinity nor a NaN is near
    | inf n =>
      rw [hz] at hnear
      cases hnear
    | nan =>
      rw [hz] at hnear
      cases hnear
  | inf n => cases hnear
  | nan => cases hnear

/-- Where the copy of a number is converted to a number near a listed gain, and the number is that
gain, the copy has left out only zeros. -/
theorem decimalValue_gain (h : n.WellFormed) {g : ℤ} (hg : |g| < 2 ^ 31)
    (hnear : |decimalValue (n.text.take 63) - g / 10| < 3 / 50) (hvalue : n.value = g / 10) :
    decimalValue (n.text.take 63) = g / 10 := by
  have hsign := signText_length n
  have hmagnitude : n.mantissa * 10 ^ n.power = (g.natAbs : ℚ) / 10 := by
    have habs : |n.value| = n.mantissa * 10 ^ n.power := by
      have hnonneg : 0 ≤ n.mantissa * 10 ^ n.power := mul_nonneg n.mantissa_nonneg (by positivity)
      unfold Numeral.value Numeral.signed
      split_ifs
      · rw [abs_neg, abs_of_nonneg hnonneg]
      · exact abs_of_nonneg hnonneg
    rw [← habs, hvalue, abs_div, Nat.cast_natAbs, Int.cast_abs]
    norm_num
  have hsigned : n.signed ((g.natAbs : ℚ) / 10) = g / 10 := by
    rw [← hmagnitude, ← hvalue]
    rfl
  rw [decimalValue_take h (by norm_num), ← hsigned] at hnear ⊢
  rw [abs_signed_sub] at hnear
  refine congrArg n.signed (readMagnitude_tenths h ?_ hmagnitude ?_ hnear)
  · split_ifs at hsign <;> omega
  · have hlt : (g.natAbs : ℚ) < 2 ^ 31 := by
      rw [Nat.cast_natAbs]
      exact_mod_cast hg
    rw [div_lt_iff₀ (by norm_num)]
    exact hlt.trans (by norm_num)

/-- The gain that the tuner is told for a JSON number is within a tenth of a dB of a listed one,
which is the gain asked for or near it; and if it is the gain asked for, the tuner is told just
that. -/
theorem gain_told (h : n.WellFormed) (hgains : ∀ g ∈ opts.tunerGains, |g| < 2 ^ 31)
    (hlist : onGainList opts (strtod (n.text.take 63)) = true) :
    ∃ g ∈ opts.tunerGains, |((strtod (n.text.take 63)).mulPos 10).roundToInt - g| ≤ 1 ∧
      (n.value = g / 10 → ((strtod (n.text.take 63)).mulPos 10).roundToInt = g) ∧
      (n.text.length ≤ 63 → |n.value - g / 10| < 13 / 250) := by
  -- the text is read as a double near a gain of the list, then multiplied by ten and rounded
  obtain ⟨g, hg, v, hv, hnear⟩ := onGainList_near hgains hlist
  have hbound : |(g : ℚ)| < 2 ^ 31 := by exact_mod_cast hgains g hg
  rw [hv]
  rw [strtod_take h (by norm_num)] at hv
  have herror := Double.ofRat_error hv
  set read := decimalValue (n.text.take 63) with hread
  obtain ⟨hlow, hhigh⟩ := abs_lt.mp hnear
  obtain ⟨hglow, hghigh⟩ := abs_lt.mp hbound
  have hvbound : |v * 10| ≤ 2 ^ 40 := by
    rw [abs_le]
    constructor <;> linarith
  obtain ⟨u, hu, huerror⟩ := Double.ofRat_finite hvbound
  have hmul : (Double.finite v).mulPos 10 = .finite u := hu
  rw [hmul]
  -- the double is near the decimal that has been read
  have hread_near : |v - read| ≤ 1 / 1000 := by
    have hsize : |read| ≤ |v - read| + |v| := by
      rw [abs_sub_comm v]
      exact (abs_add_le (read - v) v).trans_eq' (by rw [sub_add_cancel])
    have hvsize : |v| ≤ 2 ^ 31 := by
      rw [abs_le]
      constructor <;> linarith
    norm_num at herror
    linarith
  obtain ⟨hulow, huhigh⟩ := abs_le.mp huerror
  obtain ⟨hrlow, hrhigh⟩ := abs_le.mp hread_near
  refine ⟨g, hg, ?_, fun hvalue => ?_, fun hlen => ?_⟩
  · obtain ⟨hwlow, hwhigh⟩ := abs_le.mp (Double.roundToInt_error u)
    have hlt : |((Double.finite u).roundToInt - g : ℚ)| < 2 := by
      norm_num at hulow huhigh
      rw [abs_lt]
      constructor <;> linarith
    have hint : |(Double.finite u).roundToInt - g| < 2 := by exact_mod_cast hlt
    omega
  · have hexact : read = g / 10 := by
      refine decimalValue_gain h (hgains g hg) ?_ hvalue
      rw [← hread, abs_lt]
      constructor <;> linarith
    refine Double.roundToInt_eq ?_
    rw [hexact] at hrlow hrhigh
    norm_num at hulow huhigh
    rw [abs_lt]
    constructor <;> linarith
  -- a text that is not cut has been read as a whole
  · have hall : read = n.value := by
      rw [hread, List.take_of_length_le hlen, decimalValue_text h]
    rw [← hall, abs_lt]
    constructor <;> linarith

/-- The voltage that is set for a JSON number is the number asked for or next to it. -/
theorem volts_near (h : n.WellFormed) {volts : ℕ} (hlist : volts = 0 ∨ volts = rtlBiasTeeVolts)
    (hread : strtod (n.text.take 63) = .finite volts) (hlen : n.text.length ≤ 63) :
    |n.value - volts| < 1 / 10 ^ 15 := by
  rw [strtod_take h (by norm_num), List.take_of_length_le hlen, decimalValue_text h] at hread
  have herror := Double.ofRat_error hread
  have hvolts : |(volts : ℚ)| ≤ 5 := by
    rcases hlist with rfl | rfl <;> norm_num [rtlBiasTeeVolts]
  have hsize : |n.value| ≤ |volts - n.value| + |(volts : ℚ)| := by
    rw [abs_sub_comm]
    exact (abs_add_le (n.value - volts) volts).trans_eq' (by rw [sub_add_cancel])
  rw [abs_sub_comm]
  norm_num at herror ⊢
  linarith

end

/-! ## Requests that are JSON texts -/

/-- A frame that is a JSON text, with an object of parameters, and that is dispatched as a
command. -/
structure DispatchedText (opts : Options) (env : Env) (i : SessId) (t : Document) (c : Command) (p : Node)
    (d : Daemon) : Prop where
  wellFormed : t.wellFormed = true
  tokens : t.value.count ≤ maxJsonTokens
  params : t.root.member (bytes "params") = some p
  object : p.value.type = .object
  command : d.command opts i t.text env = some (some c)

/-- Such a frame has been carried out. -/
structure Requested (opts : Options) (env : Env) (i : SessId) (t : Document) (c : Command) (p : Node)
    (d d' : Daemon) : Prop extends DispatchedText opts env i t c p d where
  carriedOut : step opts d (.request i t.text env) = some d'

section
variable {opts : Options} {env : Env} {i : SessId} {t : Document} {c : Command} {p : Node}
  {d d' : Daemon} {dev : Device} {o : Startup} {contextPackets : Bool}

/-- The tokens of the message are those of the text. -/
theorem DispatchedText.has (h : DispatchedText opts env i t c p d)
    (hreach : Reachable (step opts) (Daemon.init dev o contextPackets) d)
    (hlive : (d.sessions i).live = true) (hlen : t.text.length ≤ maxMsgBytes) :
    (d.received i t.text env).Has t.root :=
  received_has h.wellFormed (tokens_length hreach hlive) h.tokens hlen

/-- What is found in an object is one of its members. -/
theorem found_member {m : Msg} {x : Node} {key : CStr} {vi : ℕ} (hx : m.Has x)
    (hobject : x.value.type = .object) (hwell : x.value.wellFormed = true)
    (hfind : m.tokFindKey x.index key = some (some vi)) :
    ∃ y, x.member key = some y ∧ vi = y.index ∧ m.Has y ∧ y.value.wellFormed = true := by
  rw [hx.tokFindKey hobject] at hfind
  obtain ⟨y, hy, rfl⟩ := Option.map_eq_some_iff.mp (Option.some.inj hfind)
  exact ⟨y, hy, rfl, hx.of_member hy, Node.member_wellFormed hwell hy⟩

section
variable (hreach : Reachable (step opts) (Daemon.init dev o contextPackets) d)
  (h : Requested opts env i t c p d d')
include hreach h

/-- A request that is a JSON text is one that the daemon has as a node. -/
theorem Requested.has : (d.received i t.text env).Has t.root := by
  obtain ⟨⟨hlive, -, hlen⟩, -⟩ := Option.ite_none_right_eq_some.mp h.carriedOut
  exact h.toDispatchedText.has hreach hlive hlen

/-- What the message does, the request does. -/
theorem Requested.outcome (hc : c ≠ .hello ∧ c ≠ .authenticate) :
    Outcome opts env (d.received i t.text env) i (d.tokenise i t.text) (some c) d' := by
  obtain ⟨⟨hlive, -⟩, hdone⟩ := Option.ite_none_right_eq_some.mp h.carriedOut
  have hown : Owned d := hreach.invariant (owned_init dev o contextPackets) fun _ _ _ h hs => h.next hs
  obtain ⟨d₁, hmsg, rfl⟩ := request_run hdone
  obtain ⟨hout, hopen⟩ := message_stays hown hlive h.command hc hmsg
  rwa [hopen, if_neg Bool.false_ne_true]

/-- The hardware is told what the command may tell it. -/
theorem Requested.tells (hconfig : c = .setFrequency ∨ c = .setSampleRate ∨ c = .setControl) :
    Tells opts (d.received i t.text env) i c d d' := by
  have hc : c ≠ .hello ∧ c ≠ .authenticate := by
    rcases hconfig with rfl | rfl | rfl <;> decide
  exact outcome_tells (d := d.tokenise i t.text) (h.outcome hreach hc) hconfig

/-- A parameter that is found is a member of the object. -/
theorem Requested.param {key : String} {vi : ℕ} (hparam : HasParam (d.received i t.text env) key vi) :
    ∃ x, p.member (bytes key) = some x ∧ vi = x.index ∧ (d.received i t.text env).Has x ∧
      x.value.wellFormed = true := by
  have hroot := Node.object_of_member h.params
  obtain ⟨pi, hpi, hvi⟩ := hparam
  have hhas := h.has hreach
  have hfind : (d.received i t.text env).tokFindKey 0 (bytes "params") = _ :=
    hhas.tokFindKey hroot (bytes "params")
  rw [hfind, h.params] at hpi
  obtain rfl : p.index = pi := Option.some.inj (Option.some.inj hpi)
  have hwell := Document.root_wellFormed h.wellFormed
  exact found_member (hhas.of_member h.params) h.object (Node.member_wellFormed hwell h.params) hvi

end

/-- The text of a number is copied as it is, up to the end of the buffer. -/
theorem tokStr_numeral {m : Msg} {x : Node} {n : Numeral} {cap : ℕ} {text : CStr} (hx : m.Has x)
    (hn : n.WellFormed) (hvalue : x.value = .primitive n.text) (htext : m.tokStr x.index cap = some text) :
    text = n.text.take (cap - 1) := by
  have hnul : 0 ∉ n.text.take (cap - 1) := fun hmem =>
    isNumber_no_nul ((Numeral.isNumber_iff _).mpr ⟨n, hn, rfl⟩) (List.mem_of_mem_take hmem)
  rw [hx.tokStr, hvalue] at htext
  rw [← Option.some.inj htext]
  exact cstr_of_no_nul hnul

/-- A primitive is known by its text. -/
theorem eq_primitive {v : Value} {s : Bytes} (htype : v.type = .primitive) (hraw : v.raw = s) :
    v = .primitive s := by
  cases v with
  | primitive => exact congrArg Value.primitive hraw
  | _ => cases htype

/-- What the numeric controls take for a number is one, or `null`. -/
theorem numeric_value {m : Msg} {x : Node} (hx : m.Has x) (hwell : x.value.wellFormed = true)
    (hnumeric : LooksNumeric m x.index) :
    x.value = .primitive (bytes "null") ∨ ∃ n : Numeral, n.WellFormed ∧ x.value = .primitive n.text := by
  obtain ⟨htype, htrue, hfalse⟩ := hnumeric
  rw [hx.tokType] at htype
  rw [hx.tokIsPrimitive] at htrue hfalse
  cases hv : x.value with
  | primitive s =>
    rw [hv] at hwell htrue hfalse
    rw [Value.wellFormed, Bool.or_eq_true] at hwell
    have hother : s ≠ bytes "true" ∧ s ≠ bytes "false" := by
      constructor
      · rintro rfl
        exact absurd (Option.some.inj htrue) (by decide)
      · rintro rfl
        exact absurd (Option.some.inj hfalse) (by decide)
    rcases hwell with hnumber | hname
    · obtain ⟨n, hn, rfl⟩ := (Numeral.isNumber_iff s).mp hnumber
      exact .inr ⟨n, hn, rfl⟩
    · left
      simp only [literalNames, List.contains_eq_mem, List.mem_cons, List.not_mem_nil, or_false,
        decide_eq_true_eq] at hname
      rcases hname with rfl | rfl | rfl
      · exact absurd rfl hother.2
      · rfl
      · exact absurd rfl hother.1
  | _ =>
    rw [hv] at htype
    cases htype

/-- A node that the numeric controls take for a number: `null`, for which zero is read, or a
number. -/
def Numeric (x : Node) (zero : Prop) (number : Numeral → Prop) : Prop :=
  x.value = .primitive (bytes "null") ∧ zero ∨
    ∃ n : Numeral, n.WellFormed ∧ x.value = .primitive n.text ∧ number n

/-- A node that is taken for a number, whichever way it is read as one. -/
structure Taken (x : Node) (zero : Prop) (number : Numeral → Prop) : Prop where
  numeric : Numeric x zero number
  each : ∀ n : Numeral, n.WellFormed → x.value = .primitive n.text → number n

/-- What is set by a control's value comes from a node that is taken for a number. -/
theorem Requested.numeric {vi : ℕ} {text : CStr} {zero : Prop} {number : Numeral → Prop}
    (hreach : Reachable (step opts) (Daemon.init dev o contextPackets) d)
    (h : Requested opts env i t c p d d') (hvalue : HasValue (d.received i t.text env) vi text)
    (hnumeric : LooksNumeric (d.received i t.text env) vi) (hzero : text = bytes "null" → zero)
    (hnumber : ∀ n : Numeral, n.WellFormed → text = n.text.take 63 → number n) :
    ∃ x, p.member (bytes "value") = some x ∧ Taken x zero number := by
  obtain ⟨x, hx, rfl, hhas, hwell⟩ := h.param hreach hvalue.1
  have heach (n : Numeral) (hn : n.WellFormed) (hprimitive : x.value = .primitive n.text) : number n :=
    hnumber n hn (tokStr_numeral hhas hn hprimitive hvalue.2)
  refine ⟨x, hx, ?_, heach⟩
  rcases numeric_value hhas hwell hnumeric with hnull | ⟨n, hn, hprimitive⟩
  · refine .inl ⟨hnull, hzero ?_⟩
    have htext := hvalue.2
    rw [hhas.tokStr, hnull] at htext
    rw [← Option.some.inj htext]
    decide
  · exact .inr ⟨n, hn, hprimitive, heach n hn hprimitive⟩

/-- What a request for a frequency tells the tuner. -/
theorem Requested.frequency (hreach : Reachable (step opts) (Daemon.init dev o contextPackets) d)
    (h : Requested opts env i t .setFrequency p d d') :
    (calls d' = calls d ∧ ¬ AnswersOk i d d') ∨
      ∃ x w, p.member (bytes "frequency_hz") = some x ∧ calls d' = .setCenterFreq w :: calls d ∧
        rtlFreqMin d.radio.samplingMode ≤ w.toNat ∧ w.toNat ≤ rtlFreqMax d.radio.samplingMode ∧
        ∀ n : Numeral, n.WellFormed → x.value = .primitive n.text →
          (n.value = w.toNat ↔ n.neg = false ∧ n.Whole) := by
  obtain ⟨hcalls, hok⟩ | ⟨cs, hcalls, hmay⟩ := h.tells hreach (.inl rfl)
  · exact .inl ⟨hcalls, fun h => nomatch (hok h).1⟩
  cases hmay with
  | frequency f hasked hmin hmax =>
    obtain ⟨vi, text, hparam, htext, hread, hpos⟩ := hasked
    obtain ⟨x, hx, rfl, hhas, -⟩ := h.param hreach hparam
    -- the range of every mode is below the word that the device is given
    have hlt : f < 2 ^ 32 := by
      have hband : rtlFreqMax d.radio.samplingMode < 2 ^ 32 := by
        cases d.radio.samplingMode <;> decide
      omega
    have hw : f.toUInt32.toNat = f := UInt32.toNat_ofNat_of_lt hlt
    refine .inr ⟨x, f.toUInt32, hx, hcalls, ?_⟩
    rw [hw]
    refine ⟨hmin, hmax, fun n hn hvalue => ?_⟩
    rw [tokStr_numeral hhas hn hvalue htext] at hread
    exact strtoull_exact hn (by norm_num) (congrArg Prod.fst hread) hpos
      (lt_trans hlt (by norm_num)) (lt_trans hlt (by norm_num))

/-- What a request for a rate tells the tuner. -/
theorem Requested.sampleRate (hreach : Reachable (step opts) (Daemon.init dev o contextPackets) d)
    (h : Requested opts env i t .setSampleRate p d d') :
    (calls d' = calls d ∧ ¬ AnswersOk i d d') ∨
      ∃ x w, p.member (bytes "sample_rate_sps") = some x ∧ calls d' = .setSampleRate w :: calls d ∧
        w.toNat ∈ rtlRateList d.radio.samplingMode ∧
        ∀ n : Numeral, n.WellFormed → x.value = .primitive n.text →
          (n.value = w.toNat ↔ n.neg = false ∧ n.Whole ∧ n.integer < 2 ^ 32) := by
  obtain ⟨hcalls, hok⟩ | ⟨cs, hcalls, hmay⟩ := h.tells hreach (.inr (.inl rfl))
  · exact .inl ⟨hcalls, fun h => nomatch (hok h).1⟩
  cases hmay with
  | sampleRate rate hasked hlist =>
    obtain ⟨vi, text, hparam, htext, rfl⟩ := hasked
    obtain ⟨x, hx, rfl, hhas, -⟩ := h.param hreach hparam
    have hw : ((strtoull text).1 % 2 ^ 32).toUInt32.toNat = (strtoull text).1 % 2 ^ 32 :=
      UInt32.toNat_ofNat_of_lt (Nat.mod_lt _ (by norm_num))
    refine .inr ⟨x, _, hx, hcalls, ?_⟩
    rw [hw]
    refine ⟨hlist, fun n hn hvalue => ?_⟩
    -- no rate of the lists is zero
    have hpos : 0 < (strtoull text).1 % 2 ^ 32 := by
      have hrates : ∀ mode, ∀ r ∈ rtlRateList mode, 0 < r := by
        intro mode
        cases mode <;> decide
      exact hrates _ _ hlist
    exact strtoull_rate hn (by rw [tokStr_numeral hhas hn hvalue htext]) hpos

section
variable (hreach : Reachable (step opts) (Daemon.init dev o contextPackets) d)
  (h : Requested opts env i t .setControl p d d') {y : Node} (hy : p.member (bytes "name") = some y)
include hreach h hy

/-- The name of the control that a request is about. -/
theorem Requested.control {x : ControlName} (hnames : NamesControl (d.received i t.text env) x) :
    cstr (y.value.raw.take 31) = x.text := by
  obtain ⟨ni, hparam, hname⟩ := hnames
  obtain ⟨y', hy', rfl, hhas, -⟩ := h.param hreach hparam
  obtain rfl : y' = y := Option.some.inj (hy'.symm.trans hy)
  rw [hhas.tokStr] at hname
  exact Option.some.inj hname

/-- A request names one control, so the calls of another one cannot come from it. -/
theorem Requested.names {x x' : ControlName} (hx : NamesControl (d.received i t.text env) x)
    (hx' : cstr (y.value.raw.take 31) = x'.text) : x = x' := by
  rw [h.control hreach hy hx] at hx'
  revert hx'
  cases x <;> cases x' <;> decide

/-- What a request for a gain tells the tuner: the tenths that the number rounds to. -/
theorem Requested.gain (hgains : ∀ g ∈ opts.tunerGains, |g| < 2 ^ 31)
    (hcontrol : cstr (y.value.raw.take 31) = ControlName.rfGain.text) :
    (calls d' = calls d ∧ (AnswersOk i d d' → d.radio.agcEnabled = true)) ∨
      ∃ x w, p.member (bytes "value") = some x ∧
        calls d' = [.setTunerGain w, .setTunerGainMode true] ++ calls d ∧
        d.radio.agcEnabled = false ∧
        Taken x (w = 0) fun n => ∃ g ∈ opts.tunerGains, |w - g| ≤ 1 ∧ (n.value = g / 10 → w = g) ∧
          (n.text.length ≤ 63 → |n.value - g / 10| < 13 / 250) := by
  obtain ⟨hcalls, hok⟩ | ⟨cs, hcalls, hmay⟩ := h.tells hreach (.inr (.inr rfl))
  · refine .inl ⟨hcalls, fun hans => ?_⟩
    obtain ⟨-, hname | ⟨-, hagc⟩⟩ := hok hans
    · cases h.names hreach hy hname hcontrol
    · exact hagc
  cases hmay with
  | gain val hasked hagc hlist =>
    obtain ⟨-, vi, text, hvalue, hnumeric, rfl⟩ := hasked
    have hzero : text = bytes "null" → ((strtod text).mulPos 10).roundToInt = 0 := by
      rintro rfl
      decide +kernel
    have hnumber : ∀ n : Numeral, n.WellFormed → text = n.text.take 63 →
        ∃ g ∈ opts.tunerGains, |((strtod text).mulPos 10).roundToInt - g| ≤ 1 ∧
          (n.value = g / 10 → ((strtod text).mulPos 10).roundToInt = g) ∧
          (n.text.length ≤ 63 → |n.value - g / 10| < 13 / 250) := by
      rintro n hn rfl
      exact gain_told hn hgains hlist
    obtain ⟨x, hx, hnum⟩ := h.numeric hreach hvalue hnumeric hzero hnumber
    exact .inr ⟨x, _, hx, hcalls, hagc, hnum⟩
  | biasTee _ hn | ppm _ hn => cases h.names hreach hy hn.1 hcontrol
  | other _ _ hn hc => exact absurd hc (by rw [h.names hreach hy hn hcontrol]; decide)

/-- What a request for the antenna's supply tells the receiver: only the two published voltages
pass. -/
theorem Requested.biasTee (hcontrol : cstr (y.value.raw.take 31) = ControlName.biasTee.text) :
    (calls d' = calls d ∧ ¬ AnswersOk i d d') ∨
      ∃ x volts, p.member (bytes "value") = some x ∧ (volts = 0 ∨ volts = rtlBiasTeeVolts) ∧
        calls d' = .setBiasTee (volts = rtlBiasTeeVolts) :: calls d ∧
        Taken x (volts = 0) fun n => n.text.length ≤ 63 → |n.value - volts| < 1 / 10 ^ 15 := by
  obtain ⟨hcalls, hok⟩ | ⟨cs, hcalls, hmay⟩ := h.tells hreach (.inr (.inr rfl))
  · refine .inl ⟨hcalls, fun hans => ?_⟩
    obtain ⟨-, hname | ⟨hname, -⟩⟩ := hok hans <;> cases h.names hreach hy hname hcontrol
  cases hmay with
  | biasTee en hasked =>
    obtain ⟨-, vi, text, hvalue, hnumeric, hread⟩ := hasked
    generalize hvolts : (if en then rtlBiasTeeVolts else 0 : ℕ) = volts at hread
    have hlist : volts = 0 ∨ volts = rtlBiasTeeVolts := by
      rw [← hvolts]
      cases en <;> decide
    have hen : decide (volts = rtlBiasTeeVolts) = en := by
      rw [← hvolts]
      cases en <;> decide
    have hzero : text = bytes "null" → volts = 0 := by
      rintro rfl
      refine hlist.resolve_right ?_
      rintro rfl
      exact absurd hread (by decide +kernel)
    have hnumber : ∀ n : Numeral, n.WellFormed → text = n.text.take 63 →
        n.text.length ≤ 63 → |n.value - volts| < 1 / 10 ^ 15 := by
      rintro n hn rfl
      exact volts_near hn hlist hread
    obtain ⟨x, hx, hnum⟩ := h.numeric hreach hvalue hnumeric hzero hnumber
    exact .inr ⟨x, volts, hx, hlist, hen ▸ hcalls, hnum⟩
  | gain _ hn | ppm _ hn => cases h.names hreach hy hn.1 hcontrol
  | other _ _ hn hc => exact absurd hc (by rw [h.names hreach hy hn hcontrol]; decide)

/-- What a request for a correction tells the tuner: `strtol` stops at a fraction, so only whole
numbers are told as they are. -/
theorem Requested.ppm (hcontrol : cstr (y.value.raw.take 31) = ControlName.ppmCorrection.text) :
    (calls d' = calls d ∧ ¬ AnswersOk i d d') ∨
      ∃ x w, p.member (bytes "value") = some x ∧ calls d' = .setFreqCorrection w :: calls d ∧
        -100 ≤ w ∧ w ≤ 100 ∧
        Taken x (w = 0) fun n => n.value = w ↔ n.Whole ∧ n.integer < 2 ^ 31 := by
  obtain ⟨hcalls, hok⟩ | ⟨cs, hcalls, hmay⟩ := h.tells hreach (.inr (.inr rfl))
  · refine .inl ⟨hcalls, fun hans => ?_⟩
    obtain ⟨-, hname | ⟨hname, -⟩⟩ := hok hans <;> cases h.names hreach hy hname hcontrol
  cases hmay with
  | ppm value hasked hrange =>
    obtain ⟨-, vi, text, hvalue, hnumeric, rfl⟩ := hasked
    obtain ⟨hlow, hhigh⟩ := hrange
    have hzero : text = bytes "null" → toInt32 (strtol text) = 0 := by
      rintro rfl
      decide
    have hnumber : ∀ n : Numeral, n.WellFormed → text = n.text.take 63 →
        (n.value = toInt32 (strtol text) ↔ n.Whole ∧ n.integer < 2 ^ 31) := by
      rintro n hn rfl
      exact strtol_ppm hn rfl hlow hhigh
    obtain ⟨x, hx, hnum⟩ := h.numeric hreach hvalue hnumeric hzero hnumber
    exact .inr ⟨x, _, hx, hcalls, hlow, hhigh, hnum⟩
  | gain _ hn | biasTee _ hn => cases h.names hreach hy hn.1 hcontrol
  | other _ _ hn hc => exact absurd hc (by rw [h.names hreach hy hn hcontrol]; decide)

end

end

/-! ## The theorems -/

section
variable {opts : Options} {env : Env} {i : SessId} {t : Document} {c : Command} {p : Node}
  {d d' : Daemon} {dev : Device} {o : Startup} {contextPackets : Bool}

/-- The text of a request with the given parameters. -/
def requestText (command : String) (params : Pairs) : Document where
  before := []
  value := .object []
    (.cons (plainString "type") [] [] (.string (plainString "request")) [] []
    (.cons (plainString "id") [] [] (.string (plainString "1")) [] []
    (.cons (plainString "command") [] [] (.string (plainString command)) [] []
    (.last (plainString "params") [] [] (.object [] params) []))))
  after := []

/-- A client that has said hello sends a request with some parameters, and the daemon that it comes
to is as it should be. -/
def dispatches (t : Document) (c : Command) (params : Node → Bool) (next : Daemon → Bool) : Bool :=
  t.wellFormed && t.value.count ≤ maxJsonTokens &&
  ((t.root.member (bytes "params")).any fun p => p.value.type = .object && params p) &&
  (runActs (step openAccess) started [connect, .request 0 helloFrame (quiet 0)]).any fun d =>
    d.command openAccess 0 t.text (quiet 0) = some (some c) && next d

/-- Such a request is dispatched. -/
theorem dispatchedText_of_dispatches {t : Document} {c : Command} {params : Node → Bool}
    {next : Daemon → Bool} (h : dispatches t c params next = true) :
    ∃ p d, Reachable (step openAccess) started d ∧ DispatchedText openAccess (quiet 0) 0 t c p d ∧
      params p = true ∧ next d = true := by
  simp only [dispatches, Bool.and_eq_true, Option.any_eq_true, decide_eq_true_eq] at h
  obtain ⟨⟨⟨hwell, hcount⟩, p, hp, hobject, hparams⟩, d, hd, hcommand, hnext⟩ := h
  exact ⟨p, d, ⟨_, hd⟩, ⟨hwell, hcount, hp, hobject, hcommand⟩, hparams, hnext⟩

/-- A request for a numeric control, from any reachable state: if hardware is told anything, the
value of the request is a JSON number, or `null`, for which zero is set. A number that is the gain
it is taken for reaches the tuner as it is, and what the tuner is told is never more than a tenth of
a dB from its list; the voltage is the number, or the double next to it; and the correction is the
number exactly when that is whole and not too large for the conversion. -/
theorem control_values_taken (hgains : ∀ g ∈ opts.tunerGains, |g| < 2 ^ 31)
    (hreach : Reachable (step opts) (Daemon.init dev o contextPackets) d)
    (h : Requested opts env i t .setControl p d d') {y : Node}
    (hname : p.member (bytes "name") = some y) :
    (cstr (y.value.raw.take 31) = ControlName.rfGain.text → calls d' = calls d ∨
      ∃ x w, p.member (bytes "value") = some x ∧
        calls d' = [.setTunerGain w, .setTunerGainMode true] ++ calls d ∧
        d.radio.agcEnabled = false ∧
        Numeric x (w = 0) fun n => ∃ g ∈ opts.tunerGains, |w - g| ≤ 1 ∧ (n.value = g / 10 → w = g) ∧
          (n.text.length ≤ 63 → |n.value - g / 10| < 13 / 250)) ∧
    (cstr (y.value.raw.take 31) = ControlName.biasTee.text → calls d' = calls d ∨
      ∃ x volts, p.member (bytes "value") = some x ∧ (volts = 0 ∨ volts = rtlBiasTeeVolts) ∧
        calls d' = .setBiasTee (volts = rtlBiasTeeVolts) :: calls d ∧
        Numeric x (volts = 0) fun n => n.text.length ≤ 63 → |n.value - volts| < 1 / 10 ^ 15) ∧
    (cstr (y.value.raw.take 31) = ControlName.ppmCorrection.text → calls d' = calls d ∨
      ∃ x w, p.member (bytes "value") = some x ∧ calls d' = .setFreqCorrection w :: calls d ∧
        -100 ≤ w ∧ w ≤ 100 ∧
        Numeric x (w = 0) fun n => n.value = w ↔ n.Whole ∧ n.integer < 2 ^ 31) := by
  refine ⟨fun hcontrol => ?_, fun hcontrol => ?_, fun hcontrol => ?_⟩
  · refine (h.gain hreach hname hgains hcontrol).imp And.left ?_
    rintro ⟨x, w, hx, hcalls, hagc, htaken⟩
    exact ⟨x, w, hx, hcalls, hagc, htaken.numeric⟩
  · refine (h.biasTee hreach hname hcontrol).imp And.left ?_
    rintro ⟨x, volts, hx, hlist, hcalls, htaken⟩
    exact ⟨x, volts, hx, hlist, hcalls, htaken.numeric⟩
  · refine (h.ppm hreach hname hcontrol).imp And.left ?_
    rintro ⟨x, w, hx, hcalls, hlow, hhigh, htaken⟩
    exact ⟨x, w, hx, hcalls, hlow, hhigh, htaken.numeric⟩

/-- A request for a gain, as a number. -/
def gainText (db : String) : Document :=
  requestText "set_control" (.cons (plainString "function") [] [] (.string (plainString "rx")) [] []
    (.cons (plainString "name") [] [] (.string (plainString "rf_gain")) [] []
    (.last (plainString "value") [] [] (.primitive (bytes db)) [])))

/-- A gain that is not on the list, in whose place the tuner is told the one next to it. -/
theorem control_values_taken_near :
    ∃ p d d', Reachable (step openAccess) started d ∧
      Requested openAccess (quiet 0) 0 (gainText "10.04") .setControl p d d' ∧
      ∃ x w, p.member (bytes "value") = some x ∧
        calls d' = [.setTunerGain w, .setTunerGainMode true] ++ calls d ∧ w = 100 ∧
        Numeric x (w = 0) fun n => ∃ g ∈ openAccess.tunerGains, |w - g| ≤ 1 ∧
          (n.value = g / 10 → w = g) ∧ (n.text.length ≤ 63 → |n.value - g / 10| < 13 / 250) := by
  have hrun : dispatches (gainText "10.04") .setControl (fun p => (p.member (bytes "name")).any fun y =>
      cstr (y.value.raw.take 31) = ControlName.rfGain.text) (fun d =>
      (step openAccess d (.request 0 (gainText "10.04").text (quiet 0))).any fun d' =>
        calls d' = [.setTunerGain 100, .setTunerGainMode true] ++ calls d) = true := by
    decide +kernel
  obtain ⟨p, d, hreach, hdispatched, hname, hnext⟩ := dispatchedText_of_dispatches hrun
  obtain ⟨y, hy, hcontrol⟩ := (Option.any_eq_true ..).mp hname
  obtain ⟨d', hd', hcalls⟩ := (Option.any_eq_true ..).mp hnext
  have hrequested : Requested openAccess (quiet 0) 0 (gainText "10.04") .setControl p d d' :=
    ⟨hdispatched, hd'⟩
  refine ⟨p, d, d', hreach, hrequested, ?_⟩
  have htold := of_decide_eq_true hcalls
  rcases (control_values_taken (by decide) hreach hrequested hy).1 (of_decide_eq_true hcontrol) with
    hsame | ⟨x, w, hx, hw, -, hnumber⟩
  · rw [hsame] at htold
    exact absurd (List.self_eq_append_left.mp htold) (List.cons_ne_nil _ _)
  · refine ⟨x, w, hx, hw, ?_, hnumber⟩
    rw [hw] at htold
    exact HwCall.setTunerGain.inj (List.cons.inj htold).1

end

end SlcRtld.Property
