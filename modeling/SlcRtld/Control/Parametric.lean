import SlcRtld.Control.Session
import SlcRtld.Effect.Rel

/-!
# How the handlers use a message

The dispatcher and the handlers never look at the number of a token: they take it from
`tok_find_key` and hand it on to the helpers. So a handler does the same with two numberings of one
message, and what the helpers answer on related tokens is all that matters. `Indices` is a relation
of that kind: which tokens are related as values that are compared or copied, which as values that
are asked for their type only, which as the objects that keys are looked up in, and which as the
arrays that elements are read from. Keys are looked up in the root, in the value of `params`,
whatever that is, and in values that have been found to be objects.
`sessionRound_alike` is the walk through every handler that shows it.
-/

namespace SlcRtld.Control

open Libc Rtl Auth Vita Json Effect
open Effect.Prog (perform when Rel)

/-- An operation that does not read the message. -/
def Op.Silent : {β : Type} → Op β → Prop
  | _, .tokFindKey _ _ | _, .tokEq _ _ | _, .tokStr _ _ | _, .tokType _ | _, .tokIsPrimitive _ _
  | _, .offeredVersions _ => False
  | _, _ => True

/-- A program that does not read the message. -/
def Silent {α : Type} (p : Prog Op α) : Prop := p.Uses fun _ o => o.Silent

/-- A relation between the tokens of two messages. -/
structure Indices where
  /-- Tokens that are compared or copied. -/
  value : ℕ → ℕ → Prop
  /-- Tokens that are asked for their type. -/
  typed : ℕ → ℕ → Prop
  /-- Tokens that keys are looked up in. -/
  object : ℕ → ℕ → Prop
  /-- Tokens whose elements are read. -/
  array : ℕ → ℕ → Prop
  typed_of_value {j j' : ℕ} : value j j' → typed j j'

/-- The members whose text the handlers compare or copy. -/
def textKeys : List String :=
  ["type", "id", "command", "function", "client_name", "method", "key_id", "response", "frequency_hz",
    "sample_rate_sps", "name", "value", "label", "encoding", "bits_per_component", "protocol_version",
    "protocol", "ip", "port", "stream_id"]

/-- The answers of `tok_find_key` on related objects. -/
inductive Found (I : Indices) (key : String) : Option ℕ → Option ℕ → Prop where
  | none : Found I key none none
  | some {j j' : ℕ} (ht : I.typed j j') (hv : key ∈ textKeys → I.value j j')
      (ho : key = "params" → I.object j j') : Found I key (some j) (some j')

/-- The same question about related tokens, or an operation that does not read the message. -/
inductive Asks (I : Indices) : Prog.Match Op where
  | tokFindKey {obj obj' : ℕ} {key : String} (h : I.object obj obj')
      (hroot : key = "params" → obj = 0 ∧ obj' = 0) :
      Asks I _ _ (.tokFindKey obj key) (.tokFindKey obj' key) (Found I key)
  | tokEq {j j' : ℕ} (h : I.value j j') (s : String) :
      Asks I _ _ (.tokEq j s) (.tokEq j' s) Eq
  | tokStr {j j' : ℕ} (h : I.value j j') (cap : ℕ) :
      Asks I _ _ (.tokStr j cap) (.tokStr j' cap) Eq
  | tokType {j j' : ℕ} (h : I.typed j j') :
      Asks I _ _ (.tokType j) (.tokType j') fun a b =>
        a = b ∧ (a = .object → I.object j j') ∧ (a = .array → I.array j j')
  | tokIsPrimitive {j j' : ℕ} (h : I.value j j') (s : String) :
      Asks I _ _ (.tokIsPrimitive j s) (.tokIsPrimitive j' s) Eq
  | offeredVersions {j j' : ℕ} (h : I.array j j') :
      Asks I _ _ (.offeredVersions j) (.offeredVersions j') Eq
  | silent {β : Type} {o : Op β} (h : o.Silent) : Asks I _ _ o o Eq

/-- The programs ask the same questions, and end with the same result. -/
abbrev Alike {α : Type} (I : Indices) (p p' : Prog Op α) : Prop := Rel (Asks I) Eq p p'

section
variable {I : Indices} {α β : Type}

/-- A program that does not read the message does the same for any two. -/
theorem Silent.alike {p : Prog Op α} (h : Silent p) : Alike I p p :=
  Rel.refl h (fun _ _ ho => .silent ho) fun _ => rfl

/-- A program that goes on in the same way with the same answer. -/
theorem Alike.andThen {p p' : Prog Op α} {f f' : α → Prog Op β} (hp : Alike I p p')
    (hf : ∀ a, Alike I (f a) (f' a)) : Alike I (p >>= f) (p' >>= f') :=
  hp.bind fun a _ h => h ▸ hf a

/-- A lookup of a key, and what follows when it is not there and when it is. -/
theorem rel_find {Q : α → α → Prop} {obj obj' : ℕ} {key : String} {f f' : Option ℕ → Prog Op α}
    (h : I.object obj obj') (hkey : key ≠ "params") (hnone : Rel (Asks I) Q (f none) (f' none))
    (hsome : ∀ j j', I.typed j j' → (key ∈ textKeys → I.value j j') →
      Rel (Asks I) Q (f (some j)) (f' (some j'))) :
    Rel (Asks I) Q (perform (.tokFindKey obj key) >>= f) (perform (.tokFindKey obj' key) >>= f') :=
  Rel.step (.tokFindKey h fun heq => absurd heq hkey) fun _ _ hr => by
    cases hr with
    | none => exact hnone
    | some ht hv _ => exact hsome _ _ ht hv

/-- A lookup of a member whose text is read. -/
theorem rel_lookup {Q : α → α → Prop} {obj obj' : ℕ} {key : String} {f f' : Option ℕ → Prog Op α}
    (h : I.object obj obj') (hkey : key ∈ textKeys) (hnone : Rel (Asks I) Q (f none) (f' none))
    (hsome : ∀ j j', I.value j j' → Rel (Asks I) Q (f (some j)) (f' (some j'))) :
    Rel (Asks I) Q (perform (.tokFindKey obj key) >>= f) (perform (.tokFindKey obj' key) >>= f') := by
  have hne : key ≠ "params" := by
    rintro rfl
    exact absurd hkey (by decide)
  exact rel_find h hne hnone fun j j' _ hv => hsome j j' (hv hkey)

/-- An operation with the same answer on both sides. -/
theorem rel_ask {Q : β → β → Prop} {o o' : Op α} {f f' : α → Prog Op β} (h : Asks I α α o o' Eq)
    (hf : ∀ a, Rel (Asks I) Q (f a) (f' a)) :
    Rel (Asks I) Q (perform o >>= f) (perform o' >>= f') :=
  Rel.step h fun a _ heq => heq ▸ hf a

/-- A question about a token's type. -/
theorem rel_type {Q : α → α → Prop} {j j' : ℕ} {f f' : TokType → Prog Op α} (h : I.typed j j')
    (hf : ∀ ty, (ty = .object → I.object j j') → (ty = .array → I.array j j') →
      Rel (Asks I) Q (f ty) (f' ty)) :
    Rel (Asks I) Q (perform (.tokType j) >>= f) (perform (.tokType j') >>= f') :=
  Rel.step (.tokType h) fun ty _ hty => by
    obtain ⟨rfl, hobj, harr⟩ := hty
    exact hf ty hobj harr

end

/-! ## Programs that do not read the message -/

section
variable (opts : Options) (id : CStr)

/-- An error. -/
theorem silent_sendError (code : ErrorCode) (message : String) : Silent (sendError id code message) :=
  ⟨trivial, fun _ => trivial⟩

/-- A result. -/
theorem silent_sendOk (r : Result) : Silent (sendOk id r) := ⟨trivial, fun _ => trivial⟩

/-- The release of the channel. -/
theorem silent_cpRxRelease : Silent cpRxRelease :=
  ⟨trivial, fun _ => Prog.Uses.when ⟨trivial, fun _ => trivial⟩⟩

/-- The reader is stopped. -/
theorem silent_stopReading : Silent stopReading :=
  Prog.Uses.bind (show Silent rtlBridgeStop from
    ⟨trivial, fun _ => Prog.Uses.when ⟨trivial, fun _ => trivial⟩⟩)
    fun _ => ⟨trivial, fun _ => trivial⟩

/-- A stream is taken out of the table. -/
theorem silent_removeVita (token : ℤ) : Silent (removeVita token) :=
  Prog.Uses.when ⟨trivial, fun _ => ⟨trivial, fun _ => trivial⟩⟩

/-- A challenge. -/
theorem silent_issueChallenge : Silent issueChallenge :=
  ⟨trivial, fun _ => ⟨trivial, fun _ => ⟨trivial, fun _ => trivial⟩⟩⟩

/-- The end of a session. -/
theorem silent_sessionDestroy : Silent (sessionDestroy opts) := by
  refine .step trivial fun s => .bind (silent_removeVita _) fun _ => ?_
  refine .bind (.when (.bind silent_stopReading fun _ => ⟨trivial, fun _ => trivial⟩)) fun _ => ?_
  refine .bind silent_cpRxRelease fun _ => .step trivial fun r => ?_
  exact .bind (.when (.step trivial fun _ => trivial)) fun _ => ⟨trivial, fun _ => trivial⟩

/-- The check of the owner. -/
theorem silent_mayConfigure : Silent (mayConfigure id) :=
  .step trivial fun _ => .ite trivial (.bind (silent_sendError ..) fun _ => trivial)

/-- The frequency, the rate and the format follow the mode. -/
theorem silent_applyModeChangeSideEffects : Silent applyModeChangeSideEffects := by
  have hretune : Silent retuneForMode :=
    .step trivial fun _ => .when (.step trivial fun _ => .when ⟨trivial, fun _ => trivial⟩)
  have hresample : Silent resampleForMode :=
    .step trivial fun _ => .when (.step trivial fun _ => .when ⟨trivial, fun _ => trivial⟩)
  exact Prog.Uses.bind hretune fun _ => Prog.Uses.bind hresample fun _ =>
    ⟨trivial, fun _ => ⟨trivial, fun _ => ⟨trivial, fun _ => trivial⟩⟩⟩

/-- A rejected response. -/
theorem silent_authFailed : Silent (authFailed id) :=
  ⟨trivial, fun _ => ⟨trivial, fun _ => ⟨trivial, fun _ => ⟨trivial, fun _ => ⟨trivial, fun _ =>
    ⟨trivial, fun _ => trivial⟩⟩⟩⟩⟩⟩

/-- A refused stream. -/
theorem silent_refuseStream (code : ErrorCode) (message : String) :
    Silent (refuseStream id code message) :=
  Prog.Uses.bind silent_cpRxRelease fun _ => Prog.Uses.bind (silent_sendError ..) fun _ => trivial

/-- The stream is opened, once the parameters have been read. -/
theorem silent_openChecked (ipStr : CStr) (addr : List ℕ) (port : ℕ) :
    Silent (openChecked id ipStr addr port) :=
  ⟨trivial, fun _ => ⟨trivial, fun _ => ⟨trivial, fun _ => ⟨trivial, fun _ => ⟨trivial, fun _ =>
    ⟨trivial, fun _ => trivial⟩⟩⟩⟩⟩⟩

end

/-! ## The handlers -/

section
variable {I : Indices} {opts : Options} {id : CStr} {p p' vi vi' : ℕ}

/-- `params` is found in both messages, or in neither. -/
theorem findParams_rel (hroot : I.object 0 0) : Rel (Asks I) (Found I "params") findParams findParams :=
  .perform (.tokFindKey hroot fun _ => ⟨rfl, rfl⟩)

/-- So it is with the name of the function. -/
theorem requireFunction_rel (hroot : I.object 0 0) :
    Rel (Asks I) (Found I "params") (requireFunction id) (requireFunction id) := by
  have herror : ∀ (code : ErrorCode) (message : String), Rel (Asks I) (Found I "params")
      (do sendError id code message; return none : Prog Op (Option ℕ))
      (do sendError id code message; return none) :=
    fun _ _ => (silent_sendError ..).alike.bind fun _ _ _ => .pure .none
  refine (findParams_rel hroot).bind fun p p' hp => ?_
  cases hp with
  | none => exact herror _ _
  | some ht hv ho =>
    refine rel_lookup (ho rfl) (by decide) ?_ fun f f' hf => ?_
    · exact rel_find (ho rfl) (by decide) (herror _ _) fun _ _ _ _ => herror _ _
    · exact rel_ask (.tokEq hf _) fun b => .ite (.pure (.some ht hv ho)) (herror _ _)

/-- The channel number. -/
theorem channelOk_alike (hp : I.object p p') : Alike I (channelOk id p) (channelOk id p') :=
  rel_find hp (by decide) (.pure rfl) fun _ _ _ _ =>
    (silent_sendError ..).alike.andThen fun _ => .pure rfl

/-- Whether a value is a boolean. -/
theorem tokIsBool_alike (hv : I.value vi vi') : Alike I (tokIsBool vi) (tokIsBool vi') :=
  rel_ask (.tokIsPrimitive hv _) fun _ => .ite (.pure rfl) (.perform (.tokIsPrimitive hv _))

/-- Whether a value is a number. -/
theorem tokIsNumeric_alike (hv : I.value vi vi') : Alike I (tokIsNumeric vi) (tokIsNumeric vi') :=
  rel_type (I.typed_of_value hv) fun _ _ _ => .ite (.pure rfl) ((tokIsBool_alike hv).andThen fun _ => .pure rfl)

/-- `hello`. -/
theorem cmdHello_alike (hroot : I.object 0 0) : Alike I (cmdHello opts id) (cmdHello opts id) := by
  refine (findParams_rel hroot).bind fun p p' hp => ?_
  cases hp with
  | none => exact (silent_sendError ..).alike
  | some _ _ ho =>
    refine rel_find (ho rfl) (by decide) (silent_sendError ..).alike fun v v' hvers _ => ?_
    refine rel_type hvers fun ty _ harr => ?_
    by_cases hty : ty = .array
    · rw [if_neg (not_not.mpr hty), if_neg (not_not.mpr hty)]
      refine rel_ask (.offeredVersions (harr hty)) fun r => .ite (silent_sendError ..).alike ?_
      -- the name is the same on both sides, and what follows does not read the message
      have haccept : ∀ name : CStr, Silent (do
          perform (.modify (Session.accept name))
          if opts.rxAuth then
            let hex ← issueChallenge
            sendOk id (.hello (some hex))
          else
            sendOk id (.hello none)) := fun name =>
        .step trivial fun _ => .ite (.bind silent_issueChallenge fun _ => silent_sendOk ..)
          (silent_sendOk ..)
      refine rel_lookup (ho rfl) (by decide) (haccept _).alike fun c c' hc => ?_
      exact rel_ask (.tokStr hc _) fun name => (haccept name).alike
    · rw [if_pos hty, if_pos hty]
      exact (silent_sendError ..).alike

/-- The parameters of `authenticate`. -/
theorem authParams_alike (hroot : I.object 0 0) : Alike I (authParams id) (authParams id) := by
  have hmissing : Alike I (do
      sendError id .missingParameter ("authenticate requires \"method\" and \"response\"; "
        ++ "\"key_id\" defaults to \"default\"")
      return none : Prog Op (Option (CStr × CStr × CStr))) _ :=
    (silent_sendError ..).alike.andThen fun _ => .pure rfl
  refine (findParams_rel hroot).bind fun p p' hp => ?_
  cases hp with
  | none => exact hmissing
  | some _ _ ho =>
    have hkey : ∀ key : String, key ≠ "params" → Rel (Asks I) (Found I key)
        (perform (.tokFindKey _ key)) (perform (.tokFindKey _ key)) := fun key hne =>
      .perform (.tokFindKey (ho rfl) fun heq => absurd heq hne)
    refine (hkey "method" (by decide)).bind fun mi mi' hmi => ?_
    refine (hkey "key_id" (by decide)).bind fun ki ki' hki => ?_
    refine (hkey "response" (by decide)).bind fun ri ri' hri => ?_
    cases hmi with
    | none => exact hmissing
    | some _ hmi _ =>
      cases hri with
      | none => exact hmissing
      | some _ hri _ =>
        refine rel_ask (.tokStr (hmi (by decide)) _) fun method =>
          rel_ask (.tokStr (hri (by decide)) _) fun resp => ?_
        cases hki with
        | none => exact .pure rfl
        | some _ hki _ => exact rel_ask (.tokStr (hki (by decide)) _) fun _ => .pure rfl

/-- `authenticate`. -/
theorem cmdAuthenticate_alike (hroot : I.object 0 0) :
    Alike I (cmdAuthenticate opts id) (cmdAuthenticate opts id) := by
  refine .ite (silent_sendOk ..).alike ((authParams_alike hroot).andThen fun r => ?_)
  cases r with
  | none => exact .pure rfl
  | some r =>
    refine Silent.alike ?_
    exact .step trivial fun _ => .step trivial fun _ => .step trivial fun _ =>
      .ite (.step trivial fun _ => silent_sendOk ..) (silent_authFailed id)

/-- Whether a request addresses the channel. -/
theorem cmdAddressesRx_alike (hroot : I.object 0 0) (cmd : CStr) :
    Alike I (cmdAddressesRx cmd) (cmdAddressesRx cmd) := by
  refine .ite (.pure rfl) (.ite (.pure rfl) ((findParams_rel hroot).bind fun p p' hp => ?_))
  cases hp with
  | none => exact .pure rfl
  | some _ _ ho =>
    exact rel_lookup (ho rfl) (by decide) (.pure rfl) fun f f' hf => .perform (.tokEq hf _)

/-! The parameters that configure the receiver. -/

/-- What the configuration commands begin with: the parameters of the receive function, without a
channel. -/
theorem rel_addressed {Q : Unit → Unit → Prop} {f f' : ℕ → Prog Op Unit} (hroot : I.object 0 0)
    (hQ : Q () ()) (hf : ∀ p p', I.object p p' → Rel (Asks I) Q (f p) (f' p')) :
    Rel (Asks I) Q
      (do
        let some p ← requireFunction id | return
        if !(← channelOk id p) then return
        f p)
      (do
        let some p ← requireFunction id | return
        if !(← channelOk id p) then return
        f' p) := by
  refine (requireFunction_rel hroot).bind fun p p' hp => ?_
  cases hp with
  | none => exact .pure hQ
  | some _ _ ho =>
    refine (channelOk_alike (ho rfl)).bind fun b b' hb => ?_
    subst hb
    exact .ite (.pure hQ) (hf _ _ (ho rfl))

/-- `set_frequency`. -/
theorem cmdSetFrequency_alike (hroot : I.object 0 0) :
    Alike I (cmdSetFrequency id) (cmdSetFrequency id) := by
  refine rel_addressed hroot rfl fun p p' hp => ?_
  refine (silent_mayConfigure id).alike.andThen fun b => .ite (.pure rfl) ?_
  refine rel_lookup hp (by decide) (silent_sendError ..).alike fun fi fi' hfi => ?_
  refine rel_ask (.tokStr hfi _) fun text => Silent.alike ?_
  refine .ite (silent_sendError ..) (.step trivial fun r => .ite (silent_sendError ..) ?_)
  refine .step trivial fun applied => .ite (silent_sendError ..) ?_
  exact .step trivial fun _ => ⟨trivial, fun _ => trivial⟩

/-- `set_sample_rate`. -/
theorem cmdSetSampleRate_alike (hroot : I.object 0 0) :
    Alike I (cmdSetSampleRate id) (cmdSetSampleRate id) := by
  refine rel_addressed hroot rfl fun p p' hp => ?_
  refine (silent_mayConfigure id).alike.andThen fun b => .ite (.pure rfl) ?_
  refine rel_ask (.silent trivial) fun s => .ite (silent_sendError ..).alike ?_
  refine rel_lookup hp (by decide) (silent_sendError ..).alike fun ri ri' hri => ?_
  refine rel_ask (.tokStr hri _) fun text => Silent.alike ?_
  refine .step trivial fun r => .ite (silent_sendError ..) ?_
  refine .step trivial fun applied => .ite (silent_sendError ..) ?_
  exact .step trivial fun _ => ⟨trivial, fun _ => trivial⟩

/-- `set_control` for `rf_gain`. -/
theorem setRfGain_alike (hv : I.value vi vi') (valstr : CStr) :
    Alike I (setRfGain opts id vi valstr) (setRfGain opts id vi' valstr) := by
  refine (tokIsNumeric_alike hv).andThen fun b => .ite (silent_sendError ..).alike (Silent.alike ?_)
  refine .step trivial fun r => .ite (.step trivial fun _ => silent_sendOk ..) ?_
  refine .ite (silent_sendError ..) (.step trivial fun _ => .step trivial fun _ => ?_)
  exact .step trivial fun _ => ⟨trivial, fun _ => trivial⟩

/-- `set_control` for `agc`. -/
theorem setAgc_alike (hv : I.value vi vi') : Alike I (setAgc id vi) (setAgc id vi') := by
  refine (tokIsBool_alike hv).andThen fun b => .ite (silent_sendError ..).alike ?_
  refine rel_ask (.tokIsPrimitive hv _) fun en => Silent.alike ?_
  exact .step trivial fun _ => .step trivial fun _ => .step trivial fun _ =>
    ⟨trivial, fun _ => trivial⟩

/-- `set_control` for `bias_tee`. -/
theorem setBiasTee_alike (hv : I.value vi vi') (valstr : CStr) :
    Alike I (setBiasTee id vi valstr) (setBiasTee id vi' valstr) := by
  refine (tokIsNumeric_alike hv).andThen fun b => .ite (silent_sendError ..).alike (Silent.alike ?_)
  refine .ite (silent_sendError ..) (.step trivial fun _ => .ite (silent_sendError ..) ?_)
  exact .step trivial fun _ => .step trivial fun _ => .step trivial fun _ =>
    ⟨trivial, fun _ => trivial⟩

/-- `set_control` for `ppm_correction`. -/
theorem setPpmCorrection_alike (hv : I.value vi vi') (valstr : CStr) :
    Alike I (setPpmCorrection id vi valstr) (setPpmCorrection id vi' valstr) := by
  refine (tokIsNumeric_alike hv).andThen fun b => .ite (silent_sendError ..).alike (Silent.alike ?_)
  refine .ite (silent_sendError ..) (.step trivial fun _ => .step trivial fun _ => ?_)
  exact .step trivial fun _ => .step trivial fun _ => ⟨trivial, fun _ => trivial⟩

/-- The name of a mode. -/
theorem tokMode_alike (hv : I.value vi vi') : Alike I (tokMode vi) (tokMode vi') :=
  rel_ask (.tokEq hv _) fun _ => .ite (.pure rfl) <| rel_ask (.tokEq hv _) fun _ =>
    .ite (.pure rfl) <| rel_ask (.tokEq hv _) fun _ => .ite (.pure rfl) (.pure rfl)

/-- `set_control` for `direct_sampling`. -/
theorem setDirectSampling_alike (hv : I.value vi vi') (valstr : CStr) :
    Alike I (setDirectSampling id vi valstr) (setDirectSampling id vi' valstr) := by
  refine rel_type (I.typed_of_value hv) fun ty _ _ => .ite (silent_sendError ..).alike ?_
  refine (tokMode_alike hv).andThen fun mode => ?_
  cases mode with
  | none => exact (silent_sendError ..).alike
  | some mode =>
    refine Silent.alike (.step trivial fun r => .ite (silent_sendOk ..) ?_)
    refine .step trivial fun s => .ite (silent_sendError ..) ?_
    refine .step trivial fun rc => .ite (silent_sendError ..) ?_
    exact .step trivial fun _ => .step trivial fun _ =>
      .bind silent_applyModeChangeSideEffects fun _ => ⟨trivial, fun _ => trivial⟩

/-- `set_control`. -/
theorem cmdSetControl_alike (hroot : I.object 0 0) :
    Alike I (cmdSetControl opts id) (cmdSetControl opts id) := by
  refine rel_addressed hroot rfl fun p p' hp => ?_
  refine (silent_mayConfigure id).alike.andThen fun b => .ite (.pure rfl) ?_
  refine rel_lookup hp (by decide) ?_ fun ni ni' hni => ?_
  · exact rel_lookup hp (by decide) (silent_sendError ..).alike fun _ _ _ =>
      (silent_sendError ..).alike
  · refine rel_lookup hp (by decide) (silent_sendError ..).alike fun vi vi' hvi => ?_
    refine rel_ask (.tokStr hni _) fun name => rel_ask (.tokStr hvi _) fun valstr => ?_
    exact .ite (setRfGain_alike hvi valstr) <| .ite (setAgc_alike hvi) <|
      .ite (setBiasTee_alike hvi valstr) <| .ite (setPpmCorrection_alike hvi valstr) <|
      .ite (setDirectSampling_alike hvi valstr) (silent_sendError ..).alike

/-- `get_control`. -/
theorem cmdGetControl_alike (hroot : I.object 0 0) :
    Alike I (cmdGetControl id) (cmdGetControl id) := by
  refine rel_addressed hroot rfl fun p p' hp => ?_
  refine rel_lookup hp (by decide) (silent_sendError ..).alike fun ni ni' hni => ?_
  refine rel_ask (.tokStr hni _) fun name => Silent.alike (.step trivial fun r => ?_)
  exact .ite (silent_sendOk ..) <| .ite (silent_sendOk ..) <| .ite (silent_sendOk ..) <|
    .ite (silent_sendOk ..) <| .ite (silent_sendOk ..) (silent_sendError ..)

/-! Streams. -/

/-- A format of the list is compared with the only one there is. -/
theorem formatMatches_alike (h : I.object vi vi') :
    Alike I (formatMatches vi) (formatMatches vi') := by
  have hkey : ∀ key : String, key ≠ "params" → Rel (Asks I) (Found I key)
      (perform (.tokFindKey vi key)) (perform (.tokFindKey vi' key)) := fun key hne =>
    .perform (.tokFindKey h fun heq => absurd heq hne)
  refine (hkey "label" (by decide)).bind fun lbl lbl' hlbl => ?_
  refine (hkey "encoding" (by decide)).bind fun enc enc' henc => ?_
  refine (hkey "bits_per_component" (by decide)).bind fun bits bits' hbits => ?_
  -- what follows the question about the label is the same whether the label is there or not
  cases henc with
  | none =>
    have hrest : ∀ u8Label : Bool, Alike I (if u8Label then return true else return false)
        (if u8Label then return true else return false : Prog Op Bool) :=
      fun _ => .ite (.pure rfl) (.pure rfl)
    cases hlbl with
    | none => exact hrest false
    | some _ hlbl _ => exact rel_ask (.tokEq (hlbl (by decide)) _) hrest
  | @some enc enc' _ henc _ =>
    cases hbits with
    | none =>
      have hrest : ∀ u8Label : Bool, Alike I
          (if u8Label then return true else perform (.tokEq enc "unsigned"))
          (if u8Label then return true else perform (.tokEq enc' "unsigned")) :=
        fun _ => .ite (.pure rfl) (.perform (.tokEq (henc (by decide)) _))
      cases hlbl with
      | none => exact hrest false
      | some _ hlbl _ => exact rel_ask (.tokEq (hlbl (by decide)) _) hrest
    | @some bits bits' _ hbits _ =>
      have hrest : ∀ u8Label : Bool, Alike I
          (if u8Label then return true else do
            if !(← perform (.tokEq enc "unsigned")) then return false
            perform (.tokEq bits "8"))
          (if u8Label then return true else do
            if !(← perform (.tokEq enc' "unsigned")) then return false
            perform (.tokEq bits' "8")) :=
        fun _ => .ite (.pure rfl) (rel_ask (.tokEq (henc (by decide)) _) fun _ =>
          .ite (.pure rfl) (.perform (.tokEq (hbits (by decide)) _)))
      cases hlbl with
      | none => exact hrest false
      | some _ hlbl _ => exact rel_ask (.tokEq (hlbl (by decide)) _) hrest

/-- The list of formats. -/
theorem formatRefused_alike (h : I.object vi vi') :
    Alike I (formatRefused vi) (formatRefused vi') := by
  refine rel_find h (by decide) (.pure rfl) fun fmtI fmtI' hfmt _ => rel_type hfmt fun ty hobj _ => ?_
  by_cases hty : ty = .object
  · rw [if_neg (not_not.mpr hty), if_neg (not_not.mpr hty)]
    exact (formatMatches_alike (hobj hty)).andThen fun _ => .pure rfl
  · rw [if_pos hty, if_pos hty]
    exact .pure rfl

/-- The list of profiles. -/
theorem profileRefused_alike (h : I.object vi vi') :
    Alike I (profileRefused vi) (profileRefused vi') :=
  rel_lookup h (by decide) (.pure rfl) fun _ _ hpv => rel_ask (.tokEq hpv _) fun _ => .pure rfl

/-- Related objects, or none on either side. -/
inductive BothObjects (I : Indices) : Option ℕ → Option ℕ → Prop where
  | none : BothObjects I none none
  | some {j j' : ℕ} (h : I.object j j') : BothObjects I (some j) (some j')

/-- An object inside an object is found in both messages, or in neither. -/
theorem findObject_rel {key : String} (h : I.object vi vi') (hkey : key ≠ "params") :
    Rel (Asks I) (BothObjects I) (findObject vi key) (findObject vi' key) := by
  refine rel_find h hkey (.pure .none) fun v v' hv _ => rel_type hv fun ty hobj _ => ?_
  by_cases hty : ty = .object
  · rw [if_neg (not_not.mpr hty), if_neg (not_not.mpr hty)]
    exact .pure (.some (hobj hty))
  · rw [if_pos hty, if_pos hty]
    exact .pure .none

/-- The address and the port of a stream. -/
theorem streamDestination_alike (h : I.object p p') :
    Alike I (streamDestination id p) (streamDestination id p') := by
  refine rel_lookup h (by decide) (silent_refuseStream ..).alike fun protoI protoI' hproto => ?_
  refine rel_ask (.tokEq hproto _) fun b => .ite (silent_refuseStream ..).alike ?_
  refine (findObject_rel h (by decide)).bind fun v v' hv => ?_
  cases hv with
  | none =>
    have herror : ∀ message : String, Alike I
        (do sendError id .missingParameter message; return none :
          Prog Op (Option (CStr × List ℕ × ℕ)))
        (do sendError id .missingParameter message; return none) :=
      fun _ => (silent_sendError ..).alike.andThen fun _ => .pure rfl
    exact silent_cpRxRelease.alike.andThen fun _ =>
      rel_find h (by decide) (herror _) fun _ _ _ _ => herror _
  | some hv =>
    refine (profileRefused_alike hv).andThen fun b => .ite (silent_refuseStream ..).alike ?_
    refine (formatRefused_alike hv).andThen fun b => .ite (silent_refuseStream ..).alike ?_
    refine (findObject_rel hv (by decide)).bind fun dest dest' hdest => ?_
    cases hdest with
    | none => exact (silent_refuseStream ..).alike
    | some hdest =>
      refine rel_lookup hdest (by decide) ?_ fun ipI ipI' hip => ?_
      · exact rel_lookup hdest (by decide) (silent_refuseStream ..).alike fun _ _ _ =>
          (silent_refuseStream ..).alike
      · refine rel_lookup hdest (by decide) (silent_refuseStream ..).alike fun portI portI' hport => ?_
        refine rel_ask (.tokStr hip _) fun ipStr => rel_ask (.tokStr hport _) fun portStr => ?_
        cases inetPton ipStr with
        | none => exact (silent_refuseStream ..).alike
        | some addr => exact .ite (silent_refuseStream ..).alike (.pure rfl)

/-- `open_stream`. -/
theorem cmdOpenStream_alike (hroot : I.object 0 0) :
    Alike I (cmdOpenStream id) (cmdOpenStream id) := by
  refine rel_addressed hroot rfl fun p p' hp => ?_
  refine rel_ask (.silent trivial) fun s => .ite (silent_sendError ..).alike ?_
  refine rel_ask (.silent trivial) fun claimed => .ite (silent_sendError ..).alike ?_
  refine (streamDestination_alike hp).andThen fun r => ?_
  cases r with
  | none => exact .pure rfl
  | some r => exact (silent_openChecked ..).alike

/-- The open stream that a request is about. -/
theorem requireStream_alike (hroot : I.object 0 0) :
    Alike I (requireStream id) (requireStream id) := by
  have herror : ∀ (code : ErrorCode) (message : String), Alike I
      (do sendError id code message; return none : Prog Op (Option Session))
      (do sendError id code message; return none) :=
    fun _ _ => (silent_sendError ..).alike.andThen fun _ => .pure rfl
  refine (findParams_rel hroot).bind fun p p' hp => ?_
  cases hp with
  | none => exact herror _ _
  | some _ _ ho =>
    refine rel_lookup (ho rfl) (by decide) (herror _ _) fun si si' hsi => ?_
    refine rel_ask (.tokStr hsi _) fun sid => rel_ask (.silent trivial) fun s => ?_
    exact .ite (herror _ _) (.pure rfl)

/-- What the stream commands do with the stream they have found does not read the message. -/
theorem alike_stream {f : Session → Prog Op Unit} (hroot : I.object 0 0) (hf : ∀ s, Silent (f s)) :
    Alike I
      (do
        let some s ← requireStream id | return
        f s)
      (do
        let some s ← requireStream id | return
        f s) := by
  refine (requireStream_alike hroot).andThen fun r => ?_
  cases r with
  | none => exact .pure rfl
  | some s => exact (hf s).alike

/-- `start_rx`. -/
theorem cmdStartRx_alike (hroot : I.object 0 0) : Alike I (cmdStartRx id) (cmdStartRx id) := by
  refine alike_stream hroot fun s => .ite (silent_sendOk ..) ?_
  refine .step trivial fun r => .step trivial fun token => .step trivial fun _ => ?_
  refine .ite (silent_sendError ..) (.step trivial fun started => .ite ?_ ?_)
  · exact .step trivial fun _ => .step trivial fun _ => silent_sendError ..
  · exact .step trivial fun _ => .step trivial fun _ => ⟨trivial, fun _ => trivial⟩

/-- `stop_rx`. -/
theorem cmdStopRx_alike (hroot : I.object 0 0) : Alike I (cmdStopRx id) (cmdStopRx id) := by
  refine alike_stream hroot fun s => .ite (silent_sendOk ..) ?_
  refine .bind (silent_removeVita _) fun _ => .bind silent_stopReading fun _ => ?_
  exact .step trivial fun _ => .step trivial fun _ => ⟨trivial, fun _ => trivial⟩

/-- `close_stream`. -/
theorem cmdCloseStream_alike (hroot : I.object 0 0) :
    Alike I (cmdCloseStream id) (cmdCloseStream id) := by
  refine alike_stream hroot fun s => .bind (silent_removeVita _) fun _ => ?_
  refine .bind (.when silent_stopReading) fun _ => .step trivial fun _ => ?_
  refine .bind silent_cpRxRelease fun _ => .step trivial fun _ => ?_
  exact .when ⟨trivial, fun _ => trivial⟩

/-- Every command does the same for two messages that say the same. -/
theorem fn_alike (hroot : I.object 0 0) (c : Command) : Alike I (c.fn opts id) (c.fn opts id) := by
  cases c with
  | hello => exact cmdHello_alike hroot
  | authenticate => exact cmdAuthenticate_alike hroot
  | getCapabilities => exact Silent.alike (.step trivial fun _ => silent_sendOk ..)
  | setFrequency => exact cmdSetFrequency_alike hroot
  | setSampleRate => exact cmdSetSampleRate_alike hroot
  | setControl => exact cmdSetControl_alike hroot
  | openStream => exact cmdOpenStream_alike hroot
  | startRx => exact cmdStartRx_alike hroot
  | stopRx => exact cmdStopRx_alike hroot
  | closeStream => exact cmdCloseStream_alike hroot
  | ping => exact (silent_sendOk ..).alike
  | getStatus =>
    exact Silent.alike (.step trivial fun _ => .step trivial fun _ => .step trivial fun _ =>
      .step trivial fun _ => .step trivial fun _ => .step trivial fun _ => silent_sendOk ..)
  | getControl => exact cmdGetControl_alike hroot
  | getClockStatus => exact Silent.alike (.step trivial fun _ => silent_sendOk ..)

/-! ## A round of a session thread -/

/-- The same command, of a message whose root is an object, or none. -/
def SameCommand (I : Indices) (r r' : Option (Command × CStr)) : Prop :=
  r = r' ∧ (r.isSome = true → I.object 0 0)

/-- The envelope of a message. -/
theorem envelope_rel (hroot : I.typed 0 0) {n n' : ℤ} (hn : n < 1 ↔ n' < 1) :
    Rel (Asks I) (SameCommand I) (envelope opts n) (envelope opts n') := by
  have hanswered : ∀ q : Prog Op Unit, Silent q → Rel (Asks I) (SameCommand I)
      (do q; return none) (do q; return none) :=
    fun q hq => hq.alike.bind fun _ _ _ => .pure ⟨rfl, nofun⟩
  have herror : ∀ (id : CStr) (code : ErrorCode) (message : String), Rel (Asks I) (SameCommand I)
      (do sendError id code message; return none) (do sendError id code message; return none) :=
    fun _ _ _ => hanswered _ (silent_sendError ..)
  unfold envelope
  simp only [hn]
  refine .ite (herror ..) (rel_type hroot fun ty hobj _ => ?_)
  -- what is not an object is answered without looking into it
  by_cases hty : ty = .object
  swap
  · rw [if_pos hty]
    exact herror ..
  rw [if_neg (not_not.mpr hty)]
  have hkey : ∀ key : String, key ≠ "params" → Rel (Asks I) (Found I key)
      (perform (.tokFindKey 0 key)) (perform (.tokFindKey 0 key)) := fun key hne =>
    .perform (.tokFindKey (hobj hty) fun heq => absurd heq hne)
  -- the three keys are there in both messages, or one of them is in neither
  refine (hkey "type" (by decide)).bind fun t t' ht => ?_
  refine (hkey "id" (by decide)).bind fun i i' hi => ?_
  refine (hkey "command" (by decide)).bind fun c c' hc => ?_
  cases ht with
  | none => exact herror ..
  | some _ ht _ =>
    cases hi with
    | none => exact herror ..
    | some _ hi _ =>
      cases hc with
      | none => exact herror ..
      | some _ hc _ =>
        refine rel_ask (.tokEq (ht (by decide)) _) fun b => .ite (.pure ⟨rfl, nofun⟩) ?_
        refine rel_ask (.tokStr (hi (by decide)) _) fun id =>
          rel_ask (.tokStr (hc (by decide)) _) fun cmd => ?_
        refine rel_ask (.silent trivial) fun s => .ite (herror ..) ?_
        -- what follows does not read the message, except for the function that is addressed
        have hrest : ∀ gated : Bool, Rel (Asks I) (SameCommand I)
            (envelope.dispatch opts id cmd gated) (envelope.dispatch opts id cmd gated) := by
          intro gated
          unfold envelope.dispatch
          refine .ite (hanswered _ (.ite (silent_sendError ..) (silent_sendError ..))) ?_
          cases dispatchTable.find? (·.name = cmd) with
          | none => exact herror ..
          | some c => exact .pure ⟨rfl, fun _ => hobj hty⟩
        exact .ite ((cmdAddressesRx_alike (hobj hty) cmd).bind fun b _ h => h ▸ hrest b) (hrest false)

/-- A round of the loop asks the same questions about two messages with related roots. -/
theorem sessionRound_alike (hroot : I.typed 0 0) {n n' : ℤ} (hn : n < 1 ↔ n' < 1) :
    Alike I (sessionRound opts n) (sessionRound opts n') := by
  have hmessage : Alike I (handleMessage opts n) (handleMessage opts n') := by
    refine (envelope_rel hroot hn).bind fun r r' hr => ?_
    obtain ⟨rfl, hobject⟩ := hr
    cases r with
    | none => exact .pure rfl
    | some r => exact fn_alike (hobject rfl) r.1
  refine hmessage.andThen fun _ => Silent.alike (.step trivial fun s => ?_)
  exact .when (silent_sessionDestroy opts)

end

end SlcRtld.Control
