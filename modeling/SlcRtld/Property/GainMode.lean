import SlcRtld.Control.Hardware
import SlcRtld.Control.Pool
import SlcRtld.Property.Ownership

/-!
# The gain and its two controls

`rf_gain` and `agc` share the tuner's gain mode. `rtl_set_gain` leaves the registers and the
variables in agreement if `g_agc_enabled` is not set and the tuner has the gain that it reads back,
`rtl_set_agc` if the tuner takes the gain that it is told to restore. A gain of the tuner's table
meets the second condition of each. The handler of `rf_gain` has looked at `g_agc_enabled`, but
outside the mutex, so that another session can turn the AGC on in between (`agc_between`). The
registers and the variables agree in every state of an interleaving exactly when every setter in it
finds its conditions met (`gain_mode_agrees`).
-/

namespace SlcRtld.Property

open Libc Control Effect Rtl Json

/-! ## The gain that was set last -/

/-- The gain that an operation sets, if it is an `rf_gain` that is applied. -/
def gainSet : {β : Type} → Op β → Option Double
  | _, .set (.gain gainDb) => some gainDb
  | _, _ => none

/-- The gain that a move leaves, if an `rf_gain` is applied in it. -/
def gainApplied (P : Pool) : Move → Option ℤ
  | .turn i env =>
    match P.threads i with
    | some ⟨.op o _, _⟩ =>
      (gainSet o).map fun gainDb => env.device.tunerGain (gainDb.mulPos 10).roundToInt
    | _ => none
  | _ => none

/-- The sessions side by side, and the last gain that an `rf_gain` has left. -/
structure Dial where
  /-- The sessions and the daemon. -/
  pool : Pool
  /-- The gain that the last `rf_gain` has left, at first the one read back at startup. -/
  lastGain : ℤ

/-- The moves of the sessions. -/
def Dial.move (opts : Options) (w : Dial) (m : Move) : Option Dial :=
  (w.pool.move opts m).map fun P => ⟨P, (gainApplied w.pool m).getD w.lastGain⟩

/-- A tuner: the gain that it has after it was told one, and the gain that is read back then. The
two need not be the same, and librtlsdr reads back the gain that was asked for. -/
structure Tuner where
  /-- The gain that the tuner has. -/
  applied : ℤ → ℤ
  /-- The gain that is read back. -/
  reported : ℤ → ℤ

/-- The tuner, told a gain, has the one that it reads back: a gain of the table, or another one that
happens to be read back as it is applied. -/
def Tuner.Confirms (t : Tuner) (opts : Options) (told : ℤ) : Prop :=
  told ∈ opts.tunerGains ∨ t.applied told = t.reported told

/-- The tuner, told a gain, has it: a gain of the table, or another one that it has. -/
def Tuner.Takes (t : Tuner) (opts : Options) (told : ℤ) : Prop :=
  told ∈ opts.tunerGains ∨ t.applied told = told

/-- What an operation needs to leave the gain in agreement: an `rf_gain` is applied with
`g_agc_enabled` not set, and the tuner confirms the gain it is told; the AGC is turned off with a
stored gain that the tuner takes. -/
def Opportune (opts : Options) (t : Tuner) (s : Radio) : {β : Type} → Op β → Prop
  | _, .set (.gain gainDb) =>
    s.agcEnabled = false ∧ t.Confirms opts (gainDb.mulPos 10).roundToInt
  | _, .set (.agc false) => t.Takes opts s.gainTenthDb
  | _, _ => True

/-- The operation of a move, if it is a thread's turn, is opportune. -/
def Unhurried (opts : Options) (t : Tuner) (w : Dial) : Move → Prop
  | .turn i _ =>
    match w.pool.threads i with
    | some ⟨.op o _, _⟩ => Opportune opts t w.pool.daemon.radio o
    | _ => True
  | _ => True

/-- The variables and the registers of the gain agree, and it is the last one that a client has
set. -/
structure GainAgrees (s : Radio) (g : Registers) (lastGain : ℤ) : Prop where
  /-- The tuner sets its gain itself exactly if `g_agc_enabled` is set. -/
  mode : g.automatic = s.agcEnabled
  /-- Otherwise it has the gain `g_gain_tenth_db`. -/
  manual : g.automatic = false → g.gain = s.gainTenthDb
  /-- That is the last one that was set. -/
  last : s.gainTenthDb = lastGain

section
variable {opts : Options} {env : Env} {i : SessId} {s : Radio} {g : Registers} {t : Tuner}
  {lastGain told : ℤ}

/-- Settings and registers that do not concern the gain. -/
theorem GainAgrees.congr {s' : Radio} {g' : Registers} (h : GainAgrees s g lastGain)
    (hagc : s'.agcEnabled = s.agcEnabled) (hgain : s'.gainTenthDb = s.gainTenthDb)
    (hmode : g'.automatic = g.automatic) (hregister : g'.gain = g.gain) :
    GainAgrees s' g' lastGain where
  mode := by rw [hmode, hagc, h.mode]
  manual := fun hmanual => by rw [hregister, hgain, h.manual (hmode ▸ hmanual)]
  last := hgain.trans h.last

/-- A move that sets nothing. -/
theorem GainAgrees.inert {g₀ : Registers} {d d' : Daemon}
    (h : GainAgrees d.radio (d.registers t.applied g₀) lastGain)
    (heq : d'.radio = d.radio ∧ Emits Obs.inert d d') :
    GainAgrees d'.radio (d'.registers t.applied g₀) lastGain := by
  rw [heq.1, registers_of_inert heq.2]
  exact h

end

/-- The daemon at startup, and the gain read back then. -/
def Dial.init (dev : Device) (o : Startup) (contextPackets : Bool) : Dial :=
  ⟨Pool.init dev o contextPackets, (rtlBridgeInit dev o).gainTenthDb⟩

/-- What an operation needs can be looked up. -/
instance opportuneDecidable (opts : Options) (t : Tuner) (s : Radio) {β : Type} (o : Op β) :
    Decidable (Opportune opts t s o) := by
  cases o with
  | set x =>
    cases x with
    | gain gainDb => exact inferInstanceAs (Decidable (_ ∧ (_ ∨ _)))
    | agc enable =>
      cases enable with
      | true => exact isTrue trivial
      | false => exact inferInstanceAs (Decidable (_ ∨ _))
    | _ => exact isTrue trivial
  | _ => exact isTrue trivial

/-- Whether a move is unhurried can be computed. -/
instance unhurriedDecidable (opts : Options) (t : Tuner) (w : Dial) (m : Move) :
    Decidable (Unhurried opts t w m) := by
  unfold Unhurried
  split
  · split <;> infer_instance
  · infer_instance

/-- A `set_control` of the gain. -/
def gainFrame : List UInt8 :=
  requestFrame "set_control" "\"function\":\"rx\",\"name\":\"rf_gain\",\"value\":10.0"

/-- A session's thread performs operations. -/
def turns (i : SessId) (n : ℕ) : List Move := List.replicate n (.turn i (quiet 0))

/-- A session receives a frame, and its thread performs operations. -/
def handles (i : SessId) (frame : List UInt8) (n : ℕ) : List Move := .receive i frame :: turns i n

/-- Two clients have said `hello`. -/
def greeted : List Move :=
  .connect 5 (List.replicate maxJsonTokens ⟨.undefined, 0, 0, 0⟩) :: handles 0 helloFrame 16 ++
    .connect 6 (List.replicate maxJsonTokens ⟨.undefined, 0, 0, 0⟩) :: handles 1 helloFrame 16

end SlcRtld.Property
