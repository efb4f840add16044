import SlcRtld.Property.GainMode
import SlcRtld.Control.Turn

/-!
# The receiver belongs to the owner of the channel

`may_configure` asks for the owner in one critical section, and the setter that follows runs in
another one. A request that has been let through while the channel was free sets the receiver later,
whoever has claimed the channel in the meantime. That is all that can go wrong: when no other
request is past its `may_configure` at the moment of a claim, then none gets past it until the
channel is released (`exclusive_while_owned`).
-/

namespace SlcRtld.Property

open Libc Rtl Auth Vita Json Control Effect

/-- The settings that belong to the owner. The bias tee is not among them. -/
structure SameSettings (r r' : Radio) : Prop where
  freqHz : r'.freqHz = r.freqHz
  rateSps : r'.rateSps = r.rateSps
  rateRequestedSps : r'.rateRequestedSps = r.rateRequestedSps
  gainTenthDb : r'.gainTenthDb = r.gainTenthDb
  agcEnabled : r'.agcEnabled = r.agcEnabled
  ppmCorrection : r'.ppmCorrection = r.ppmCorrection
  samplingMode : r'.samplingMode = r.samplingMode

/-- The receiver is the same. -/
theorem SameSettings.of_eq {r r' : Radio} (h : r' = r) : SameSettings r r' := by
  subst h
  exact ⟨rfl, rfl, rfl, rfl, rfl, rfl, rfl⟩

/-- A move that is not the owner's leaves the settings as they are. -/
def Exclusive (P : Pool) (m : Move) (P' : Pool) : Prop :=
  ∀ A, P.daemon.rxOwner = some A → (∀ env, m ≠ .turn A env) →
    SameSettings P.daemon.radio P'.daemon.radio

/-- When a move gives the channel to a session, no other session's request is past its
`may_configure`. -/
def Unraced (P : Pool) (P' : Pool) : Prop :=
  ∀ A, P.daemon.rxOwner ≠ some A → P'.daemon.rxOwner = some A →
    ∀ j, j ≠ A → (P.track j).checked = false

/-- Whether a move is unraced can be computed. -/
instance (P P' : Pool) : Decidable (Unraced P P') :=
  inferInstanceAs (Decidable (∀ A, P.daemon.rxOwner ≠ some A → P'.daemon.rxOwner = some A →
    ∀ j, j ≠ A → (P.track j).checked = false))

/-- No session but the owner has a request past its `may_configure`. -/
def Guarded (P : Pool) : Prop :=
  ∃ ph, InStep P ph ∧ ∀ A, P.daemon.rxOwner = some A → ∀ j, j ≠ A → (ph j).track.checked = false

section
variable {opts : Options} {env : Env} {m : Msg} {i A : SessId} {d d' : Daemon} {q q' : Phase}

/-- A check that finds another owner lets nothing through. -/
theorem checked_next {β : Type} {o : Op β} {b : β} (hnext : Next q β o b q')
    (hexec : exec opts env m i β o d = some (b, d')) (howner : d.rxOwner = some A) (hne : i ≠ A)
    (hchecked : q.track.checked = false) : q'.track.checked = false := by
  have hclaim : ∀ ok, (q.track.after .rxClaim ok).checked = false := by
    rintro (_ | _) <;> exact hchecked
  cases hnext with
  | check other =>
    cases hexec
    have hother : d.rxOwnedByOther i = true := by
      simp [Daemon.rxOwnedByOther, howner, Ne.symm hne]
    simp only [Track.after, hother, Bool.not_true]
  | set x =>
    cases x <;> exact hchecked
  | claim ok => exact hclaim ok
  | _ => exact hchecked

/-- A request that has not been let through does not set what belongs to the owner. -/
theorem settings_next {β : Type} {o : Op β} {b : β} (hnext : Next q β o b q')
    (hexec : exec opts env m i β o d = some (b, d')) (hchecked : q.track.checked = false) :
    SameSettings d.radio d'.radio := by
  rcases exec_hardware hexec with ⟨x, rfl, rfl⟩ | ⟨-, hradio, -⟩
  · cases hnext with
    | set _ _ hpassed => exact nomatch hchecked.symm.trans hpassed
    | other ho =>
      cases x with
      | biasTee enable =>
        show SameSettings d.radio (rtlSetBiasTee env.device enable d.radio).2.1
        unfold rtlSetBiasTee
        split_ifs <;> exact ⟨rfl, rfl, rfl, rfl, rfl, rfl, rfl⟩
      | _ => exact absurd ho id
  · exact .of_eq hradio

end

section
variable {opts : Options} {P P' : Pool} {m : Move}

/-- A new connection does not own the channel. -/
theorem sessionCreate_owner (fd : ℕ) (stack : List Tok) (d : Daemon) :
    (d.sessionCreate fd stack).rxOwner = d.rxOwner := by
  rcases sessionCreate_cases fd stack d with h | ⟨j, -, h⟩
  · rw [h]
  · rw [h]
    rfl

/-- A request that performs an operation, and is at the next place afterwards or done. -/
theorem guarded_turn {ph : SessId → Phase} {i : SessId} {env : Env} {β : Type} {o : Op β} {b : β}
    {q r : Phase} {d' : Daemon} (hin : InStep P ph)
    (hguard : ∀ A, P.daemon.rxOwner = some A → ∀ j, j ≠ A → (ph j).track.checked = false)
    (hnext : Next (ph i) β o b q)
    (hexec : exec opts env (P.daemon.message i env) i β o P.daemon = some (b, d'))
    (hraced : ∀ A, P.daemon.rxOwner ≠ some A → d'.rxOwner = some A →
      ∀ j, j ≠ A → (P.track j).checked = false)
    (hr : r.track.checked = true → q.track.checked = true) :
    ∀ A, d'.rxOwner = some A → ∀ j, j ≠ A → (Function.update ph i r j).track.checked = false := by
  intro A howner j hj
  by_cases hA : P.daemon.rxOwner = some A
  · by_cases hji : j = i
    · subst hji
      rw [Function.update_self]
      have hq := checked_next hnext hexec hA hj (hguard A hA j hj)
      exact Bool.eq_false_of_not_eq_true fun h => nomatch hq.symm.trans (hr h)
    · rw [Function.update_of_ne hji]
      exact hguard A hA j hj
  · -- the channel has just been claimed, by the session that moves
    have hAi : A = i := by
      by_contra hne
      exact hA ((exec_others hexec hne).2.mp howner)
    subst hAi
    rw [Function.update_of_ne hj, ← hin.track j]
    exact hraced A hA howner j hj

/-- One move keeps the invariant, and the receiver as long as another session owns it. -/
theorem Guarded.next (h : Guarded P) (hmove : P.move opts m = some P') (hraced : Unraced P P') :
    Guarded P' ∧ Exclusive P m P' := by
  obtain ⟨ph, hin, hguard⟩ := h
  obtain ⟨ph', hin', hturn⟩ := hin.next hmove
  obtain ⟨d', threads'⟩ := P'
  cases hturn with
  | connect fd stack =>
    refine ⟨⟨ph, hin', fun A hA => hguard A ?_⟩, fun A _ _ => .of_eq ?_⟩
    · rw [← sessionCreate_owner fd stack]
      exact hA
    · exact (sessionCreate_hardware fd stack P.daemon).1
  | receive | disconnect => exact ⟨⟨ph, hin', hguard⟩, fun A _ _ => .of_eq rfl⟩
  | usb buf nowMs =>
    obtain ⟨-, howner, hradio, -⟩ := rtlCallback_frame buf nowMs P.daemon
    exact ⟨⟨ph, hin', fun A hA => hguard A (howner.symm.trans hA)⟩, fun A _ _ => .of_eq hradio⟩
  | @go i env _ _ _ _ _ hnext hexec =>
    refine ⟨⟨_, hin', guarded_turn hin hguard hnext hexec hraced id⟩, fun A hA hne => ?_⟩
    exact settings_next hnext hexec (hguard A hA i fun heq => hne env (heq ▸ rfl))
  | @finish i env _ _ _ _ _ _ hnext hexec =>
    refine ⟨⟨_, hin', guarded_turn hin hguard hnext hexec hraced nofun⟩, fun A hA hne => ?_⟩
    exact settings_next hnext hexec (hguard A hA i fun heq => hne env (heq ▸ rfl))

end

/-- In every interleaving in which no other request is past its `may_configure` when the channel is
claimed: as long as a session owns the channel, no move but its own changes the settings. -/
theorem exclusive_while_owned (opts : Options) (dev : Device) (o : Startup) (contextPackets : Bool)
    (ms : List Move)
    (hraced : Along (Pool.move opts) (fun P _ P' => Unraced P P') (Pool.init dev o contextPackets) ms) :
    Along (Pool.move opts) Exclusive (Pool.init dev o contextPackets) ms := by
  have hstart : Guarded (Pool.init dev o contextPackets) :=
    ⟨_, inStep_init dev o contextPackets, nofun⟩
  have hnext : ∀ P m P', Guarded P → Pool.move opts P m = some P' → Unraced P P' →
      Guarded P' ∧ Exclusive P m P' := fun _ _ _ h hmove hC => h.next hmove hC
  exact along_of_invariant hnext hstart hraced

/-- One client tunes, the other one opens a stream, and the first one is refused when it tunes
again. -/
def tunesInOrder : List Move :=
  greeted ++ handles 1 (tuneFrame "100000000") 20 ++ handles 0 openFrame 33 ++
    handles 1 (tuneFrame "200000000") 15

/-- The frequency is still the first one. -/
theorem exclusive_while_owned_in_order :
    (runActs (Pool.move openAccess) (Pool.init obedient ⟨.normal, false, false, 0, 0⟩ true)
      tunesInOrder).any (fun P => P.daemon.rxOwner = some 0 ∧ (P.threads 1).isNone ∧
        P.daemon.radio.freqHz = 100000000) = true ∧
    Along (Pool.move openAccess) Exclusive (Pool.init obedient ⟨.normal, false, false, 0, 0⟩ true)
      tunesInOrder :=
  ⟨by decide +kernel, exclusive_while_owned openAccess obedient _ true tunesInOrder (by decide +kernel)⟩

/-- One client has been let through by `may_configure` and has read its parameter when the other one
opens a stream. Then it tunes. -/
theorem retuned_after_claim :
    (runActs (Pool.move openAccess) (Pool.init obedient ⟨.normal, false, false, 0, 0⟩ true)
      (greeted ++ handles 1 (tuneFrame "100000000") 16 ++ handles 0 openFrame 33)).any (fun P =>
        P.daemon.rxOwner = some 0 ∧ (P.threads 0).isNone ∧ P.daemon.radio.freqHz ≠ 100000000 ∧
        (P.move openAccess (.turn 1 (quiet 0))).any (fun P' =>
          P'.daemon.rxOwner = some 0 ∧ P'.daemon.radio.freqHz = 100000000) = true) = true := by
  decide +kernel

end SlcRtld.Property
