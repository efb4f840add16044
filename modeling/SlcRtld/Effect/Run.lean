import Mathlib.Data.Option.Basic
import Mathlib.Data.List.Basic

/-!
# Runs of a step function

A system is a step function from a state and an action to the next state; an action that is not
possible, or that ends the system, has no next state. A run is a list of actions performed in order
(`runActs`). `Along` says that every step taken in a run has a property, stated of the state before,
the action and the state after; `Always` says it of every state visited. An invariant that the steps
of one kind keep is carried over a run whose steps are all of that kind by `along_of_invariant`, and
`along_iff` turns it into an equivalence where a step of another kind breaks the property at once.
-/

namespace SlcRtld.Effect

universe u v

variable {σ : Type u} {α : Type v} (step : σ → α → Option σ)

/-- The state after the actions in order, when every one of them is possible. -/
def runActs : σ → List α → Option σ
  | s, [] => some s
  | s, a :: as => (step s a).bind fun s' => runActs s' as

/-- Every step taken along the run has the property `T`. -/
def Along (T : σ → α → σ → Prop) : σ → List α → Prop
  | _, [] => True
  | s, a :: as => ∀ s', step s a = some s' → T s a s' ∧ Along T s' as

/-- Every state visited along the run, the first and the last included, satisfies `I`. -/
def Always (I : σ → Prop) (s : σ) (acts : List α) : Prop :=
  I s ∧ Along step (fun _ _ s' => I s') s acts

/-- The states that some run reaches from `s₀`. -/
def Reachable (s₀ s : σ) : Prop := ∃ acts, runActs step s₀ acts = some s

variable {step}

/-- No actions. -/
@[simp] theorem runActs_nil (s : σ) : runActs step s [] = some s := rfl

/-- The first action, and then the others. -/
theorem runActs_cons (s : σ) (a : α) (as : List α) :
    runActs step s (a :: as) = (step s a).bind fun s' => runActs step s' as := rfl

/-- A run of two lists of actions is the run of the second from where the first ends. -/
theorem runActs_append (s : σ) (as bs : List α) :
    runActs step s (as ++ bs) = (runActs step s as).bind fun s' => runActs step s' bs := by
  induction as generalizing s with
  | nil => rfl
  | cons a as ih =>
    rw [List.cons_append, runActs_cons, runActs_cons, Option.bind_assoc]
    exact congrArg _ (funext fun s' => ih s')

/-- The initial state. -/
theorem Reachable.refl (s₀ : σ) : Reachable step s₀ s₀ := ⟨[], rfl⟩

/-- What holds at first and is kept by every step of a kind holds at the end of a run whose actions
are all of that kind. -/
theorem runActs_invariant {I : σ → Prop} {P : α → Prop}
    (hstep : ∀ s a s', I s → P a → step s a = some s' → I s') {s₀ s : σ} {acts : List α} (h₀ : I s₀)
    (hacts : ∀ a ∈ acts, P a) (hrun : runActs step s₀ acts = some s) : I s := by
  induction acts generalizing s₀ with
  | nil =>
    rw [runActs_nil, Option.some.injEq] at hrun
    exact hrun ▸ h₀
  | cons a as ih =>
    obtain ⟨ha, has⟩ := List.forall_mem_cons.mp hacts
    rw [runActs_cons, Option.bind_eq_some_iff] at hrun
    obtain ⟨s₁, hs₁, hrest⟩ := hrun
    exact ih (hstep s₀ a s₁ h₀ ha hs₁) has hrest

/-- The induction rule of reachability: what holds at first and is kept by every step holds in
every reachable state. -/
theorem Reachable.invariant {I : σ → Prop} {s₀ s : σ} (h : Reachable step s₀ s) (h₀ : I s₀)
    (hstep : ∀ s a s', I s → step s a = some s' → I s') : I s := by
  obtain ⟨acts, hacts⟩ := h
  exact runActs_invariant (P := fun _ => True) (fun s a s' hI _ hs => hstep s a s' hI hs) h₀
    (fun _ _ => trivial) hacts

/-! ## Properties along a run -/

/-- Of a given run, a decidable property of its steps can be checked. -/
instance Along.decidable {T : σ → α → σ → Prop} [∀ s a s', Decidable (T s a s')] :
    ∀ s acts, Decidable (Along step T s acts)
  | _, [] => isTrue trivial
  | s, a :: as =>
    match h : step s a with
    | none => isTrue fun s' hs' => by rw [h] at hs'; cases hs'
    | some s' =>
      have := Along.decidable (T := T) s' as
      decidable_of_iff (T s a s' ∧ Along step T s' as)
        ⟨fun ht s'' hs'' => by rw [h] at hs''; exact Option.some.inj hs'' ▸ ht, fun ht => ht s' h⟩

/-- An invariant of a run is decided state by state. -/
instance Always.decidable {I : σ → Prop} [DecidablePred I] (s : σ) (acts : List α) :
    Decidable (Always step I s acts) :=
  inferInstanceAs (Decidable (_ ∧ _))

/-- A property of steps may be weakened. -/
theorem Along.mono {T U : σ → α → σ → Prop} (hTU : ∀ s a s', step s a = some s' → T s a s' → U s a s')
    {s : σ} {acts : List α} (h : Along step T s acts) : Along step U s acts := by
  induction acts generalizing s with
  | nil => trivial
  | cons a as ih =>
    intro s' hs'
    obtain ⟨hT, has⟩ := h s' hs'
    exact ⟨hTU s a s' hs' hT, ih has⟩

/-- A property of every step of a run is one of every step of its two parts. -/
theorem Along.append {T : σ → α → σ → Prop} {s s' : σ} {as bs : List α}
    (h : Along step T s (as ++ bs)) (hrun : runActs step s as = some s') :
    Along step T s as ∧ Along step T s' bs := by
  induction as generalizing s with
  | nil =>
    rw [runActs_nil, Option.some.injEq] at hrun
    exact ⟨trivial, hrun ▸ h⟩
  | cons a as ih =>
    rw [runActs_cons, Option.bind_eq_some_iff] at hrun
    obtain ⟨s₁, hs₁, has⟩ := hrun
    obtain ⟨hT, hrest⟩ := h s₁ hs₁
    obtain ⟨has', hbs⟩ := ih hrest has
    refine ⟨fun s₂ hs₂ => ?_, hbs⟩
    obtain rfl := Option.some.inj (hs₁.symm.trans hs₂)
    exact ⟨hT, has'⟩

/-- The invariant rule: an invariant that the steps with `C` keep, and that gives `T` of them,
gives `T` of every step of a run whose steps all have `C`. -/
theorem along_of_invariant {I : σ → Prop} {C T : σ → α → σ → Prop}
    (hstep : ∀ s a s', I s → step s a = some s' → C s a s' → I s' ∧ T s a s')
    {s : σ} {acts : List α} (hI : I s) (hC : Along step C s acts) :
    Along step T s acts := by
  induction acts generalizing s with
  | nil => trivial
  | cons a as ih =>
    intro s' hs'
    obtain ⟨hC', has⟩ := hC s' hs'
    obtain ⟨hI', hT⟩ := hstep s a s' hI hs' hC'
    exact ⟨hT, ih hI' has⟩

/-- Where moreover every step without `C` breaks `T`, a run has `T` at every step exactly when it
has `C` at every step. The actions may be restricted to those with `P`. -/
theorem along_iff {I : σ → Prop} {C T : σ → α → σ → Prop} {P : α → Prop}
    (hstep : ∀ s a s', I s → P a → step s a = some s' → C s a s' → I s' ∧ T s a s')
    (hbad : ∀ s a s', I s → P a → step s a = some s' → ¬ C s a s' → ¬ T s a s')
    {s : σ} {acts : List α} (hI : I s) (hP : ∀ a ∈ acts, P a) :
    Along step T s acts ↔ Along step C s acts := by
  induction acts generalizing s with
  | nil => exact Iff.rfl
  | cons a as ih =>
    obtain ⟨ha, has⟩ := List.forall_mem_cons.mp hP
    constructor
    · intro hT s' hs'
      obtain ⟨hT', hrest⟩ := hT s' hs'
      have hC : C s a s' := by
        by_contra hn
        exact hbad s a s' hI ha hs' hn hT'
      exact ⟨hC, (ih (hstep s a s' hI ha hs' hC).1 has).mp hrest⟩
    · intro hC s' hs'
      obtain ⟨hC', hrest⟩ := hC s' hs'
      obtain ⟨hI', hT⟩ := hstep s a s' hI ha hs' hC'
      exact ⟨hT, (ih hI' has).mpr hrest⟩

/-- What holds in every state visited holds in the last one. -/
theorem Always.last {I : σ → Prop} {s s' : σ} {acts : List α} (h : Always step I s acts)
    (hrun : runActs step s acts = some s') : I s' := by
  induction acts generalizing s with
  | nil =>
    rw [runActs_nil, Option.some.injEq] at hrun
    exact hrun ▸ h.1
  | cons a as ih =>
    rw [runActs_cons, Option.bind_eq_some_iff] at hrun
    obtain ⟨s₁, hs₁, has⟩ := hrun
    exact ih (h.2 s₁ hs₁) has

/-- A property that holds in the end but not in every state began to hold at some step, and has held
in every state since. -/
theorem exists_rise_of_not_always {Q : σ → Prop} {s₀ s : σ} {acts : List α}
    (hrun : runActs step s₀ acts = some s) (hQ : Q s) (hnot : ¬ Always step Q s₀ acts) :
    ∃ before a after s₁ s₂, acts = before ++ a :: after ∧ runActs step s₀ before = some s₁ ∧
      step s₁ a = some s₂ ∧ ¬ Q s₁ ∧ Q s₂ ∧ Always step Q s₂ after := by
  induction acts generalizing s₀ with
  | nil =>
    rw [runActs_nil, Option.some.injEq] at hrun
    exact absurd ⟨hrun ▸ hQ, trivial⟩ hnot
  | cons a as ih =>
    rw [runActs_cons, Option.bind_eq_some_iff] at hrun
    obtain ⟨s₁, hs₁, has⟩ := hrun
    by_cases hrest : Always step Q s₁ as
    · -- only the first state is without the property
      have h₀ : ¬ Q s₀ := by
        intro h₀
        refine hnot ⟨h₀, fun s' hs' => ?_⟩
        obtain rfl := Option.some.inj (hs₁.symm.trans hs')
        exact hrest
      exact ⟨[], a, as, s₀, s₁, rfl, rfl, hs₁, h₀, hrest.1, hrest⟩
    · obtain ⟨before, b, after, s₂, s₃, rfl, hbefore, hb⟩ := ih has hrest
      refine ⟨a :: before, b, after, s₂, s₃, rfl, ?_, hb⟩
      rw [runActs_cons, hs₁]
      exact hbefore

end SlcRtld.Effect
