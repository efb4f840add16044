import Mathlib.Data.Option.Basic
import Mathlib.Tactic.SplitIfs

/-!
# Programs over a signature of operations

A program is a tree of operations: it is finished with a result, or it performs an operation and
goes on with the operation's answer. What an operation does to a state is given separately, by an
executor, so one program text has several meanings: run to its end in one go (`Prog.run`), or
performed one operation at a time among other programs. An executor may fail, and a run that meets
a failing operation has no result.

The rules below are those of a program logic. `Prog.Uses` says that every operation a program can
reach is of a given kind, and `run_rel` and `run_sim` carry what all operations of the kind do to
the state, or to a pair of states, over a whole run. `Post` is the weakest precondition of a
postcondition, for the programs whose operations have to be followed one by one; it says nothing of
a run without a result, and `Yields` says that there is one.
-/

namespace SlcRtld.Effect

universe u

/-- A program over the operations `Op`, where an operation `o : Op β` answers with a `β`. -/
inductive Prog (Op : Type → Type u) (α : Type) : Type (max 1 u) where
  /-- The program that is finished, with its result. -/
  | pure (a : α) : Prog Op α
  /-- An operation, and how the program goes on with its answer. -/
  | op {β : Type} (o : Op β) (k : β → Prog Op α) : Prog Op α

/-- What the operations do: from a state, the answer and the next state, or a failure. -/
abbrev Exec (Op : Type → Type u) (σ : Type) : Type (max 1 u) :=
  ∀ β : Type, Op β → σ → Option (β × σ)

namespace Prog

variable {Op : Type → Type u} {α β : Type} {σ τ : Type}

/-- Sequencing: the second program takes the place of the first one's result. -/
def bind : Prog Op α → (α → Prog Op β) → Prog Op β
  | .pure a, f => f a
  | .op o k, f => .op o fun b => (k b).bind f

/-- A program, and then another that gets its result. -/
instance : Monad (Prog Op) where
  pure := .pure
  bind := bind

/-- One operation as a program. -/
def perform (o : Op α) : Prog Op α := .op o .pure

/-- A program that is run when a condition holds. -/
def when (c : Bool) (p : Prog Op Unit) : Prog Op Unit := if c then p else .pure ()

/-- One spelling for a result. -/
@[simp] theorem pure_eq (a : α) : (Prog.pure a : Prog Op α) = Pure.pure a := rfl

/-- One spelling for a sequence. -/
@[simp] theorem bind_eq (p : Prog Op α) (f : α → Prog Op β) : p.bind f = p >>= f := rfl

/-- The rest of a program comes behind its first operation. -/
@[simp] theorem op_bind {γ : Type} (o : Op γ) (k : γ → Prog Op α) (f : α → Prog Op β) :
    (Prog.op o k >>= f) = Prog.op o fun b => k b >>= f := rfl

/-- Mapping the identity over a program leaves it as it is. -/
theorem id_map' (p : Prog Op α) : id <$> p = p := by
  induction p with
  | pure a => rfl
  | op o k ih => exact congrArg (Prog.op o) (funext ih)

/-- Sequencing is associative. -/
theorem bind_assoc' {γ : Type} (p : Prog Op α) (f : α → Prog Op β) (g : β → Prog Op γ) :
    p >>= f >>= g = p >>= fun a => f a >>= g := by
  induction p with
  | pure a => rfl
  | op o k ih => exact congrArg (Prog.op o) (funext ih)

/-- Programs in sequence do not depend on how they are bracketed. -/
instance : LawfulMonad (Prog Op) :=
  LawfulMonad.mk' _ id_map' (fun _ _ => rfl) bind_assoc'

/-! ## Running a program to its end -/

/-- The run of a program from a state, without anything in between. -/
def run (exec : Exec Op σ) : Prog Op α → σ → Option (α × σ)
  | .pure a, s => some (a, s)
  | .op o k, s => (exec _ o s).bind fun r => (k r.1).run exec r.2

/-- A result leaves the state. -/
@[simp] theorem run_pure (exec : Exec Op σ) (a : α) (s : σ) :
    (Pure.pure a : Prog Op α).run exec s = some (a, s) := rfl

/-- A run begins with the first operation. -/
theorem run_op (exec : Exec Op σ) {γ : Type} (o : Op γ) (k : γ → Prog Op α) (s : σ) :
    (Prog.op o k).run exec s = (exec _ o s).bind fun r => (k r.1).run exec r.2 := rfl

/-- A run of two programs in sequence is the run of the second from where the first ends. -/
theorem run_bind (exec : Exec Op σ) (p : Prog Op α) (f : α → Prog Op β) (s : σ) :
    (p >>= f).run exec s = (p.run exec s).bind fun r => (f r.1).run exec r.2 := by
  induction p generalizing s with
  | pure a => rfl
  | op o k ih =>
    rw [op_bind, run_op, run_op, Option.bind_assoc]
    exact congrArg _ (funext fun r => ih r.1 r.2)

/-- A run of one operation. -/
@[simp] theorem run_perform (exec : Exec Op σ) (o : Op α) (s : σ) :
    (perform o).run exec s = exec _ o s := by
  rw [perform, run_op]
  cases exec _ o s with
  | none => rfl
  | some r => rfl

/-- A program goes on after an operation that has an answer. -/
theorem run_perform_bind {exec : Exec Op σ} {o : Op α} {s s' : σ} {a : α}
    (h : exec _ o s = some (a, s')) (f : α → Prog Op β) :
    (perform o >>= f).run exec s = (f a).run exec s' := by
  rw [run_bind, run_perform, h, Option.bind_some]

/-! ## The kinds of operation a program uses -/

/-- Every operation that the program can reach, whatever the answers before it, satisfies `P`. -/
def Uses (P : ∀ β : Type, Op β → Prop) : Prog Op α → Prop
  | .pure _ => True
  | .op o k => P _ o ∧ ∀ b, (k b).Uses P

variable {P Q : ∀ β : Type, Op β → Prop}

/-- A result uses none. -/
@[simp] theorem uses_pure (a : α) : (Pure.pure a : Prog Op α).Uses P := trivial

/-- One operation uses itself. -/
@[simp] theorem uses_perform (o : Op α) : (perform o).Uses P ↔ P _ o :=
  ⟨fun h => h.1, fun h => ⟨h, fun _ => trivial⟩⟩

/-- A sequence uses what its parts use. -/
theorem Uses.bind {p : Prog Op α} {f : α → Prog Op β} (hp : p.Uses P)
    (hf : ∀ a, (f a).Uses P) : (p >>= f).Uses P := by
  induction p with
  | pure a => exact hf a
  | op o k ih => exact ⟨hp.1, fun b => ih b (hp.2 b)⟩

/-- An operation first, and then the rest. -/
theorem Uses.step {o : Op α} {f : α → Prog Op β} (ho : P _ o) (hf : ∀ a, (f a).Uses P) :
    (perform o >>= f).Uses P :=
  ⟨ho, hf⟩

/-- A conditional uses what its branches use. -/
theorem Uses.ite {c : Prop} [Decidable c] {p q : Prog Op α} (hp : p.Uses P) (hq : q.Uses P) :
    (if c then p else q).Uses P := by
  split_ifs
  · exact hp
  · exact hq

/-- A program under a condition. -/
theorem Uses.when {c : Bool} {p : Prog Op Unit} (hp : p.Uses P) : (Prog.when c p).Uses P :=
  Uses.ite hp (uses_pure ())

/-- Every program uses operations. -/
theorem uses_true (p : Prog Op α) : p.Uses fun _ _ => True := by
  induction p with
  | pure a => trivial
  | op o k ih => exact ⟨trivial, ih⟩

/-! ## What a run does to the state -/

/-- A reflexive and transitive relation that every operation of the kind keeps between the states
before and after it holds between the two ends of a run. -/
theorem run_rel {exec : Exec Op σ} (R : σ → σ → Prop) (hrefl : ∀ s, R s s)
    (htrans : ∀ s t w, R s t → R t w → R s w)
    (hop : ∀ (β : Type) (o : Op β) (s : σ) (b : β) (s' : σ),
      P β o → exec β o s = some (b, s') → R s s')
    {p : Prog Op α} (hp : p.Uses P) {s : σ} {a : α} {s' : σ}
    (h : p.run exec s = some (a, s')) : R s s' := by
  induction p generalizing s with
  | pure b =>
    simp only [pure_eq, run_pure, Option.some.injEq, Prod.mk.injEq] at h
    rw [h.2]
    exact hrefl s'
  | op o k ih =>
    rw [run_op, Option.bind_eq_some_iff] at h
    obtain ⟨⟨b, t⟩, hb, hk⟩ := h
    exact htrans s t s' (hop _ o s b t hp.1 hb) (ih b (hp.2 b) hk)

/-- A relation between the states of two executors that every operation of the kind keeps, with
the same answers, is kept by a run, with the same result. -/
theorem run_sim {exec₁ : Exec Op σ} {exec₂ : Exec Op τ} (R : σ → τ → Prop)
    (hop : ∀ (β : Type) (o : Op β) (s : σ) (t : τ) (b : β) (s' : σ), P β o → R s t →
      exec₁ β o s = some (b, s') → ∃ t', exec₂ β o t = some (b, t') ∧ R s' t')
    {p : Prog Op α} (hp : p.Uses P) {s : σ} {t : τ} {a : α} {s' : σ} (hR : R s t)
    (h : p.run exec₁ s = some (a, s')) : ∃ t', p.run exec₂ t = some (a, t') ∧ R s' t' := by
  induction p generalizing s t with
  | pure b =>
    simp only [pure_eq, run_pure, Option.some.injEq, Prod.mk.injEq] at h
    obtain ⟨rfl, rfl⟩ := h
    exact ⟨t, rfl, hR⟩
  | op o k ih =>
    rw [run_op, Option.bind_eq_some_iff] at h
    obtain ⟨⟨b, s₁⟩, hb, hk⟩ := h
    obtain ⟨t₁, ht₁, hR₁⟩ := hop _ o s t b s₁ hp.1 hR hb
    obtain ⟨t', ht', hR'⟩ := ih b (hp.2 b) hR₁ hk
    exact ⟨t', by rw [run_op, ht₁]; exact ht', hR'⟩

/-! ## Postconditions -/

/-- The weakest precondition of `Q`: a run from `s` that has a result ends in `Q`. -/
def Post (exec : Exec Op σ) (p : Prog Op α) (Q : α → σ → Prop) (s : σ) : Prop :=
  ∀ a s', p.run exec s = some (a, s') → Q a s'

variable {exec : Exec Op σ}

/-- A result. -/
@[simp] theorem post_pure (a : α) (Q : α → σ → Prop) (s : σ) :
    Post exec (Pure.pure a : Prog Op α) Q s ↔ Q a s := by
  simp [Post]

/-- The postcondition of a sequence, through the state between its parts. -/
@[simp] theorem post_bind (p : Prog Op α) (f : α → Prog Op β) (Q : β → σ → Prop) (s : σ) :
    Post exec (p >>= f) Q s ↔ Post exec p (fun a t => Post exec (f a) Q t) s := by
  simp only [Post, run_bind, Option.bind_eq_some_iff, Prod.exists]
  exact ⟨fun h a t ht b s' hs' => h b s' ⟨a, t, ht, hs'⟩,
    fun h b s' ⟨a, t, ht, hs'⟩ => h a t ht b s' hs'⟩

/-- One operation. -/
theorem post_perform (o : Op α) (Q : α → σ → Prop) (s : σ) :
    Post exec (perform o) Q s ↔ ∀ a s', exec _ o s = some (a, s') → Q a s' := by
  simp [Post]

/-- A conditional meets a postcondition when both branches do, each under its condition. -/
theorem post_ite {c : Prop} [Decidable c] {p q : Prog Op α} {Q : α → σ → Prop} {s : σ}
    (hp : c → Post exec p Q s) (hq : ¬ c → Post exec q Q s) :
    Post exec (if c then p else q) Q s := by
  split_ifs with hc
  · exact hp hc
  · exact hq hc

/-- A conditional program either runs or does nothing. -/
theorem post_when {c : Bool} {p : Prog Op Unit} {Q : Unit → σ → Prop} {s : σ} :
    Post exec (when c p) Q s ↔ (c = true → Post exec p Q s) ∧ (c = false → Q () s) := by
  cases c
  · simp [when]
  · simp [when]

/-- A postcondition may be weakened. -/
theorem Post.mono {p : Prog Op α} {Q R : α → σ → Prop} {s : σ} (h : Post exec p Q s)
    (hQR : ∀ a s', Q a s' → R a s') : Post exec p R s :=
  fun a s' hs => hQR a s' (h a s' hs)

/-- A program whose weakest preconditions all ask for one result in one state has that result. -/
theorem run_of_post {p : Prog Op α} {s : σ} {a : α} {s' : σ}
    (h : ∀ Q : α → σ → Prop, Post exec p Q s ↔ Q a s') : p.run exec s = some (a, s') := by
  cases hrun : p.run exec s with
  | none => exact ((h fun _ _ => False).mp fun b t hb => by simp [hrun] at hb).elim
  | some r =>
    have hr := (h fun b t => some r = some (b, t)).mp fun b t hb => hrun.symm.trans hb
    exact hr

/-- A program that has a result meets the postconditions that hold of it. -/
theorem post_of_run {p : Prog Op α} {s : σ} {a : α} {s' : σ} (h : p.run exec s = some (a, s'))
    (Q : α → σ → Prop) : Post exec p Q s ↔ Q a s' := by
  constructor
  · intro hpost
    exact hpost a s' h
  · intro hQ b t hb
    cases Option.some.inj (h.symm.trans hb)
    exact hQ

/-! ## Results -/

/-- The program has a result from `s`, which it ends with in `Q`. -/
def Yields (exec : Exec Op σ) (p : Prog Op α) (Q : α → σ → Prop) (s : σ) : Prop :=
  ∃ a s', p.run exec s = some (a, s') ∧ Q a s'

/-- A program whose result is known ends in what holds of it. -/
theorem yields_of_run {p : Prog Op α} {s : σ} {a : α} {s' : σ} (h : p.run exec s = some (a, s'))
    (Q : α → σ → Prop) : Yields exec p Q s ↔ Q a s' := by
  constructor
  · rintro ⟨b, t, hb, hQ⟩
    cases Option.some.inj (h.symm.trans hb)
    exact hQ
  · exact fun hQ => ⟨a, s', h, hQ⟩

/-- A program whose weakest preconditions all ask for one result in one state ends with it. -/
theorem yields_of_post {p : Prog Op α} {s : σ} {a : α} {s' : σ}
    (h : ∀ Q : α → σ → Prop, Post exec p Q s ↔ Q a s') (Q : α → σ → Prop) :
    Yields exec p Q s ↔ Q a s' :=
  yields_of_run (run_of_post h) Q

/-- A result. -/
theorem yields_pure (a : α) (Q : α → σ → Prop) (s : σ) :
    Yields exec (Pure.pure a : Prog Op α) Q s ↔ Q a s :=
  yields_of_run rfl Q

/-- A sequence ends where its second part does, from the end of the first. -/
theorem yields_bind (p : Prog Op α) (f : α → Prog Op β) (Q : β → σ → Prop) (s : σ) :
    Yields exec (p >>= f) Q s ↔ Yields exec p (fun a t => Yields exec (f a) Q t) s := by
  simp only [Yields, run_bind, Option.bind_eq_some_iff, Prod.exists]
  constructor
  · rintro ⟨b, s', ⟨a, t, ha, hb⟩, hQ⟩
    exact ⟨a, t, ha, b, s', hb, hQ⟩
  · rintro ⟨a, t, ha, b, s', hb, hQ⟩
    exact ⟨b, s', ⟨a, t, ha, hb⟩, hQ⟩

/-- A conditional ends where its branches do, each under its condition. -/
theorem yields_ite {c : Prop} [Decidable c] {p q : Prog Op α} {Q : α → σ → Prop} {s : σ}
    (hp : c → Yields exec p Q s) (hq : ¬ c → Yields exec q Q s) :
    Yields exec (if c then p else q) Q s := by
  split_ifs with hc
  · exact hp hc
  · exact hq hc

/-! ## Frames -/

/-- The frame rule: a program that uses operations of a kind keeps what the kind keeps. -/
theorem post_of_uses (R : σ → σ → Prop) (hrefl : ∀ s, R s s)
    (htrans : ∀ s t w, R s t → R t w → R s w)
    (hop : ∀ (β : Type) (o : Op β) (s : σ) (b : β) (s' : σ),
      P β o → exec β o s = some (b, s') → R s s')
    {p : Prog Op α} (hp : p.Uses P) (s : σ) : Post exec p (fun _ s' => R s s') s :=
  fun _ _ h => run_rel R hrefl htrans hop hp h

end Prog

end SlcRtld.Effect
