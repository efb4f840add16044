import SlcRtld.Effect.Prog
import Mathlib.Data.Option.Defs

/-!
# Two programs side by side

A relation between programs that perform matching operations in the same order. Which operations
match is a parameter, together with how their answers are then related, so that the two programs may
hold different values for the same thing: an index into one array here, and into another there. The
rules follow the programs' text.

Two related programs do the same in related states (`Rel.run`). And the relation says what a program
can do at all: an operation it comes to, when the others have
answered as they may, is one that has a match (`Rel.meets`), and a run of the program performs no
other (`Meets.performs`).
-/

namespace SlcRtld.Effect.Prog

universe u

variable {Op : Type → Type u} {α α' β β' : Type}

/-- Which operations match, and how their answers are related. -/
abbrev Match (Op : Type → Type u) : Type (max 1 u) :=
  ∀ β γ : Type, Op β → Op γ → (β → γ → Prop) → Prop

/-- The programs perform matching operations, and end with related results. -/
inductive Rel (M : Match Op) (Q : α → α' → Prop) : Prog Op α → Prog Op α' → Prop where
  | pure {a : α} {a' : α'} (h : Q a a') : Rel M Q (.pure a) (.pure a')
  | op {β γ : Type} {o : Op β} {o' : Op γ} {S : β → γ → Prop} {k : β → Prog Op α}
      {k' : γ → Prog Op α'} (h : M β γ o o' S) (hk : ∀ b c, S b c → Rel M Q (k b) (k' c)) :
      Rel M Q (.op o k) (.op o' k')

variable {M : Match Op}

namespace Rel

/-- One operation. -/
theorem perform {o : Op α} {o' : Op α'} {S : α → α' → Prop} (h : M α α' o o' S) :
    Rel M S (Prog.perform o) (Prog.perform o') :=
  .op h fun _ _ hS => .pure hS

/-- Programs in sequence. -/
theorem bind {Q : α → α' → Prop} {Q' : β → β' → Prop} {p : Prog Op α} {p' : Prog Op α'}
    {f : α → Prog Op β} {f' : α' → Prog Op β'} (hp : Rel M Q p p')
    (hf : ∀ a a', Q a a' → Rel M Q' (f a) (f' a')) : Rel M Q' (p >>= f) (p' >>= f') := by
  induction hp with
  | pure h => exact hf _ _ h
  | op h _ ih => exact .op h ih

/-- An operation first, and then the rest. -/
theorem step {o : Op α} {o' : Op α'} {S : α → α' → Prop} {Q : β → β' → Prop}
    {f : α → Prog Op β} {f' : α' → Prog Op β'} (h : M α α' o o' S)
    (hf : ∀ a a', S a a' → Rel M Q (f a) (f' a')) :
    Rel M Q (Prog.perform o >>= f) (Prog.perform o' >>= f') :=
  (perform h).bind hf

/-- A branch. -/
theorem ite {Q : α → α' → Prop} {c : Prop} [Decidable c] {p q : Prog Op α} {p' q' : Prog Op α'}
    (hp : Rel M Q p p') (hq : Rel M Q q q') :
    Rel M Q (if c then p else q) (if c then p' else q') := by
  split_ifs
  · exact hp
  · exact hq

/-- A program whose operations match themselves, with the same answer. -/
theorem refl {P : ∀ β : Type, Op β → Prop} {Q : α → α → Prop} {p : Prog Op α} (hp : p.Uses P)
    (hM : ∀ (β : Type) (o : Op β), P β o → M β β o o Eq) (hQ : ∀ a, Q a a) : Rel M Q p p := by
  induction p with
  | pure a => exact .pure (hQ a)
  | op o k ih =>
    refine .op (hM _ o hp.1) fun b c hbc => ?_
    subst hbc
    exact ih b (hp.2 b)

end Rel

/-- Every operation that the program comes to satisfies `P`, when an operation can only answer what
`A` allows. -/
def Meets (A : ∀ β : Type, Op β → β → Prop) (P : ∀ β : Type, Op β → Prop) : Prog Op α → Prop
  | .pure _ => True
  | .op o k => P _ o ∧ ∀ b, A _ o b → (k b).Meets A P

/-- Every operation that a run of the program performs satisfies `P`. -/
def Performs {σ : Type} (exec : Exec Op σ) (P : ∀ β : Type, Op β → Prop) : Prog Op α → σ → Prop
  | .pure _, _ => True
  | .op o k, s => P _ o ∧ ∀ b s', exec _ o s = some (b, s') → (k b).Performs exec P s'

/-- What is the same of every operation is the same of a run. -/
theorem performs_congr {σ : Type} {exec : Exec Op σ} {P P' : ∀ β : Type, Op β → Prop}
    (hP : ∀ (β : Type) (o : Op β), P β o ↔ P' β o) (p : Prog Op α) (s : σ) :
    p.Performs exec P s ↔ p.Performs exec P' s := by
  induction p generalizing s with
  | pure a => exact Iff.rfl
  | op o k ih =>
    refine and_congr (hP _ o) (forall_congr' fun b => forall_congr' fun s' => ?_)
    exact imp_congr_right fun _ => ih b s'

/-- A run performs operations that the program can come to. -/
theorem Meets.performs {σ : Type} {exec : Exec Op σ} {A : ∀ β : Type, Op β → β → Prop}
    {P : ∀ β : Type, Op β → Prop} {p : Prog Op α} (h : p.Meets A P)
    (hA : ∀ (β : Type) (o : Op β) (s : σ) (b : β) (s' : σ), exec β o s = some (b, s') → A β o b)
    (s : σ) : p.Performs exec P s := by
  induction p generalizing s with
  | pure a => trivial
  | op o k ih => exact ⟨h.1, fun b s' hb => ih b (h.2 b (hA _ o s b s' hb)) s'⟩

/-- A program that is related to another comes to operations with a match only. -/
theorem Rel.meets {A : ∀ β : Type, Op β → β → Prop} {P : ∀ β : Type, Op β → Prop}
    {Q : α → α' → Prop} {p : Prog Op α} {p' : Prog Op α'} (hp : Rel M Q p p')
    (hM : ∀ (β γ : Type) (o : Op β) (o' : Op γ) (S : β → γ → Prop), M β γ o o' S →
      P β o ∧ ∀ b, A β o b → ∃ c, S b c) : p.Meets A P := by
  induction hp with
  | pure _ => trivial
  | op h _ ih =>
    obtain ⟨hP, hanswer⟩ := hM _ _ _ _ _ h
    refine ⟨hP, fun b hb => ?_⟩
    obtain ⟨c, hc⟩ := hanswer b hb
    exact ih b c hc

/-- Two runs side by side: when matching operations are defined in related states together, and leave
related states, then so it is with the programs. -/
theorem Rel.run {σ : Type} {exec exec' : Exec Op σ} {R : σ → σ → Prop} {Q : α → α' → Prop}
    {p : Prog Op α} {p' : Prog Op α'} (hp : Rel M Q p p')
    (hM : ∀ (β γ : Type) (o : Op β) (o' : Op γ) (S : β → γ → Prop), M β γ o o' S → ∀ s s', R s s' →
      Option.Rel (fun x y => S x.1 y.1 ∧ R x.2 y.2) (exec β o s) (exec' γ o' s'))
    {s s' : σ} (hs : R s s') :
    Option.Rel (fun x y => Q x.1 y.1 ∧ R x.2 y.2) (p.run exec s) (p'.run exec' s') := by
  induction hp generalizing s s' with
  | pure h => exact .some ⟨h, hs⟩
  | @op β γ o o' S k k' h _ ih =>
    have hstep := hM _ _ _ _ _ h s s' hs
    simp only [Prog.run]
    generalize exec β o s = x, exec' γ o' s' = y at hstep
    cases hstep with
    | none => exact .none
    | some hxy => exact ih _ _ hxy.1 hxy.2

end SlcRtld.Effect.Prog
