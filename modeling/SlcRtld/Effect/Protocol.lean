import SlcRtld.Effect.Prog

/-!
# Programs that keep to a protocol

A protocol says in which order operations may come: it has states, and a relation that leads from
one state to the next over an operation and its answer. A program follows it from a state when every
operation it performs is one that the protocol has a next state for, whatever the answers are, and
when it ends in a state that suits its result. The rules follow the program's text.

Where programs take turns, each holds a protocol state of its own, and a step of one of them is a
step of its protocol (`Follows.step`).
-/

namespace SlcRtld.Effect.Prog

universe u

variable {Op : Type → Type u} {Q : Type} {α β : Type}

/-- The steps of a protocol: from a state, over an operation and its answer, to a state. -/
abbrev Protocol (Op : Type → Type u) (Q : Type) : Type (max 1 u) :=
  Q → ∀ β : Type, Op β → β → Q → Prop

/-- Which answers an operation can give. -/
abbrev Answering (Op : Type → Type u) : Type (max 1 u) := ∀ β : Type, Op β → β → Prop

/-- The program keeps to the protocol from a state on, when operations answer as they may, and ends
in a state that suits its result. -/
def Follows (A : Answering Op) (N : Protocol Op Q) (final : α → Q → Prop) : Q → Prog Op α → Prop
  | q, .pure a => final a q
  | q, .op o k => ∀ b, A _ o b → ∃ q', N q _ o b q' ∧ (k b).Follows A N final q'

namespace Follows

variable {A : Answering Op} {N : Protocol Op Q} {final : α → Q → Prop} {q : Q}

/-- A result. -/
theorem pure {a : α} (h : final a q) : Follows A N final q (Pure.pure a : Prog Op α) := h

/-- One operation. -/
theorem perform {o : Op α} (h : ∀ b, A _ o b → ∃ q', N q _ o b q' ∧ final b q') :
    Follows A N final q (Prog.perform o) := h

/-- Programs in sequence. -/
theorem bind {mid : β → Q → Prop} {p : Prog Op β} {f : β → Prog Op α} (hp : Follows A N mid q p)
    (hf : ∀ b q', mid b q' → Follows A N final q' (f b)) : Follows A N final q (p >>= f) := by
  induction p generalizing q with
  | pure b => exact hf b q hp
  | op o k ih =>
    intro b hb
    obtain ⟨q', hq', hk⟩ := hp b hb
    exact ⟨q', hq', ih b hk⟩

/-- An operation first, and then the rest. -/
theorem cons {o : Op β} {f : β → Prog Op α}
    (h : ∀ b, A _ o b → ∃ q', N q _ o b q' ∧ Follows A N final q' (f b)) :
    Follows A N final q (Prog.perform o >>= f) := h

/-- An operation that leaves the protocol where it is, and then the rest. -/
theorem skip {o : Op β} {f : β → Prog Op α} (ho : ∀ b, N q _ o b q)
    (hf : ∀ b, A _ o b → Follows A N final q (f b)) : Follows A N final q (Prog.perform o >>= f) :=
  fun b hb => ⟨q, ho b, hf b hb⟩

/-- A weaker end. -/
theorem mono {final' : α → Q → Prop} {p : Prog Op α} (hp : Follows A N final q p)
    (h : ∀ a q', final a q' → final' a q') : Follows A N final' q p := by
  induction p generalizing q with
  | pure a => exact h a q hp
  | op o k ih =>
    intro b hb
    obtain ⟨q', hq', hk⟩ := hp b hb
    exact ⟨q', hq', ih b hk⟩

/-- A branch. -/
theorem ite {c : Prop} [Decidable c] {p p' : Prog Op α} (hp : c → Follows A N final q p)
    (hp' : ¬ c → Follows A N final q p') : Follows A N final q (if c then p else p') := by
  split_ifs with hc
  · exact hp hc
  · exact hp' hc

/-- A program under a condition. -/
theorem when {c : Bool} {p : Prog Op Unit} {final : Unit → Q → Prop}
    (hp : c = true → Follows A N final q p) (hno : c = false → final () q) :
    Follows A N final q (Prog.when c p) := by
  cases c with
  | true => exact hp rfl
  | false => exact hno rfl

/-- A program whose operations all leave the protocol where it is. -/
theorem of_uses {P : ∀ β : Type, Op β → Prop} {p : Prog Op α} (hp : p.Uses P)
    (hN : ∀ (β : Type) (o : Op β), P β o → ∀ b, N q β o b q) (h : ∀ a, final a q) :
    Follows A N final q p := by
  induction p with
  | pure a => exact h a
  | op o k ih => exact fun b _ => ⟨q, hN _ o hp.1 b, ih b (hp.2 b)⟩

/-- One operation of a program that follows a protocol. -/
theorem step {γ : Type} {o : Op γ} {k : γ → Prog Op α} (h : Follows A N final q (.op o k)) {b : γ}
    (hb : A γ o b) : ∃ q', N q γ o b q' ∧ Follows A N final q' (k b) := h b hb

end Follows

end SlcRtld.Effect.Prog
