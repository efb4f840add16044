import Mathlib.Data.List.Basic
import Mathlib.Data.Nat.Init
import Mathlib.Tactic.Common

/-!
# Hedges in preorder

A sequence of trees, a hedge, can be written down as the list of the arities of its nodes in
preorder. The list is read with a count of the trees that are still to come: a node takes one off
and puts its children on (`pending`). `Hedge k as` says that the list `as` is the preorder of
exactly `k` trees: the count starts at `k`, stays positive while there is a node to read, and ends
at zero.

Where a part of the list is one whole tree, any other tree can stand in its place
(`Hedge.replace_last`). In particular a node at which the last tree of the list begins can be given
one more child, at the end (`Hedge.add_child`): these are the nodes that a writer who appends to the
list can still attach something to.
-/

namespace SlcRtld.Tree

/-- The number of trees that are still to come after the nodes of a list, when there were `k` before
it; none when the list goes on although there is nothing to come. -/
def pending : ℕ → List ℕ → Option ℕ
  | k, [] => some k
  | 0, _ :: _ => none
  | k + 1, a :: as => pending (k + a) as

/-- The list is the preorder of `k` trees. -/
def Hedge (k : ℕ) (as : List ℕ) : Prop := pending k as = some 0

/-- A sequence is read from left to right. -/
instance (k : ℕ) (as : List ℕ) : Decidable (Hedge k as) := inferInstanceAs (Decidable (_ = _))

variable {j k r : ℕ} {as bs cs : List ℕ}

/-- Nothing more is read. -/
@[simp] theorem pending_nil (k : ℕ) : pending k [] = some k := by
  unfold pending
  rfl

/-- A node closes one place and opens as many as it has children. -/
@[simp] theorem pending_succ_cons (k a : ℕ) (as : List ℕ) :
    pending (k + 1) (a :: as) = pending (k + a) as := by
  rw [pending]

/-- There is no place for a node. -/
@[simp] theorem pending_zero_cons (a : ℕ) (as : List ℕ) : pending 0 (a :: as) = none := by
  rw [pending]

/-- A list is read part by part. -/
theorem pending_append (k : ℕ) (as bs : List ℕ) :
    pending k (as ++ bs) = (pending k as).bind fun r => pending r bs := by
  induction as generalizing k with
  | nil => simp
  | cons a as ih =>
    cases k with
    | zero => simp
    | succ k =>
      rw [List.cons_append, pending_succ_cons, pending_succ_cons]
      exact ih (k + a)

/-- More trees to come before a list are more trees to come after it. -/
theorem pending_add (h : pending k as = some r) (j : ℕ) : pending (k + j) as = some (r + j) := by
  induction as generalizing k with
  | nil =>
    rw [pending_nil, Option.some.injEq] at h
    rw [pending_nil, h]
  | cons a as ih =>
    cases k with
    | zero => simp at h
    | succ k =>
      rw [pending_succ_cons] at h
      have hnext := ih h
      have hcount : k + 1 + j = k + j + 1 := by omega
      rw [hcount, pending_succ_cons]
      have hsum : k + j + a = k + a + j := by omega
      rw [hsum]
      exact hnext

/-! ## Whole trees -/

/-- No trees. -/
theorem hedge_nil : Hedge 0 [] := rfl

/-- The first tree's root. -/
theorem hedge_cons {a : ℕ} : Hedge (k + 1) (a :: as) ↔ Hedge (k + a) as := by
  unfold Hedge
  rw [pending_succ_cons]

/-- A node has a place. -/
theorem Hedge.pos_of_cons {a : ℕ} (h : Hedge k (a :: as)) : 0 < k := by
  cases k with
  | zero => simp [Hedge] at h
  | succ k => omega

/-- Trees after trees. -/
theorem Hedge.append (h : Hedge j as) (h' : Hedge k bs) : Hedge (j + k) (as ++ bs) := by
  have hread := pending_add h k
  unfold Hedge at h' ⊢
  rw [pending_append, hread, Option.bind_some, Nat.zero_add]
  exact h'

/-- The first trees of a hedge. -/
theorem Hedge.split (h : Hedge (j + k) cs) :
    ∃ as bs, cs = as ++ bs ∧ Hedge j as ∧ Hedge k bs := by
  induction cs generalizing j with
  | nil =>
    have hzero : j + k = 0 := by simpa [Hedge] using h
    obtain ⟨rfl, rfl⟩ : j = 0 ∧ k = 0 := by omega
    exact ⟨[], [], rfl, hedge_nil, hedge_nil⟩
  | cons c cs ih =>
    cases j with
    | zero => exact ⟨[], c :: cs, rfl, hedge_nil, by simpa using h⟩
    | succ j =>
      have hcount : j + 1 + k = j + k + 1 := by omega
      rw [hcount, hedge_cons] at h
      have hrest : Hedge (j + c + k) cs := by
        have hsum : j + c + k = j + k + c := by omega
        rw [hsum]
        exact h
      obtain ⟨as, bs, rfl, has, hbs⟩ := ih hrest
      exact ⟨c :: as, bs, rfl, hedge_cons.mpr has, hbs⟩

/-- Where a hedge ends with one whole tree, the count before that tree is one. -/
theorem pending_of_hedge_one (h : Hedge k (as ++ bs)) (hbs : Hedge 1 bs) :
    pending k as = some 1 := by
  unfold Hedge at h
  rw [pending_append, Option.bind_eq_some_iff] at h
  obtain ⟨r, hr, hread⟩ := h
  cases r with
  | zero =>
    -- nothing is to come, but a whole tree has at least one node
    cases bs with
    | nil => simp [Hedge] at hbs
    | cons b bs => simp at hread
  | succ r =>
    have hmore := pending_add hbs r
    rw [Nat.add_comm 1 r, hread] at hmore
    have hr0 : r = 0 := by simpa using hmore.symm
    rw [hr, hr0]

/-- Another tree in the place of the last one. -/
theorem Hedge.replace_last {bs' : List ℕ} (h : Hedge k (as ++ bs)) (hbs : Hedge 1 bs)
    (hbs' : Hedge 1 bs') : Hedge k (as ++ bs') := by
  have hcount := pending_of_hedge_one h hbs
  unfold Hedge
  rw [pending_append, hcount]
  exact hbs'

/-- One more child of the first node, after all the others. -/
theorem Hedge.add_child {b : ℕ} (h : Hedge 1 (b :: bs)) : Hedge 1 ((b + 1) :: bs ++ [0]) := by
  have hread : pending (0 + b) bs = some 0 := hedge_cons.mp h
  have hmore := pending_add hread 1
  rw [List.cons_append, hedge_cons]
  unfold Hedge
  rw [pending_append, ← Nat.add_assoc, hmore]
  rfl

/-- The last node of a hedge is a tree of its own, without children. -/
theorem Hedge.last {a : ℕ} (h : Hedge k (as ++ [a])) : a = 0 ∧ Hedge 1 [a] := by
  unfold Hedge at h
  rw [pending_append, Option.bind_eq_some_iff] at h
  obtain ⟨r, -, hread⟩ := h
  cases r with
  | zero => simp at hread
  | succ r =>
    rw [pending_succ_cons, pending_nil, Option.some.injEq] at hread
    obtain rfl : a = 0 := by omega
    exact ⟨rfl, rfl⟩

end SlcRtld.Tree
