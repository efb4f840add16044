import Mathlib.Data.List.Basic
import Mathlib.Tactic.Common

/-!
# Messages in blocks

A hash function that works block by block: a message is cut into blocks of `B` elements, and a step
function is folded over them. What does not fill a block is the rest. A message that comes in parts
can be folded as it comes, with the rest kept for the next part (`foldl_blocks_append`,
`rest_append`).
-/

namespace SlcRtld.Crypto

variable {σ α : Type*} {B : ℕ}

/-- The whole blocks of a message. -/
def blocks (B : ℕ) (m : List α) : List (List α) :=
  (List.range (m.length / B)).map fun i => (m.drop (B * i)).take B

/-- What is left of a message after its whole blocks. -/
def rest (B : ℕ) (m : List α) : List α := m.drop (B * (m.length / B))

/-- The rest is shorter than a block. -/
theorem rest_length (m : List α) : (rest B m).length = m.length % B := by
  rw [rest, List.length_drop, Nat.mod_eq_sub]

/-- There is no whole block. -/
theorem blocks_of_lt {m : List α} (h : m.length < B) : blocks B m = [] := by
  rw [blocks, Nat.div_eq_of_lt h]
  rfl

/-- All of it is the rest. -/
theorem rest_of_lt {m : List α} (h : m.length < B) : rest B m = m := by
  rw [rest, Nat.div_eq_of_lt h, Nat.mul_zero, List.drop_zero]

/-- A block at the front is the first one. -/
theorem blocks_append_block (hB : 0 < B) {a : List α} (ha : a.length = B) (m : List α) :
    blocks B (a ++ m) = a :: blocks B m := by
  have hcount : (a ++ m).length / B = m.length / B + 1 := by
    rw [List.length_append, ha, Nat.add_div_left _ hB]
  have hdrop : ∀ i, (a ++ m).drop (B * (i + 1)) = m.drop (B * i) := fun i => by
    rw [Nat.mul_succ, Nat.add_comm, ← List.drop_drop, ← ha, List.drop_left]
  rw [blocks, hcount, List.range_succ_eq_map, List.map_cons, List.map_map, blocks, Nat.mul_zero,
    List.drop_zero, ← ha, List.take_left, ha]
  exact congrArg (a :: ·) (List.map_congr_left fun i _ => congrArg (List.take B) (hdrop i))

/-- A block in front does not change the rest. -/
theorem rest_append_block (hB : 0 < B) {a : List α} (ha : a.length = B) (m : List α) :
    rest B (a ++ m) = rest B m := by
  rw [rest, List.length_append, ha, Nat.add_div_left _ hB, Nat.mul_succ, Nat.add_comm,
    ← List.drop_drop, ← ha, List.drop_left, ha, rest]

/-- The blocks have their length. -/
theorem length_of_mem_blocks {m a : List α} (h : a ∈ blocks B m) : a.length = B := by
  obtain ⟨i, hi, rfl⟩ := List.mem_map.mp h
  have hle : B * (i + 1) ≤ m.length :=
    Nat.le_trans (Nat.mul_le_mul_left B (List.mem_range.mp hi)) (Nat.mul_div_le ..)
  rw [List.length_take, List.length_drop]
  rw [Nat.mul_succ] at hle
  omega

/-- The induction over a message in blocks. -/
theorem blocks_induction (hB : 0 < B) {P : List α → Prop} (hshort : ∀ m, m.length < B → P m)
    (hblock : ∀ a m, a.length = B → P m → P (a ++ m)) (m : List α) : P m := by
  induction hn : m.length using Nat.strongRecOn generalizing m with
  | ind n ih =>
    by_cases hlt : m.length < B
    · exact hshort m hlt
    · have hle : B ≤ m.length := Nat.le_of_not_lt hlt
      rw [← List.take_append_drop B m]
      refine hblock _ _ (by rw [List.length_take, Nat.min_eq_left hle]) (ih _ ?_ _ rfl)
      rw [List.length_drop]
      omega

/-- The blocks of a message that goes on: first its own, and then those that begin with its rest. -/
theorem blocks_append (hB : 0 < B) (m p : List α) :
    blocks B (m ++ p) = blocks B m ++ blocks B (rest B m ++ p) ∧
      rest B (m ++ p) = rest B (rest B m ++ p) := by
  induction m using blocks_induction hB with
  | hshort m hm => rw [blocks_of_lt hm, rest_of_lt hm]; exact ⟨rfl, rfl⟩
  | hblock a m ha ih =>
    rw [List.append_assoc, blocks_append_block hB ha, blocks_append_block hB ha,
      rest_append_block hB ha, rest_append_block hB ha, List.cons_append, ih.1]
    exact ⟨rfl, ih.2⟩

/-- The steps over a message that goes on. -/
theorem foldl_blocks_append (hB : 0 < B) (f : σ → List α → σ) (s : σ) (m p : List α) :
    (blocks B (m ++ p)).foldl f s =
      (blocks B (rest B m ++ p)).foldl f ((blocks B m).foldl f s) := by
  rw [(blocks_append hB m p).1, List.foldl_append]

/-- The rest of a message in parts. -/
theorem rest_append (hB : 0 < B) (m p : List α) :
    rest B (m ++ p) = rest B (rest B m ++ p) := (blocks_append hB m p).2

end SlcRtld.Crypto
