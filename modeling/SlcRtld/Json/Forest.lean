import SlcRtld.Json.Message
import SlcRtld.Tree.Hedge

/-!
# The tokens form a hedge

Whatever the text, well formed or not, the tokens that `jsmn_parse` has written are the nodes of a
sequence of trees in preorder, and the `size` of each is the number of its children
(`jsmnParse_hedge`). A new token becomes a child of the superior one. So the invariant is that the
superior token, and every token that is still open, is one that the last tree of the array begins
at: such a node can be given one more child at the end (`Hedge.add_child`). A colon makes the last
token the superior one, a closing brace or a comma goes back to an open token, and both are of this
kind.

The parser is kept in the form `Parser.at w s rest`: the tokens written so far, the superior one,
and the part of the array that earlier messages have left behind.
-/

namespace SlcRtld.Json

open SlcRtld.Tree

/-! ## The array in two parts -/

/-- The parser that has written `w` and has `rest` of the array left. -/
def Parser.at (w : List Tok) (s : Option ℕ) (rest : List Tok) : Parser := ⟨w.length, s, w ++ rest⟩

/-- The token with one more child. -/
def Tok.bump (t : Tok) : Tok := { t with size := t.size + 1 }

/-- The tokens, with one more child of the superior one. -/
def bumped : Option ℕ → List Tok → List Tok
  | none, w => w
  | some i, w => w.modify i Tok.bump

/-- An array or an object. -/
def Tok.isContainer (t : Tok) : Bool := t.type = .array || t.type = .object

section
variable {w rest : List Tok} {s : Option ℕ}

/-- The first token of the second part. -/
theorem modify_length_append (w : List Tok) (t : Tok) (rest : List Tok) (f : Tok → Tok) :
    (w ++ t :: rest).modify w.length f = w ++ f t :: rest := by
  induction w with
  | nil => rfl
  | cons x xs ih => exact congrArg (x :: ·) ih

/-- A token of the first part. -/
theorem modify_append {i : ℕ} (hi : i < w.length) (rest : List Tok) (f : Tok → Tok) :
    (w ++ rest).modify i f = w.modify i f ++ rest := by
  induction w generalizing i with
  | nil => cases hi
  | cons x xs ih =>
    cases i with
    | zero => rfl
    | succ i => exact congrArg (x :: ·) (ih (Nat.lt_of_succ_lt_succ hi))

/-- Counting a child keeps the tokens' number. -/
@[simp] theorem length_bumped : (bumped s w).length = w.length := by
  cases s with
  | none => rfl
  | some i => exact List.length_modify ..

/-- A child of the innermost container is counted in the first part. -/
theorem bumpSuper_at (hs : ∀ i, s = some i → i < w.length) (rest : List Tok) :
    (Parser.at w s rest).bumpSuper = Parser.at (bumped s w) s rest := by
  cases s with
  | none => rfl
  | some i =>
    have hmodify := modify_append (hs i rfl) rest Tok.bump
    show Parser.mk w.length (some i) ((w ++ rest).modify i Tok.bump) = _
    rw [hmodify]
    unfold Parser.at bumped
    rw [List.length_modify]

/-- A token is filled in while there is room. -/
theorem jsmnFillToken_at (t : Tok) (hroom : w.length < maxJsonTokens) (type : TokType)
    (start stop : ℕ) :
    jsmnFillToken (Parser.at w s (t :: rest)) type start stop =
      some (Parser.at (w ++ [⟨type, start, stop, 0⟩]) s rest) := by
  have halloc : jsmnAllocToken (Parser.at w s (t :: rest)) =
      some ⟨w.length + 1, s, w ++ { t with start := -1, stop := -1, size := 0 } :: rest⟩ := by
    unfold jsmnAllocToken Parser.at
    rw [if_neg (Nat.not_le.mpr hroom)]
    exact congrArg (fun l => some (Parser.mk (w.length + 1) s l)) (modify_length_append ..)
  unfold jsmnFillToken
  rw [halloc]
  simp [Parser.at]

/-- The array is full. -/
theorem jsmnFillToken_full (hroom : maxJsonTokens ≤ w.length) (type : TokType) (start stop : ℕ) :
    jsmnFillToken (Parser.at w s rest) type start stop = none := by
  unfold jsmnFillToken jsmnAllocToken Parser.at
  rw [if_pos hroom]
  rfl

/-- A token is taken from the second part, and filled in at the end of the first. -/
theorem jsmnFillToken_eq (hlen : w.length + rest.length = maxJsonTokens) {type : TokType}
    {start stop : ℕ} {p : Parser}
    (h : jsmnFillToken (Parser.at w s rest) type start stop = some p) :
    ∃ t rest', rest = t :: rest' ∧ p = Parser.at (w ++ [⟨type, start, stop, 0⟩]) s rest' := by
  cases rest with
  | nil =>
    rw [jsmnFillToken_full (by simp at hlen; omega)] at h
    cases h
  | cons t rest =>
    rw [List.length_cons] at hlen
    have hroom : w.length < maxJsonTokens := by omega
    rw [jsmnFillToken_at t hroom] at h
    exact ⟨t, rest, rfl, (Option.some.inj h).symm⟩

/-- An opened token becomes the last child of the superior one, and the superior one itself. -/
theorem jsmnOpen_at (t : Tok) (hroom : w.length < maxJsonTokens)
    (hs : ∀ i, s = some i → i < w.length) (type : TokType) (pos : ℕ) :
    jsmnOpen type pos (Parser.at w s (t :: rest)) =
      some (Parser.at (bumped s w ++ [⟨type, pos, -1, 0⟩]) (some w.length) rest) := by
  have halloc : jsmnAllocToken (Parser.at w s (t :: rest)) =
      some (Parser.at (w ++ [{ t with start := -1, stop := -1, size := 0 }]) s rest) := by
    unfold jsmnAllocToken Parser.at
    rw [if_neg (Nat.not_le.mpr hroom), modify_length_append]
    simp
  have hbump := bumpSuper_at (w := w ++ [{ t with start := -1, stop := -1, size := 0 }]) (s := s)
    (fun i hi => by have := hs i hi; simp; omega) rest
  have hlast : bumped s (w ++ [{ t with start := -1, stop := -1, size := 0 }]) =
      bumped s w ++ [{ t with start := -1, stop := -1, size := 0 }] := by
    cases s with
    | none => rfl
    | some i => exact modify_append (hs i rfl) _ _
  unfold jsmnOpen
  rw [halloc, Option.map_some, hbump, hlast]
  have hset := modify_length_append (bumped s w) { t with start := -1, stop := -1, size := 0 } rest
    fun t => { t with type := type, start := (pos : ℤ) }
  rw [length_bumped] at hset
  simp only [Parser.at, List.append_assoc, List.singleton_append]
  rw [hset]
  simp

/-- The array is full. -/
theorem jsmnOpen_full (hroom : maxJsonTokens ≤ w.length) (type : TokType) (pos : ℕ) :
    jsmnOpen type pos (Parser.at w s rest) = none := by
  unfold jsmnOpen jsmnAllocToken Parser.at
  rw [if_pos hroom]
  rfl

/-! The loops that count down. -/

/-- The loop stops at the last token that it looks for. -/
theorem lastWith_eq_some {q : Tok → Bool} {toks : List Tok} {n i : ℕ}
    (h : lastWith q toks n = some i) :
    i < n ∧ (toks[i]?).any q = true ∧ ∀ j, i < j → j < n → (toks[j]?).any q = false := by
  induction n with
  | zero => cases h
  | succ n ih =>
    unfold lastWith at h
    by_cases hq : (toks[n]?).any q = true
    · rw [if_pos hq] at h
      obtain rfl := Option.some.inj h
      exact ⟨Nat.lt_succ_self n, hq, fun j hj hj' => by omega⟩
    · rw [if_neg hq] at h
      obtain ⟨hi, hqi, hlater⟩ := ih h
      refine ⟨by omega, hqi, fun j hj hj' => ?_⟩
      by_cases hjn : j = n
      · rw [hjn]
        exact Bool.eq_false_iff.mpr hq
      · exact hlater j hj (by omega)

/-- The loop finds nothing. -/
theorem lastWith_eq_none {q : Tok → Bool} {toks : List Tok} {n : ℕ}
    (h : lastWith q toks n = none) (j : ℕ) (hj : j < n) : (toks[j]?).any q = false := by
  induction n with
  | zero => omega
  | succ n ih =>
    unfold lastWith at h
    by_cases hq : (toks[n]?).any q = true
    · rw [if_pos hq] at h
      cases h
    · rw [if_neg hq] at h
      by_cases hjn : j = n
      · rw [hjn]
        exact Bool.eq_false_iff.mpr hq
      · exact ih h (by omega)

/-- They look at the tokens that have been written only. -/
theorem lastWith_append {q : Tok → Bool} (w rest : List Tok) {n : ℕ} (hn : n ≤ w.length) :
    lastWith q (w ++ rest) n = lastWith q w n := by
  induction n with
  | zero => rfl
  | succ n ih =>
    unfold lastWith
    rw [List.getElem?_append_left (by omega), ih (by omega)]

end

/-! ## The invariant -/

/-- The numbers of children. -/
def arities (w : List Tok) : List ℕ := w.map fun t => t.size.toNat

/-- What holds of the tokens written so far and of the superior one. -/
structure Nested (w : List Tok) (s : Option ℕ) : Prop where
  sizes : ∀ t ∈ w, 0 ≤ t.size
  hedge : ∃ k, Hedge k (arities w)
  opened : ∀ c t, w[c]? = some t → t.isOpen = true →
    t.isContainer = true ∧ Hedge 1 ((arities w).drop c) ∧ ∃ i, s = some i ∧ c ≤ i
  super : ∀ i, s = some i → i < w.length ∧ Hedge 1 ((arities w).drop i)

section
variable {w : List Tok} {s : Option ℕ}

/-- No tokens yet. -/
theorem nested_nil : Nested [] none :=
  ⟨nofun, ⟨0, rfl⟩, fun _ _ h => (by simp at h), nofun⟩

/-- One number for each token. -/
@[simp] theorem length_arities : (arities w).length = w.length := List.length_map ..

/-- The tokens' numbers, part by part. -/
theorem arities_append (w w' : List Tok) : arities (w ++ w') = arities w ++ arities w' :=
  List.map_append

/-- One more child counts where it is added. -/
theorem arities_bump {i : ℕ} (hi : i < w.length) (hsizes : ∀ t ∈ w, 0 ≤ t.size) :
    ∃ a as, (arities w).drop i = a :: as ∧
      arities (w.modify i Tok.bump) = (arities w).take i ++ (a + 1) :: as := by
  induction w generalizing i with
  | nil => cases hi
  | cons t ts ih =>
    obtain ⟨ht, hts⟩ := List.forall_mem_cons.mp hsizes
    cases i with
    | zero =>
      refine ⟨t.size.toNat, arities ts, rfl, ?_⟩
      have hcount : (t.size + 1).toNat = t.size.toNat + 1 := by omega
      show (t.size + 1).toNat :: arities ts = _
      rw [hcount]
      rfl
    | succ i =>
      obtain ⟨a, as, hdrop, hbump⟩ := ih (Nat.lt_of_succ_lt_succ hi) hts
      exact ⟨a, as, hdrop, congrArg (t.size.toNat :: ·) hbump⟩

/-- A change that leaves the sizes alone leaves the numbers of children. -/
theorem arities_modify (f : Tok → Tok) (hf : ∀ t, (f t).size = t.size) (i : ℕ) (w : List Tok) :
    arities (w.modify i f) = arities w := by
  induction w generalizing i with
  | nil => simp
  | cons t ts ih =>
    cases i with
    | zero => exact congrArg (·.toNat :: arities ts) (hf t)
    | succ i => exact congrArg (t.size.toNat :: ·) (ih i)

/-- A token under the superior one, with one more child or not, is as open as it was. -/
theorem bumped_getElem? {c : ℕ} {t : Tok} (h : (bumped s w)[c]? = some t) :
    ∃ t₀, w[c]? = some t₀ ∧ t.isOpen = t₀.isOpen ∧ t.isContainer = t₀.isContainer ∧
      (0 ≤ t₀.size → 0 ≤ t.size) := by
  cases s with
  | none => exact ⟨t, h, rfl, rfl, id⟩
  | some i =>
    unfold bumped at h
    rw [List.getElem?_modify, Option.map_eq_map, Option.map_eq_some_iff] at h
    obtain ⟨t₀, ht₀, rfl⟩ := h
    refine ⟨t₀, ht₀, ?_⟩
    split_ifs
    · exact ⟨rfl, rfl, fun hsize => Int.le_trans hsize (Int.le_add_one (Int.le_refl _))⟩
    · exact ⟨rfl, rfl, id⟩

/-- A new token under the superior one: the whole is a hedge again, and what was the start of its
last tree still is, up to the superior token. -/
theorem Nested.attach_hedge (h : Nested w s) :
    (∃ k, Hedge k (arities (bumped s w) ++ [0])) ∧
      ∀ c, (∃ i, s = some i ∧ c ≤ i) → Hedge 1 ((arities w).drop c) →
        Hedge 1 ((arities (bumped s w) ++ [0]).drop c) := by
  obtain ⟨k, hk⟩ := h.hedge
  cases s with
  | none =>
    refine ⟨⟨k + 1, hk.append rfl⟩, fun c hc => ?_⟩
    obtain ⟨i, hi, -⟩ := hc
    cases hi
  | some i =>
    obtain ⟨hi, htree⟩ := h.super i rfl
    obtain ⟨a, as, hdrop, hbump⟩ := arities_bump hi h.sizes
    have hlen : ((arities w).take i).length = i := by
      rw [List.length_take, length_arities]
      omega
    have hw : arities w = (arities w).take i ++ a :: as := by
      rw [← hdrop, List.take_append_drop]
    rw [hdrop] at htree
    have hnew : arities (bumped (some i) w) ++ [0] =
        (arities w).take i ++ ((a + 1) :: as ++ [0]) := by
      show arities (w.modify i Tok.bump) ++ [0] = _
      rw [hbump, List.append_assoc]
    rw [hnew]
    refine ⟨⟨k, ?_⟩, fun c ⟨j, hj, hc⟩ hdropc => ?_⟩
    · rw [hw] at hk
      exact hk.replace_last htree htree.add_child
    · obtain rfl := Option.some.inj hj
      rw [hw, List.drop_append_of_le_length (by omega)] at hdropc
      rw [List.drop_append_of_le_length (by omega)]
      exact hdropc.replace_last htree htree.add_child

/-- A new token keeps the invariant, as a child of the superior one that may become superior
itself. -/
theorem Nested.attach (h : Nested w s) {t : Tok} (hsize : t.size = 0) {s' : Option ℕ}
    (hs' : s' = s ∧ t.isOpen = false ∨ s' = some w.length ∧ t.isContainer = true) :
    Nested (bumped s w ++ [t]) s' := by
  -- the new token is a leaf at the end, and its parent counts it
  obtain ⟨hhedge, hkeep⟩ := h.attach_hedge
  have harities : arities (bumped s w ++ [t]) = arities (bumped s w) ++ [0] := by
    rw [arities_append]
    simp [arities, hsize]
  have hlast : (arities (bumped s w) ++ [0]).drop w.length = [0] := by
    rw [List.drop_append_of_le_length (by simp), List.drop_of_length_le (by simp)]
    rfl
  refine ⟨fun x hx => ?_, ?_, fun c x hx hopen => ?_, fun i hi => ?_⟩
  · rcases List.mem_append.mp hx with hx | hx
    · obtain ⟨c, hc⟩ := List.mem_iff_getElem?.mp hx
      obtain ⟨t₀, ht₀, -, -, hpos⟩ := bumped_getElem? hc
      exact hpos (h.sizes t₀ (List.mem_iff_getElem?.mpr ⟨c, ht₀⟩))
    · rw [List.mem_singleton.mp hx]
      exact Int.le_of_eq hsize.symm
  · rw [harities]
    exact hhedge
  · rw [harities]
    by_cases hc : c < w.length
    · -- an open token before: the superior one was at or after it, and so is the next one
      rw [List.getElem?_append_left (by simpa using hc)] at hx
      obtain ⟨t₀, ht₀, hopen₀, hcontainer, -⟩ := bumped_getElem? hx
      rw [hopen₀] at hopen
      obtain ⟨hcont, htree, i, hi, hci⟩ := h.opened c t₀ ht₀ hopen
      refine ⟨hcontainer.trans hcont, hkeep c ⟨i, hi, hci⟩ htree, ?_⟩
      rcases hs' with ⟨rfl, -⟩ | ⟨rfl, -⟩
      · exact ⟨i, hi, hci⟩
      · exact ⟨w.length, rfl, by omega⟩
    · -- the new token itself
      obtain rfl : c = w.length := by
        have hlt := (List.getElem?_eq_some_iff.mp hx).1
        rw [List.length_append, length_bumped, List.length_singleton] at hlt
        omega
      have htx : t = x := by
        rw [List.getElem?_append_right (by simp)] at hx
        simpa using hx
      subst htx
      rcases hs' with ⟨-, hclosed⟩ | ⟨rfl, hcont⟩
      · rw [hclosed] at hopen
        cases hopen
      · rw [hlast]
        exact ⟨hcont, rfl, w.length, rfl, Nat.le_refl _⟩
  · rw [harities, List.length_append, length_bumped, List.length_singleton]
    rcases hs' with ⟨rfl, -⟩ | ⟨rfl, -⟩
    · obtain ⟨hlt, htree⟩ := h.super i hi
      exact ⟨by omega, hkeep i ⟨i, hi, Nat.le_refl i⟩ htree⟩
    · obtain rfl := Option.some.inj hi
      rw [hlast]
      exact ⟨by omega, rfl⟩

/-- The superior token may become any that the last tree begins at, if it is not before an open
one. -/
theorem Nested.move (h : Nested w s) {j : ℕ} (hj : j < w.length)
    (htree : Hedge 1 ((arities w).drop j))
    (hopened : ∀ c t, w[c]? = some t → t.isOpen = true → c ≤ j) : Nested w (some j) := by
  refine ⟨h.sizes, h.hedge, fun c t ht hopen => ?_, fun i hi => ?_⟩
  · obtain ⟨hcont, hdrop, -⟩ := h.opened c t ht hopen
    exact ⟨hcont, hdrop, j, rfl, hopened c t ht hopen⟩
  · obtain rfl := Option.some.inj hi
    exact ⟨hj, htree⟩

/-- The last token begins the last tree. -/
theorem Nested.last (h : Nested w s) (hne : w ≠ []) :
    Hedge 1 ((arities w).drop (w.length - 1)) := by
  obtain ⟨k, hk⟩ := h.hedge
  have hsplit := List.dropLast_append_getLast hne
  have hlen : w.dropLast.length = w.length - 1 := List.length_dropLast
  rw [← hsplit, arities_append] at hk
  rw [← hlen]
  have hdrop : (arities w).drop w.dropLast.length = arities [w.getLast hne] := by
    rw [← congrArg arities hsplit, arities_append,
      List.drop_append_of_le_length (by simp), List.drop_of_length_le (by simp)]
    rfl
  rw [hdrop]
  exact hk.last.2

/-- A colon. -/
theorem Nested.colon (h : Nested w s) :
    Nested w (if w.length = 0 then none else some (w.length - 1)) := by
  split_ifs with hempty
  · obtain rfl := List.length_eq_zero_iff.mp hempty
    exact nested_nil
  · refine h.move (by omega) (h.last fun hnil => hempty (by rw [hnil]; rfl)) fun c t ht _ => ?_
    have hlt := (List.getElem?_eq_some_iff.mp ht).1
    omega

/-- A token that has the property is there. -/
theorem any_eq_true {q : Tok → Bool} {c : ℕ} (h : (w[c]?).any q = true) :
    ∃ t, w[c]? = some t ∧ q t = true :=
  (Option.any_eq_true ..).mp h

/-- The property of a token that is there. -/
theorem any_of_getElem? {q : Tok → Bool} {c : ℕ} {t : Tok} (h : w[c]? = some t) :
    (w[c]?).any q = q t := by
  rw [h]
  rfl

/-- A comma that goes back to the last open array or object. -/
theorem Nested.comma (h : Nested w s) {j : ℕ}
    (hj : lastWith (fun t => t.isContainer && t.isOpen) w w.length = some j) :
    Nested w (some j) := by
  obtain ⟨hlt, hany, hlater⟩ := lastWith_eq_some hj
  obtain ⟨t, ht, hq⟩ := any_eq_true hany
  obtain ⟨-, hopen⟩ := Bool.and_eq_true_iff.mp hq
  refine h.move hlt (h.opened j t ht hopen).2.1 fun c x hx hopen' => ?_
  -- an open token after it would have been found
  by_contra hlt'
  have hc := (List.getElem?_eq_some_iff.mp hx).1
  have hnot := hlater c (by omega) hc
  rw [any_of_getElem? hx, (h.opened c x hx hopen').1, hopen'] at hnot
  cases hnot

/-- A closing brace or bracket. -/
theorem Nested.close (h : Nested w s) {i : ℕ} (hi : lastWith Tok.isOpen w w.length = some i)
    (pos : ℕ) :
    Nested (w.modify i fun t => { t with stop := (pos : ℤ) + 1 })
      (lastWith Tok.isOpen (w.modify i fun t => { t with stop := (pos : ℤ) + 1 }) (i + 1)) := by
  obtain ⟨hlt, -, hlater⟩ := lastWith_eq_some hi
  -- the closed token is open no longer, the others are what they were
  have hget : ∀ c x, (w.modify i fun t => { t with stop := (pos : ℤ) + 1 })[c]? = some x →
      ∃ x₀, w[c]? = some x₀ ∧ x.size = x₀.size ∧ (x.isOpen = true → c ≠ i ∧ x = x₀) := by
    intro c x hx
    rw [List.getElem?_modify, Option.map_eq_map, Option.map_eq_some_iff] at hx
    obtain ⟨x₀, hx₀, rfl⟩ := hx
    refine ⟨x₀, hx₀, ?_⟩
    split_ifs with hc
    · refine ⟨rfl, fun hopen => ?_⟩
      have hstop : ((pos : ℤ) + 1 = -1) := by simpa [Tok.isOpen] using (Bool.and_eq_true_iff.mp hopen).2
      omega
    · exact ⟨rfl, fun _ => ⟨fun h => hc h.symm, rfl⟩⟩
  have harities := arities_modify (fun t : Tok => { t with stop := (pos : ℤ) + 1 }) (fun _ => rfl) i w
  have hopened : ∀ c x, (w.modify i fun t => { t with stop := (pos : ℤ) + 1 })[c]? = some x →
      x.isOpen = true → x.isContainer = true ∧ Hedge 1 ((arities w).drop c) ∧ c < i := by
    intro c x hx hopen
    obtain ⟨x₀, hx₀, -, hsame⟩ := hget c x hx
    obtain ⟨hne, rfl⟩ := hsame hopen
    obtain ⟨hcont, htree, -⟩ := h.opened c x hx₀ hopen
    refine ⟨hcont, htree, ?_⟩
    by_contra hge
    have hc := (List.getElem?_eq_some_iff.mp hx₀).1
    have hnot := hlater c (by omega) hc
    rw [any_of_getElem? hx₀, hopen] at hnot
    cases hnot
  refine ⟨fun x hx => ?_, ?_, fun c x hx hopen => ?_, fun j hj => ?_⟩
  · obtain ⟨c, hc⟩ := List.mem_iff_getElem?.mp hx
    obtain ⟨x₀, hx₀, hsize, -⟩ := hget c x hc
    rw [hsize]
    exact h.sizes x₀ (List.mem_iff_getElem?.mpr ⟨c, hx₀⟩)
  · rw [harities]
    exact h.hedge
  · obtain ⟨hcont, htree, hci⟩ := hopened c x hx hopen
    rw [harities]
    refine ⟨hcont, htree, ?_⟩
    cases hlast : lastWith Tok.isOpen (w.modify i fun t => { t with stop := (pos : ℤ) + 1 })
        (i + 1) with
    | none =>
      have hnot := lastWith_eq_none hlast c (by omega)
      rw [any_of_getElem? hx, hopen] at hnot
      cases hnot
    | some j =>
      refine ⟨j, rfl, ?_⟩
      by_contra hjc
      have hnot := (lastWith_eq_some hlast).2.2 c (by omega) (by omega)
      rw [any_of_getElem? hx, hopen] at hnot
      cases hnot
  · obtain ⟨hj', hany, -⟩ := lastWith_eq_some hj
    obtain ⟨x, hx, hopen⟩ := any_eq_true hany
    obtain ⟨-, htree, -⟩ := hopened j x hx hopen
    rw [harities, List.length_modify]
    exact ⟨by omega, htree⟩

end

/-! ## The loop -/

section
variable {w rest : List Tok} {s : Option ℕ}

/-- A string or a primitive, filled in and counted. -/
theorem bumpSuper_filled (hs : ∀ i, s = some i → i < w.length) (t : Tok) (rest : List Tok) :
    (Parser.at (w ++ [t]) s rest).bumpSuper = Parser.at (bumped s w ++ [t]) s rest := by
  rw [bumpSuper_at fun i hi => by have := hs i hi; simp; omega]
  cases s with
  | none => rfl
  | some i =>
    show Parser.at ((w ++ [t]).modify i Tok.bump) _ _ = _
    rw [modify_append (hs i rfl)]
    rfl

/-- A closing bracket closes the last open token. -/
theorem jsmnClose_at {type : TokType} {pos : ℕ} {p : Parser}
    (h : jsmnClose type pos (Parser.at w s rest) = some p) :
    ∃ i, lastWith Tok.isOpen w w.length = some i ∧
      p = Parser.at (w.modify i fun t => { t with stop := (pos : ℤ) + 1 })
        (lastWith Tok.isOpen (w.modify i fun t => { t with stop := (pos : ℤ) + 1 }) (i + 1)) rest := by
  unfold jsmnClose Parser.at at h
  simp only [lastWith_append w rest (Nat.le_refl _)] at h
  split at h
  · cases h
  · rename_i i hi
    split_ifs at h
    obtain ⟨hlt, -⟩ := lastWith_eq_some hi
    refine ⟨i, hi, ?_⟩
    rw [← Option.some.inj h, modify_append hlt, lastWith_append _ _ (by rw [List.length_modify]; omega)]
    simp [Parser.at]

/-- After a comma the innermost open container is the parent again. -/
theorem jsmnComma_at (w rest : List Tok) (s : Option ℕ) : ∃ s', jsmnComma (Parser.at w s rest) = Parser.at w s' rest ∧
    (s' = s ∨ ∃ j, lastWith (fun t => t.isContainer && t.isOpen) w w.length = some j ∧
      s' = some j) := by
  unfold jsmnComma
  cases s with
  | none => exact ⟨none, rfl, .inl rfl⟩
  | some i =>
    simp only [Parser.at, lastWith_append w rest (Nat.le_refl _)]
    by_cases hkey : ((w ++ rest)[i]?).any (fun t => t.type = .array || t.type = .object) = true
    · rw [if_pos hkey]
      exact ⟨some i, rfl, .inl rfl⟩
    · rw [if_neg hkey]
      cases hlast : lastWith (fun t => (t.type = .array || t.type = .object) && t.isOpen) w
          w.length with
      | none => exact ⟨some i, rfl, .inl rfl⟩
      | some j => exact ⟨some j, rfl, .inr ⟨j, hlast, rfl⟩⟩

/-- Only arrays and objects are opened. -/
theorem opening_isContainer {c : UInt8} {type : TokType} (h : charClass c = .opening type)
    (start stop size : ℤ) : (Tok.mk type start stop size).isContainer = true := by
  unfold charClass at h
  split_ifs at h
  all_goals cases h
  · rfl
  · rfl

/-! Where strings and primitives end. -/

/-- A string ends inside the text. -/
theorem scanString_span {q : StringState} {text rest : List UInt8} {pos stop : ℕ}
    (h : scanString q text pos = .ok (stop, rest)) :
    pos ≤ stop ∧ stop + 1 + rest.length = pos + text.length := by
  induction text generalizing q pos with
  | nil => cases q <;> cases h
  | cons c text ih =>
    have hstep : ∀ {q' : StringState}, scanString q' text (pos + 1) = .ok (stop, rest) →
        pos ≤ stop ∧ stop + 1 + rest.length = pos + (c :: text).length := by
      intro q' h'
      obtain ⟨hle, hlen⟩ := ih h'
      rw [List.length_cons]
      exact ⟨by omega, by omega⟩
    cases q with
    | plain =>
      unfold scanString at h
      split_ifs at h
      · obtain ⟨rfl, rfl⟩ := Prod.mk.inj (Except.ok.inj h)
        rw [List.length_cons]
        exact ⟨Nat.le_refl _, by omega⟩
      · exact hstep h
      · exact hstep h
    | escape =>
      unfold scanString at h
      split_ifs at h
      · exact hstep h
      · exact hstep h
    | hex left =>
      unfold scanString at h
      split_ifs at h
      · exact hstep h
      · exact hstep h

/-- A primitive ends inside the text. -/
theorem scanPrimitive_span {text rest : List UInt8} {pos stop : ℕ}
    (h : scanPrimitive text pos = some (stop, rest)) :
    pos ≤ stop ∧ stop + rest.length = pos + text.length := by
  induction text generalizing pos with
  | nil =>
    obtain ⟨rfl, rfl⟩ := Prod.mk.inj (Option.some.inj h)
    exact ⟨Nat.le_refl _, rfl⟩
  | cons c text ih =>
    unfold scanPrimitive at h
    split_ifs at h
    · obtain ⟨rfl, rfl⟩ := Prod.mk.inj (Option.some.inj h)
      exact ⟨Nat.le_refl _, rfl⟩
    · obtain ⟨hle, hlen⟩ := ih h
      rw [List.length_cons]
      exact ⟨by omega, by omega⟩

/-- A string that has been parsed is one token, up to its closing quote. -/
theorem jsmnParseString_fills {p : Parser} {text : List UInt8} {pos : ℕ} {r : ℕ × List UInt8 × Parser}
    (h : jsmnParseString text pos p = .ok r) :
    ∃ start stop, jsmnFillToken p .string start stop = some r.2.2 ∧ stop ≤ r.1 ∧
      r.1 + r.2.1.length = pos + 1 + text.length := by
  unfold jsmnParseString at h
  cases hscan : scanString .plain text (pos + 1) with
  | error e =>
    rw [hscan] at h
    cases h
  | ok q =>
    obtain ⟨stop, text'⟩ := q
    obtain ⟨-, hspan⟩ := scanString_span hscan
    simp only [hscan, bind, Except.bind] at h
    cases hfill : jsmnFillToken p .string (pos + 1) stop with
    | none =>
      simp only [hfill] at h
      cases h
    | some p' =>
      simp only [hfill] at h
      obtain rfl := Except.ok.inj h
      exact ⟨pos + 1, stop, hfill, by omega, by omega⟩

/-- A primitive that has been parsed is one token, up to the byte that ends it. -/
theorem jsmnParsePrimitive_fills {p : Parser} {text : List UInt8} {pos : ℕ}
    {r : ℕ × List UInt8 × Parser} (h : jsmnParsePrimitive text pos p = .ok r) :
    ∃ start stop, jsmnFillToken p .primitive start stop = some r.2.2 ∧ stop ≤ r.1 ∧
      r.1 + r.2.1.length = pos + text.length := by
  unfold jsmnParsePrimitive at h
  cases hscan : scanPrimitive text pos with
  | none =>
    simp only [hscan] at h
    cases h
  | some q =>
    obtain ⟨stop, text'⟩ := q
    obtain ⟨-, hspan⟩ := scanPrimitive_span hscan
    simp only [hscan] at h
    cases hfill : jsmnFillToken p .primitive pos stop with
    | none =>
      simp only [hfill] at h
      cases h
    | some p' =>
      simp only [hfill] at h
      obtain rfl := Except.ok.inj h
      exact ⟨pos, stop, hfill, le_rfl, by omega⟩

/-- A property of the tokens written so far and the superior one that every round of the loop keeps,
on a text of length `L`. -/
structure Kept (L : ℕ) (Inv : List Tok → Option ℕ → Prop) : Prop where
  super : ∀ {w s}, Inv w s → ∀ i, s = some i → i < w.length
  fill : ∀ {w s} (type : TokType) {start stop : ℕ}, Inv w s → stop ≤ L →
    Inv (bumped s w ++ [⟨type, start, stop, 0⟩]) s
  opens : ∀ {w s} {type : TokType} (pos : ℕ), Inv w s →
    (Tok.mk type pos (-1) 0).isContainer = true →
    Inv (bumped s w ++ [⟨type, pos, -1, 0⟩]) (some w.length)
  close : ∀ {w s i pos}, Inv w s → lastWith Tok.isOpen w w.length = some i → pos < L →
    Inv (w.modify i fun t => { t with stop := (pos : ℤ) + 1 })
      (lastWith Tok.isOpen (w.modify i fun t => { t with stop := (pos : ℤ) + 1 }) (i + 1))
  colon : ∀ {w s}, Inv w s → Inv w (if w.length = 0 then none else some (w.length - 1))
  comma : ∀ {w s j}, Inv w s →
    lastWith (fun t => t.isContainer && t.isOpen) w w.length = some j → Inv w (some j)

/-- The loop has gone on, after a round, from a state with the invariant, and ends as it did before.
As many tokens are written as are counted. -/
def GoesOn (L : ℕ) (Inv : List Tok → Option ℕ → Prop) (rounds : ℕ) (result : ℤ × List Tok) : Prop :=
  ∃ w s rest text pos, Inv w s ∧ w.length + rest.length = maxJsonTokens ∧ pos + text.length = L ∧
    jsmnLoop rounds text pos w.length (Parser.at w s rest) = result

section
variable {L : ℕ} {Inv : List Tok → Option ℕ → Prop} (hkept : Kept L Inv) (h : Inv w s)
  (hlen : w.length + rest.length = maxJsonTokens)
include hkept h hlen

/-- A string or a primitive has been filled in: it has become a child of the superior token, which
stays superior. -/
theorem goesOn_filled {p : Parser} {type : TokType} {start stop rounds pos : ℕ} {text : List UInt8}
    {result : ℤ × List Tok} (hfill : jsmnFillToken (Parser.at w s rest) type start stop = some p)
    (hstop : stop ≤ L) (hpos : pos + text.length = L)
    (hloop : jsmnLoop rounds text pos (w.length + 1) p.bumpSuper = result) :
    GoesOn L Inv rounds result := by
  obtain ⟨t, rest', rfl, rfl⟩ := jsmnFillToken_eq hlen hfill
  rw [bumpSuper_filled (hkept.super h)] at hloop
  have hlen' : (bumped s w ++ [Tok.mk type start stop 0]).length + rest'.length = maxJsonTokens := by
    simp at hlen ⊢
    omega
  have hcount : ((w.length : ℤ) + 1) = (bumped s w ++ [Tok.mk type start stop 0]).length := by
    simp
  rw [hcount] at hloop
  exact ⟨_, _, _, _, _, hkept.fill type h hstop, hlen', hpos, hloop⟩

/-- An opening bracket. -/
theorem goesOn_opening {p : Parser} {c : UInt8} {type : TokType} {rounds pos : ℕ} {text : List UInt8}
    {result : ℤ × List Tok} (hclass : charClass c = .opening type)
    (hopen : jsmnOpen type pos (Parser.at w s rest) = some p) (hpos : pos + 1 + text.length = L)
    (hloop : jsmnLoop rounds text (pos + 1) (w.length + 1) p = result) : GoesOn L Inv rounds result := by
  cases rest with
  | nil =>
    rw [jsmnOpen_full (by simp at hlen; omega)] at hopen
    cases hopen
  | cons t rest =>
    rw [List.length_cons] at hlen
    have hroom : w.length < maxJsonTokens := by omega
    rw [jsmnOpen_at t hroom (hkept.super h)] at hopen
    obtain rfl := Option.some.inj hopen
    have hlen' : (bumped s w ++ [Tok.mk type pos (-1) 0]).length + rest.length = maxJsonTokens := by
      simp
      omega
    have hcount : ((w.length : ℤ) + 1) = (bumped s w ++ [Tok.mk type pos (-1) 0]).length := by
      simp
    rw [hcount] at hloop
    exact ⟨_, _, _, _, _, hkept.opens pos h (opening_isContainer hclass ..), hlen', hpos, hloop⟩

/-- A closing bracket. -/
theorem goesOn_closing {p : Parser} {type : TokType} {rounds pos : ℕ} {text : List UInt8}
    {result : ℤ × List Tok} (hclose : jsmnClose type pos (Parser.at w s rest) = some p)
    (hpos : pos + 1 + text.length = L)
    (hloop : jsmnLoop rounds text (pos + 1) w.length p = result) : GoesOn L Inv rounds result := by
  obtain ⟨i, hi, rfl⟩ := jsmnClose_at hclose
  have hcount : w.length = (w.modify i fun t => { t with stop := (pos : ℤ) + 1 }).length :=
    (List.length_modify ..).symm
  rw [hcount] at hloop hlen
  exact ⟨_, _, _, _, _, hkept.close h hi (by omega), hlen, hpos, hloop⟩

/-- One round of a parse that succeeds, on a byte that does not end the text. -/
theorem jsmnLoop_round {rounds pos : ℕ} {c : UInt8} {text : List UInt8} {n : ℤ} {toks : List Tok}
    (hpos : pos + (text.length + 1) = L) (hnul : c ≠ 0)
    (hloop : jsmnLoop (rounds + 1) (c :: text) pos w.length (Parser.at w s rest) = (n, toks))
    (hn : 0 ≤ n) : GoesOn L Inv rounds (n, toks) := by
  have hnext : pos + 1 + text.length = L := by omega
  unfold jsmnLoop at hloop
  rw [if_neg hnul] at hloop
  -- a round that fails returns an error, which is negative
  cases hclass : charClass c with
  | opening type =>
    simp only [hclass] at hloop
    cases hopen : jsmnOpen type pos (Parser.at w s rest) with
    | none =>
      rw [hopen] at hloop
      obtain ⟨rfl, -⟩ := Prod.mk.inj hloop
      exact absurd hn (by decide)
    | some p =>
      rw [hopen] at hloop
      exact goesOn_opening hkept h hlen hclass hopen hnext hloop
  | closing type =>
    simp only [hclass] at hloop
    cases hclose : jsmnClose type pos (Parser.at w s rest) with
    | none =>
      rw [hclose] at hloop
      obtain ⟨rfl, -⟩ := Prod.mk.inj hloop
      exact absurd hn (by decide)
    | some p =>
      rw [hclose] at hloop
      exact goesOn_closing hkept h hlen hclose hnext hloop
  | quote =>
    simp only [hclass] at hloop
    cases hparse : jsmnParseString text pos (Parser.at w s rest) with
    | error e =>
      rw [hparse] at hloop
      obtain ⟨rfl, -⟩ := Prod.mk.inj hloop
      cases e <;> exact absurd hn (by decide)
    | ok r =>
      obtain ⟨pos', text', p⟩ := r
      rw [hparse] at hloop
      obtain ⟨start, stop, hfill, hstop, hspan⟩ := jsmnParseString_fills hparse
      dsimp only at hstop hspan
      exact goesOn_filled hkept h hlen hfill (by omega) (by omega) hloop
  | blank =>
    simp only [hclass] at hloop
    exact ⟨_, _, _, _, _, h, hlen, hnext, hloop⟩
  | colon =>
    simp only [hclass] at hloop
    exact ⟨_, _, _, _, _, hkept.colon h, hlen, hnext, hloop⟩
  | comma =>
    simp only [hclass] at hloop
    obtain ⟨s', hcomma, hs'⟩ := jsmnComma_at w rest s
    rw [hcomma] at hloop
    refine ⟨_, _, _, _, _, ?_, hlen, hnext, hloop⟩
    rcases hs' with rfl | ⟨j, hj, rfl⟩
    · exact h
    · exact hkept.comma h hj
  | other =>
    simp only [hclass] at hloop
    cases hparse : jsmnParsePrimitive (c :: text) pos (Parser.at w s rest) with
    | error e =>
      rw [hparse] at hloop
      obtain ⟨rfl, -⟩ := Prod.mk.inj hloop
      cases e <;> exact absurd hn (by decide)
    | ok r =>
      obtain ⟨pos', text', p⟩ := r
      rw [hparse] at hloop
      obtain ⟨start, stop, hfill, hstop, hspan⟩ := jsmnParsePrimitive_fills hparse
      dsimp only at hstop hspan
      rw [List.length_cons] at hspan
      exact goesOn_filled hkept h hlen hfill (by omega) (by omega) hloop

end

/-- What every round keeps holds of the tokens of a parse that succeeds. The induction is on the
rounds. -/
theorem jsmnLoop_invariant {L : ℕ} {Inv : List Tok → Option ℕ → Prop} (hkept : Kept L Inv)
    {rounds : ℕ} {text : List UInt8} {pos : ℕ} {n : ℤ} {toks : List Tok} (h : Inv w s)
    (hlen : w.length + rest.length = maxJsonTokens) (hpos : pos + text.length = L)
    (hloop : jsmnLoop rounds text pos w.length (Parser.at w s rest) = (n, toks)) (hn : 0 ≤ n) :
    ∃ w' rest' s', toks = w' ++ rest' ∧ n = w'.length ∧ Inv w' s' := by
  have hfinish : ∀ {w rest : List Tok} {s : Option ℕ}, Inv w s →
      jsmnFinish w.length (Parser.at w s rest) = (n, toks) →
      ∃ w' rest' s', toks = w' ++ rest' ∧ n = w'.length ∧ Inv w' s' := by
    intro w rest s h hfin
    unfold jsmnFinish at hfin
    split_ifs at hfin
    · obtain ⟨rfl, -⟩ := Prod.mk.inj hfin
      exact absurd hn (by decide)
    · obtain ⟨rfl, rfl⟩ := Prod.mk.inj hfin
      exact ⟨w, rest, s, rfl, rfl, h⟩
  induction rounds generalizing text pos w s rest with
  | zero => exact hfinish h hloop
  | succ rounds ih =>
    cases text with
    | nil => exact hfinish h hloop
    | cons c text =>
      by_cases hnul : c = 0
      · unfold jsmnLoop at hloop
        rw [if_pos hnul] at hloop
        exact hfinish h hloop
      · obtain ⟨w', s', rest', text', pos', h', hlen', hpos', hloop'⟩ :=
          jsmnLoop_round hkept h hlen hpos hnul hloop hn
        exact ih h' hlen' hpos' hloop'

/-- Every token begins in the text, and ends in it or has no end yet. -/
def Spans (L : ℕ) (w : List Tok) : Prop := ∀ t ∈ w, 0 ≤ t.start ∧ t.stop ≤ L

/-- Counting a child moves no token. -/
theorem Spans.bumped {L : ℕ} (h : Spans L w) : Spans L (bumped s w) := by
  intro t ht
  cases s with
  | none => exact h t ht
  | some i =>
    obtain ⟨k, hk⟩ := List.mem_iff_getElem?.mp ht
    unfold Json.bumped at hk
    rw [List.getElem?_modify, Option.map_eq_map, Option.map_eq_some_iff] at hk
    obtain ⟨t₀, ht₀, rfl⟩ := hk
    have hspan := h t₀ (List.mem_iff_getElem?.mpr ⟨k, ht₀⟩)
    split_ifs
    · exact hspan
    · exact hspan

/-- The loop keeps the tokens nested and inside the text. -/
theorem nested_kept (L : ℕ) : Kept L fun w s => Nested w s ∧ Spans L w where
  super := fun h i hi => (h.1.super i hi).1
  fill := by
    rintro w s type start stop ⟨hnested, hspans⟩ hstop
    refine ⟨hnested.attach rfl (.inl ⟨rfl, ?_⟩), List.forall_mem_append.mpr
      ⟨hspans.bumped, List.forall_mem_singleton.mpr ⟨Int.natCast_nonneg _, ?_⟩⟩⟩
    · have hne : (stop : ℤ) ≠ -1 := by omega
      simp [Tok.isOpen, hne]
    · show (stop : ℤ) ≤ L
      exact_mod_cast hstop
  opens := by
    rintro w s type pos ⟨hnested, hspans⟩ hcont
    refine ⟨hnested.attach rfl (.inr ⟨rfl, hcont⟩), List.forall_mem_append.mpr
      ⟨hspans.bumped, List.forall_mem_singleton.mpr ⟨Int.natCast_nonneg _, ?_⟩⟩⟩
    show (-1 : ℤ) ≤ L
    omega
  close := by
    rintro w s i pos ⟨hnested, hspans⟩ hi hpos
    refine ⟨hnested.close hi pos, fun t ht => ?_⟩
    obtain ⟨k, hk⟩ := List.mem_iff_getElem?.mp ht
    rw [List.getElem?_modify, Option.map_eq_map, Option.map_eq_some_iff] at hk
    obtain ⟨t₀, ht₀, rfl⟩ := hk
    have hspan := hspans t₀ (List.mem_iff_getElem?.mpr ⟨k, ht₀⟩)
    split_ifs
    · refine ⟨hspan.1, ?_⟩
      show (pos : ℤ) + 1 ≤ L
      omega
    · exact hspan
  colon := fun h => ⟨h.1.colon, h.2⟩
  comma := fun h hj => ⟨h.1.comma hj, h.2⟩

/-- Whatever the text, the tokens that a successful parse counts are those it has written. They form
a hedge, and lie within the text. -/
theorem jsmnParse_hedge {js : List UInt8} {tokens toks : List Tok} {n : ℤ}
    (hlen : tokens.length = maxJsonTokens) (h : jsmnParse js tokens = (n, toks)) (hn : 0 ≤ n) :
    ∃ w rest k, toks = w ++ rest ∧ n = w.length ∧ Hedge k (arities w) ∧ (∀ t ∈ w, 0 ≤ t.size) ∧
      Spans js.length w := by
  have hstart : (0 : ℤ) = ([] : List Tok).length := rfl
  unfold jsmnParse at h
  rw [hstart] at h
  obtain ⟨w, rest, s, htoks, hcount, hnested, hspans⟩ :=
    jsmnLoop_invariant (nested_kept js.length) ⟨nested_nil, nofun⟩ (by simpa using hlen)
      (Nat.zero_add _) h hn
  obtain ⟨k, hk⟩ := hnested.hedge
  exact ⟨w, rest, k, htoks, hcount, hk, hnested.sizes, hspans⟩

end

/-! ## The array keeps its length -/

section
variable {p p' : Parser}

/-- A child is counted. -/
theorem bumpSuper_length (p : Parser) : p.bumpSuper.tokens.length = p.tokens.length := by
  unfold Parser.bumpSuper
  split
  · rfl
  · exact List.length_modify ..

/-- A token is taken. -/
theorem jsmnAllocToken_length (h : jsmnAllocToken p = some p') :
    p'.tokens.length = p.tokens.length := by
  unfold jsmnAllocToken at h
  split_ifs at h
  rw [← Option.some.inj h]
  exact List.length_modify ..

/-- A token is filled in. -/
theorem jsmnFillToken_length {type : TokType} {start stop : ℕ}
    (h : jsmnFillToken p type start stop = some p') : p'.tokens.length = p.tokens.length := by
  obtain ⟨q, hq, rfl⟩ := Option.map_eq_some_iff.mp h
  rw [← jsmnAllocToken_length hq]
  exact List.length_set

/-- A container is opened. -/
theorem jsmnOpen_length {type : TokType} {pos : ℕ} (h : jsmnOpen type pos p = some p') :
    p'.tokens.length = p.tokens.length := by
  obtain ⟨q, hq, rfl⟩ := Option.map_eq_some_iff.mp h
  rw [← jsmnAllocToken_length hq, ← bumpSuper_length q]
  exact List.length_modify ..

/-- A container is closed. -/
theorem jsmnClose_length {type : TokType} {pos : ℕ} (h : jsmnClose type pos p = some p') :
    p'.tokens.length = p.tokens.length := by
  unfold jsmnClose at h
  split at h
  · cases h
  · split_ifs at h
    rw [← Option.some.inj h]
    exact List.length_modify ..

/-- A comma changes no token. -/
theorem jsmnComma_tokens (p : Parser) : (jsmnComma p).tokens = p.tokens := by
  unfold jsmnComma
  split
  · rfl
  · simp only
    split_ifs
    · rfl
    · split <;> rfl

/-- The parser writes into the array and does not change its length. -/
theorem jsmnLoop_length {rounds : ℕ} {text : List UInt8} {pos : ℕ} {count : ℤ} {p : Parser} :
    (jsmnLoop rounds text pos count p).2.length = p.tokens.length := by
  have hfinish : ∀ (count : ℤ) (p : Parser), (jsmnFinish count p).2 = p.tokens := by
    intro count p
    unfold jsmnFinish
    split_ifs <;> rfl
  -- the induction is on the rounds, one case for each kind of character
  induction rounds generalizing text pos count p with
  | zero => rw [jsmnLoop, hfinish]
  | succ rounds ih =>
    cases text with
    | nil => rw [jsmnLoop, hfinish]; simp
    | cons c text =>
      rw [jsmnLoop]
      split_ifs
      · rw [hfinish]
      · cases charClass c with
        | opening type =>
          simp only
          cases hopen : jsmnOpen type pos p with
          | none => rfl
          | some p' => exact ih.trans (jsmnOpen_length hopen)
        | closing type =>
          simp only
          cases hclose : jsmnClose type pos p with
          | none => rfl
          | some p' => exact ih.trans (jsmnClose_length hclose)
        | quote =>
          simp only [jsmnParseString]
          cases scanString .plain text (pos + 1) with
          | error e => rfl
          | ok r =>
            simp only [bind, Except.bind]
            cases hfill : jsmnFillToken p .string (pos + 1) r.1 with
            | none => rfl
            | some p' => exact ih.trans ((bumpSuper_length p').trans (jsmnFillToken_length hfill))
        | blank => exact ih
        | colon => exact ih
        | comma =>
          simp only
          rw [ih, jsmnComma_tokens]
        | other =>
          simp only [jsmnParsePrimitive]
          cases scanPrimitive (c :: text) pos with
          | none => rfl
          | some r =>
            simp only
            cases hfill : jsmnFillToken p .primitive pos r.1 with
            | none => rfl
            | some p' => exact ih.trans ((bumpSuper_length p').trans (jsmnFillToken_length hfill))

/-- The parser neither grows nor shrinks the array. -/
theorem jsmnParse_length (js : List UInt8) (tokens : List Tok) :
    (jsmnParse js tokens).2.length = tokens.length :=
  jsmnLoop_length

end

end SlcRtld.Json
