import SlcRtld.Json.Lookup

/-!
# Lookups that stay inside a message

`tok_find_key` counts on every key having one value, and `jsmn_parse` does not check it: a key
without a value, or an array in the place of an object, takes the lookup past the last token of the
message. A lookup stays inside the message exactly when the tokens behind the object can be read as
pairs of a token and a tree, as many as the object has children or up to the key (`PairsUp`,
`Sane.tokFindKey_inside_iff`). The tokens are a hedge whatever the text, so that they do pair up
where each child of the object has exactly one child (`Sane.tokFindKey`). The loop of `cmd_hello`
counts the children it passes, and stays inside on any message (`Sane.offeredVersions`).
-/

namespace SlcRtld.Json

open SlcRtld.Tree

/-- The token at `j` is a child of the one at `i`: between them are some of the children of `i`, but
not all. -/
def Child (w : List Tok) (i j : ℕ) : Prop :=
  i < j ∧ ∃ t k, w[i]? = some t ∧ k < t.size.toNat ∧ Hedge k (arities ((w.take j).drop (i + 1)))

/-- Every key of an object has one value. -/
def Paired (w : List Tok) : Prop :=
  ∀ i j t u, w[i]? = some t → t.type = .object → Child w i j → w[j]? = some u → u.size = 1

/-- Whether a token is the child of another can be computed. -/
instance (w : List Tok) (i j : ℕ) : Decidable (Child w i j) :=
  decidable_of_iff (i < j ∧ ∃ t ∈ w[i]?, ∃ k < t.size.toNat,
      Hedge k (arities ((w.take j).drop (i + 1))))
    ⟨fun ⟨hij, t, ht, k, hk, h⟩ => ⟨hij, t, k, ht, hk, h⟩,
      fun ⟨hij, t, k, ht, hk, h⟩ => ⟨hij, t, ht, k, hk, h⟩⟩

/-- Whether every key has one value can be computed. -/
instance (w : List Tok) : Decidable (Paired w) :=
  decidable_of_iff (∀ i < w.length, ∀ j < w.length, ∀ t ∈ w[i]?, ∀ u ∈ w[j]?,
      t.type = .object → Child w i j → u.size = 1)
    ⟨fun h i j t u ht hobj hchild hu => h i (List.getElem?_eq_some_iff.mp ht).1 j
        (List.getElem?_eq_some_iff.mp hu).1 t ht u hu hobj hchild,
      fun h i _ j _ t ht u hu hobj hchild => h i j t u ht hobj hchild hu⟩

/-- The message with the first `n` tokens only. -/
def Msg.cut (m : Msg) (n : ℕ) : Msg := { m with toks := m.toks.take n }

/-- A message that is cut is less memory. -/
theorem Msg.cut_le (m : Msg) (n : ℕ) : (m.cut n).Le m where
  js := fun _ _ h => h
  toks := ⟨m.toks.drop n, (List.take_append_drop n m.toks).symm⟩

/-- What is known of the tokens of a message: they are a hedge, and their text can be read. -/
structure Sane (m : Msg) (w : List Tok) : Prop where
  toks : m.toks = w
  hedge : ∃ k, Hedge k (arities w)
  sizes : ∀ t ∈ w, 0 ≤ t.size
  read : ∀ t ∈ w, ∀ s, ∃ b, m.eqTok t s = some b

/-- After a node of a hedge come its children, and what is to come besides. -/
theorem hedge_after {k a : ℕ} {as bs : List ℕ} (h : Hedge k (as ++ a :: bs)) :
    ∃ r, Hedge (a + r) bs := by
  unfold Hedge at h
  rw [pending_append, Option.bind_eq_some_iff] at h
  obtain ⟨r, -, hread⟩ := h
  cases r with
  | zero => simp at hread
  | succ r =>
    rw [pending_succ_cons] at hread
    exact ⟨r, by rw [Nat.add_comm]; exact hread⟩

section
variable {m : Msg} {w : List Tok}

/-- Behind a token are its subtree and the trees after it. -/
theorem Sane.after (h : Sane m w) {i : ℕ} {t : Tok} (ht : w[i]? = some t) :
    ∃ r, Hedge (t.size.toNat + r) (arities (w.drop (i + 1))) := by
  obtain ⟨k, hk⟩ := h.hedge
  obtain ⟨hi, hget⟩ := List.getElem?_eq_some_iff.mp ht
  have hsplit : w = w.take i ++ t :: w.drop (i + 1) := by
    rw [← hget, ← List.drop_eq_getElem_cons hi, List.take_append_drop]
  rw [hsplit, arities_append] at hk
  exact hedge_after hk

/-- A part of the list of tokens that is a hedge begins with a tree, if it is not empty. -/
theorem split_tree {k : ℕ} {ts : List Tok} (h : Hedge (k + 1) (arities ts)) :
    ∃ tree rest, ts = tree ++ rest ∧ Hedge 1 (arities tree) ∧ Hedge k (arities rest) := by
  rw [Nat.add_comm] at h
  obtain ⟨as, bs, hsplit, has, hbs⟩ := h.split
  have hlen : as.length ≤ ts.length := by
    rw [← length_arities, hsplit, List.length_append]
    omega
  refine ⟨ts.take as.length, ts.drop as.length, (List.take_append_drop ..).symm, ?_, ?_⟩
  · have htake : arities (ts.take as.length) = as := by
      unfold arities
      rw [List.map_take]
      show (arities ts).take as.length = as
      rw [hsplit, List.take_left]
    rw [htake]
    exact has
  · have hdrop : arities (ts.drop as.length) = bs := by
      unfold arities
      rw [List.map_drop]
      show (arities ts).drop as.length = bs
      rw [hsplit, List.drop_left]
    rw [hdrop]
    exact hbs

/-- The outer loop of `tok_find_key`, after `k` keys of an object with `k + n` and their values. The
induction is on the keys to come: each has one value, which is the tree that is skipped. -/
theorem Sane.findKeyLoop (h : Sane m w) (hpaired : Paired w) {o : ℕ} {t : Tok} (ho : w[o]? = some t)
    (hobj : t.type = .object) (key : CStr) {n k i r : ℕ} (hcount : k + n = t.size.toNat)
    (hbefore : Hedge k (arities ((w.take i).drop (o + 1)))) (hi : o < i)
    (hrest : Hedge (n + r) (arities (w.drop i))) :
    ∃ a, m.findKeyLoop key n i (w.drop i) = some a ∧ ∀ j, a = some j →
      j < w.length ∧ ∃ c, j = c + 1 ∧ Child w o c ∧ m.tokEq c key = some true := by
  induction n generalizing k i with
  | zero => exact ⟨none, rfl, nofun⟩
  | succ n ih =>
    -- there is a key to come, so the message goes on with it
    obtain ⟨u, hu⟩ : ∃ u, w[i]? = some u := by
      cases hget : w[i]? with
      | some u => exact ⟨u, rfl⟩
      | none =>
        rw [List.drop_of_length_le (List.getElem?_eq_none_iff.mp hget)] at hrest
        simp [Hedge, arities] at hrest
    obtain ⟨hlt, hget⟩ := List.getElem?_eq_some_iff.mp hu
    have hdrop : w.drop i = u :: w.drop (i + 1) := by rw [← hget, ← List.drop_eq_getElem_cons hlt]
    have hchild : Child w o i := ⟨hi, t, k, ho, by omega, hbefore⟩
    have hone : u.size.toNat = 1 := by
      rw [hpaired o i t u ho hobj hchild hu]
      rfl
    -- its value is a tree of the message
    have hvalue : Hedge (n + r + 1) (arities (w.drop (i + 1))) := by
      have hcons : Hedge (n + r + 1) (u.size.toNat :: arities (w.drop (i + 1))) := by
        have hsum : n + 1 + r = n + r + 1 := by omega
        rw [hdrop, hsum] at hrest
        exact hrest
      rw [hedge_cons, hone] at hcons
      exact hcons
    obtain ⟨tree, rest, hsplit, htree, hrest'⟩ := split_tree hvalue
    have htreeLen : tree ≠ [] := by
      rintro rfl
      simp [Hedge, arities] at htree
    obtain ⟨b, hb⟩ := h.read u (List.mem_iff_getElem?.mpr ⟨i, hu⟩) key
    rw [hdrop, Msg.findKeyLoop, hb]
    cases b with
    | true =>
      refine ⟨some (i + 1), rfl, fun j hj => ?_⟩
      obtain rfl := Option.some.inj hj
      refine ⟨?_, i, rfl, hchild, ?_⟩
      · have hlen := congrArg List.length hsplit
        have hpos := List.length_pos_iff.mpr htreeLen
        rw [List.length_drop, List.length_append] at hlen
        omega
      · unfold Msg.tokEq
        rw [h.toks, hu]
        exact hb
    | false =>
      have hsizes : ∀ t ∈ tree, 0 ≤ t.size := fun t ht =>
        h.sizes t (List.mem_of_mem_drop (by rw [hsplit]; exact List.mem_append_left _ ht))
      have hskip := Msg.skipValues_hedge (i := i + 1) hsizes htree rest
      have hdrop' : w.drop (i + 1 + tree.length) = rest := by
        rw [← List.drop_drop, hsplit, List.drop_left]
      have htake : (w.take (i + 1 + tree.length)).drop (o + 1) =
          (w.take i).drop (o + 1) ++ u :: tree := by
        have hlen : (w.take i).length = i := by
          rw [List.length_take]
          omega
        have hw : w = w.take i ++ u :: tree ++ rest := by
          rw [List.append_assoc, List.cons_append, ← hsplit, ← hdrop, List.take_append_drop]
        have hn : (w.take i ++ u :: tree).length = i + 1 + tree.length := by
          rw [List.length_append, List.length_cons, hlen]
          omega
        have htaken : w.take (i + 1 + tree.length) = w.take i ++ u :: tree :=
          (congrArg (List.take (i + 1 + tree.length)) hw).trans (List.take_left' hn)
        rw [htaken, List.drop_append_of_le_length (by omega)]
      have hbefore' : Hedge (k + 1) (arities ((w.take (i + 1 + tree.length)).drop (o + 1))) := by
        rw [htake, arities_append]
        refine hbefore.append ?_
        show Hedge (0 + 1) (u.size.toNat :: arities tree)
        rw [hedge_cons, hone]
        exact htree
      have hnext := ih (k := k + 1) (i := i + 1 + tree.length) (by omega) hbefore' (by omega)
        (by rw [hdrop']; exact hrest')
      rw [hdrop'] at hnext
      simp only [Option.bind_eq_bind, Option.bind_some, Bool.false_eq_true, if_false]
      rw [hsplit, show (1 : ℤ) = (1 : ℕ) from rfl, hskip]
      exact hnext

/-- A lookup in an object, or in a token without children, reads tokens of the message only. What it
answers is a token of the message, and stands behind a child of the object that has the key's
text. -/
theorem Sane.tokFindKey (h : Sane m w) (hpaired : Paired w) {o : ℕ} {t : Tok}
    (ho : w[o]? = some t) (hobj : t.type = .object ∨ t.size = 0) (key : CStr) :
    ∃ a, m.tokFindKey o key = some a ∧ ∀ j, a = some j →
      j < w.length ∧ ∃ c, j = c + 1 ∧ Child w o c ∧ m.tokEq c key = some true := by
  unfold Msg.tokFindKey
  rw [h.toks, ho, Option.bind_eq_bind, Option.bind_some]
  rcases hobj with hobj | hnone
  · obtain ⟨r, hr⟩ := h.after ho
    have hbefore : Hedge 0 (arities ((w.take (o + 1)).drop (o + 1))) := by
      rw [List.drop_of_length_le (by rw [List.length_take]; omega)]
      exact hedge_nil
    exact h.findKeyLoop hpaired ho hobj key (Nat.zero_add _) hbefore (Nat.lt_succ_self o) hr
  · rw [hnone]
    exact ⟨none, rfl, nofun⟩

/-- The tokens begin with `n` pairs of a token and a tree, none of the tokens having the text of the
key; or with fewer, and then a token that has it and one more. -/
inductive PairsUp (m : Msg) (key : CStr) : ℕ → List Tok → Prop where
  /-- All pairs have been passed. -/
  | done (ts : List Tok) : PairsUp m key 0 ts
  /-- The key, and a token that its value can begin with. -/
  | found (n : ℕ) (t u : Tok) (ts : List Tok) (hkey : m.eqTok t key = some true) :
      PairsUp m key (n + 1) (t :: u :: ts)
  /-- Another key, and its value. -/
  | pass {n : ℕ} {t : Tok} {value rest : List Tok} (hkey : m.eqTok t key = some false)
      (hvalue : Hedge 1 (arities value)) (hrest : PairsUp m key n rest) :
      PairsUp m key (n + 1) (t :: (value ++ rest))

/-- What the inner loop of `tok_find_key` has passed over is as many trees as it was to skip. -/
theorem hedge_of_skipValues {k i i' : ℕ} {ts rest : List Tok} (hsizes : ∀ t ∈ ts, 0 ≤ t.size)
    (h : Msg.skipValues k i ts = some (i', rest)) :
    ∃ value, ts = value ++ rest ∧ i' = i + value.length ∧ Hedge k (arities value) := by
  induction ts generalizing k i with
  | nil =>
    rw [Msg.skipValues] at h
    split_ifs at h with hk
    obtain ⟨rfl, rfl⟩ := Prod.mk.inj (Option.some.inj h)
    obtain rfl : k = 0 := by omega
    exact ⟨[], rfl, rfl, hedge_nil⟩
  | cons t ts ih =>
    obtain ⟨ht, hts⟩ := List.forall_mem_cons.mp hsizes
    rw [Msg.skipValues] at h
    split_ifs at h with hk
    · obtain ⟨k, rfl⟩ : ∃ k', k = k' + 1 := ⟨k - 1, by omega⟩
      have hcount : ((k + 1 : ℕ) : ℤ) + t.size - 1 = (k + t.size.toNat : ℕ) := by omega
      rw [hcount] at h
      obtain ⟨value, rfl, rfl, hvalue⟩ := ih hts h
      exact ⟨t :: value, rfl, by rw [List.length_cons]; omega, hedge_cons.mpr hvalue⟩
    · obtain ⟨rfl, rfl⟩ := Prod.mk.inj (Option.some.inj h)
      obtain rfl : k = 0 := by omega
      exact ⟨[], rfl, rfl, hedge_nil⟩

/-- The outer loop of `tok_find_key` stays inside the tokens it is given exactly when they pair up.
The induction is on the pairs to come. -/
theorem findKeyLoop_inside_iff (key : CStr) (n i : ℕ) (ts : List Tok) (hsizes : ∀ t ∈ ts, 0 ≤ t.size)
    (hread : ∀ t ∈ ts, ∃ b, m.eqTok t key = some b) :
    (∃ a, m.findKeyLoop key n i ts = some a ∧ ∀ j, a = some j → j < i + ts.length) ↔
      PairsUp m key n ts := by
  induction n generalizing i ts with
  | zero => exact iff_of_true ⟨none, rfl, nofun⟩ (.done ts)
  | succ n ih =>
    cases ts with
    | nil =>
      refine iff_of_false ?_ nofun
      rintro ⟨a, ha, -⟩
      cases ha
    | cons t ts =>
      obtain ⟨-, hsizes'⟩ := List.forall_mem_cons.mp hsizes
      obtain ⟨b, hb⟩ := hread t (List.mem_cons_self ..)
      have hread' : ∀ u ∈ ts, ∃ b, m.eqTok u key = some b := fun u hu =>
        hread u (List.mem_cons_of_mem t hu)
      rw [Msg.findKeyLoop, hb]
      cases b with
      | true =>
        constructor
        · rintro ⟨a, ha, hinside⟩
          obtain rfl := Option.some.inj ha
          have hlt := hinside (i + 1) rfl
          cases ts with
          | nil => exact absurd hlt (Nat.lt_irrefl _)
          | cons u ts => exact .found n t u ts hb
        · intro h
          cases h with
          | found _ _ u ts _ =>
            refine ⟨some (i + 1), rfl, fun j hj => ?_⟩
            rw [← Option.some.inj hj, List.length_cons, List.length_cons]
            omega
          | pass hkey => exact absurd (hb.symm.trans hkey) (by decide)
      | false =>
        simp only [Option.bind_eq_bind, Option.bind_some, Bool.false_eq_true, if_false]
        have hlength (value rest : List Tok) :
            i + 1 + value.length + rest.length = i + (t :: (value ++ rest)).length := by
          rw [List.length_cons, List.length_append]
          omega
        constructor
        · rintro ⟨a, ha, hinside⟩
          obtain ⟨⟨i', rest⟩, hskip, hloop⟩ := Option.bind_eq_some_iff.mp ha
          -- one value has been skipped, and the loop goes on behind it
          obtain ⟨value, rfl, rfl, hvalue⟩ := hedge_of_skipValues (k := 1) hsizes' hskip
          refine .pass hb hvalue ((ih (i + 1 + value.length) rest
            (fun u hu => hsizes' u (List.mem_append_right value hu))
            fun u hu => hread' u (List.mem_append_right value hu)).mp ⟨a, hloop, fun j hj => ?_⟩)
          rw [hlength]
          exact hinside j hj
        · intro h
          cases h with
          | found _ _ _ _ hkey => exact absurd (hb.symm.trans hkey) (by decide)
          | @pass _ _ value rest _ hvalue hrest =>
            have hskip := Msg.skipValues_hedge (i := i + 1)
              (fun u hu => hsizes' u (List.mem_append_left rest hu)) hvalue rest
            obtain ⟨a, hloop, hinside⟩ := (ih (i + 1 + value.length) rest
              (fun u hu => hsizes' u (List.mem_append_right value hu))
              fun u hu => hread' u (List.mem_append_right value hu)).mpr hrest
            refine ⟨a, ?_, fun j hj => ?_⟩
            · rw [show (1 : ℤ) = (1 : ℕ) from rfl, hskip]
              exact hloop
            · rw [← hlength]
              exact hinside j hj

/-- A lookup reads tokens of the message only and answers with one of them exactly when the tokens
behind the one that it looks in pair up. -/
theorem Sane.tokFindKey_inside_iff (h : Sane m w) (o : ℕ) (key : CStr) :
    (∃ a, m.tokFindKey o key = some a ∧ ∀ j, a = some j → j < w.length) ↔
      ∃ t, w[o]? = some t ∧ PairsUp m key t.size.toNat (w.drop (o + 1)) := by
  unfold Msg.tokFindKey
  rw [h.toks]
  cases ho : w[o]? with
  | none =>
    refine iff_of_false ?_ ?_
    · rintro ⟨a, ha, -⟩
      cases ha
    · rintro ⟨t, ht, -⟩
      cases ht
  | some t =>
    have hlt := (List.getElem?_eq_some_iff.mp ho).1
    have hlength : o + 1 + (w.drop (o + 1)).length = w.length := by
      rw [List.length_drop]
      omega
    have hloop := findKeyLoop_inside_iff (m := m) key t.size.toNat (o + 1) (w.drop (o + 1))
      (fun u hu => h.sizes u (List.mem_of_mem_drop hu))
      fun u hu => h.read u (List.mem_of_mem_drop hu) key
    rw [hlength] at hloop
    rw [Option.bind_eq_bind, Option.bind_some, hloop]
    exact ⟨fun hpairs => ⟨t, rfl, hpairs⟩, fun ⟨u, hu, hpairs⟩ => Option.some.inj hu ▸ hpairs⟩

/-- The version of a token is read inside the message. -/
theorem Sane.versionOf (h : Sane m w) {t : Tok} (ht : t ∈ w) : ∃ v, m.versionOf t = some v := by
  obtain ⟨b₀, h₀⟩ := h.read t ht (bytes "1.0")
  obtain ⟨b₁, h₁⟩ := h.read t ht (bytes "1.1")
  obtain ⟨b₂, h₂⟩ := h.read t ht (bytes "1.2")
  obtain ⟨b₃, h₃⟩ := h.read t ht (bytes "1.3")
  unfold Msg.versionOf
  simp only [h₀, h₁, h₂, h₃, Option.bind_eq_bind, Option.bind_some]
  cases b₀ with
  | true => exact ⟨_, rfl⟩
  | false =>
    cases b₁ with
    | true => exact ⟨_, rfl⟩
    | false => cases b₂ <;> exact ⟨_, rfl⟩

/-- The loop of `cmd_hello` passes over trees, and as many as there are. -/
theorem Sane.versionsLoop (h : Sane m w) {n r : ℕ} {ts : List Tok} (hts : ∀ t ∈ ts, t ∈ w)
    (hhedge : Hedge (n + r) (arities ts)) (b c : Bool) :
    ∃ a, m.versionsLoop n ts b c = some a := by
  induction n generalizing ts b c with
  | zero => exact ⟨_, rfl⟩
  | succ n ih =>
    have hsum : n + 1 + r = n + r + 1 := by omega
    rw [hsum] at hhedge
    obtain ⟨tree, rest, rfl, htree, hrest⟩ := split_tree hhedge
    cases tree with
    | nil => simp [Hedge, arities] at htree
    | cons u tree =>
      obtain ⟨v, hv⟩ := h.versionOf (hts u (by simp))
      have hsize := h.sizes u (hts u (by simp))
      have hchildren : Hedge u.size.toNat (arities tree) := by
        have hone : Hedge (0 + u.size.toNat) (arities tree) := hedge_cons.mp htree
        rwa [Nat.zero_add] at hone
      have hskip := Msg.skipValues_hedge (i := 0)
        (fun t ht => h.sizes t (hts t (by simp [ht]))) hchildren rest
      rw [Int.toNat_of_nonneg hsize] at hskip
      rw [List.cons_append, Msg.versionsLoop, hv]
      simp only [Option.bind_eq_bind, Option.bind_some, hskip]
      exact ih (fun t ht => hts t (by simp [ht])) hrest _ _

/-- The versions of an array are read inside the message. -/
theorem Sane.offeredVersions (h : Sane m w) {i : ℕ} (hi : i < w.length) :
    ∃ a, m.offeredVersions i = some a := by
  have ht : w[i]? = some w[i] := List.getElem?_eq_getElem hi
  obtain ⟨r, hr⟩ := h.after ht
  unfold Msg.offeredVersions
  rw [h.toks, ht, Option.bind_eq_bind, Option.bind_some]
  exact h.versionsLoop (fun t ht => List.mem_of_mem_drop ht) hr false false

end

end SlcRtld.Json
