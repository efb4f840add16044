import SlcRtld.Auth.Keyring

/-!
# The lines of a key file

What `readEntry` makes of a line, by the shape of the line: blanks, a comment, a single word, or a
word and a secret with blanks around and between them. Every line has one of these shapes
(`line_shape`).
-/

namespace SlcRtld.Auth

open Libc

/-- A text of blanks. -/
def Blank (l : List UInt8) : Prop := ∀ c ∈ l, isSpace c = true

/-- A word: no blank in it, and not empty. -/
structure IsWord (w : List UInt8) : Prop where
  ne_nil : w ≠ []
  solid : ∀ c ∈ w, isSpace c = false

/-- A text that begins and ends with something that is not a blank. -/
structure IsTrimmed (p : List UInt8) : Prop where
  first : ∃ c cs, p = c :: cs ∧ isSpace c = false
  last : ∃ cs c, p = cs ++ [c] ∧ isSpace c = false

section
variable {a b c w p l : List UInt8}

/-- Nothing is blank. -/
theorem blank_nil : Blank [] := nofun

/-- Blanks, one after the other. -/
theorem Blank.append (ha : Blank a) (hb : Blank b) : Blank (a ++ b) := fun x hx =>
  (List.mem_append.mp hx).elim (ha x) (hb x)

/-- Leading blanks are dropped. -/
theorem Blank.dropWhile (ha : Blank a) (l : List UInt8) :
    (a ++ l).dropWhile isSpace = l.dropWhile isSpace :=
  List.dropWhile_append_of_pos ha

/-- Trailing blanks are dropped. -/
theorem Blank.rdropWhile (hc : Blank c) (l : List UInt8) :
    (l ++ c).rdropWhile isSpace = l.rdropWhile isSpace := by
  rw [List.rdropWhile, List.reverse_append, List.dropWhile_append_of_pos fun x hx =>
    hc x (List.mem_reverse.mp hx)]
  rfl

/-- A blank is not a NUL byte. -/
theorem Blank.cstr (ha : Blank a) (l : List UInt8) : cstr (a ++ l) = a ++ cstr l :=
  List.takeWhile_append_of_pos fun x hx => by
    have hx' := ha x hx
    simp only [decide_eq_true_eq]
    rintro rfl
    exact absurd hx' (by decide)

/-- A string ends at its NUL. -/
theorem cstr_append_of_nul (h : 0 ∈ l) (b : List UInt8) : cstr (l ++ b) = cstr l := by
  induction l with
  | nil => cases h
  | cons x l ih =>
    by_cases hx : x = 0
    · rw [hx]
      rfl
    · have hl : 0 ∈ l := (List.mem_cons.mp h).resolve_left (Ne.symm hx)
      have hcons : ∀ m, cstr (x :: m) = x :: cstr m := fun m =>
        List.takeWhile_cons_of_pos (decide_eq_true hx)
      rw [List.cons_append, hcons, hcons, ih hl]

/-- A trimmed text begins with no blank. -/
theorem IsTrimmed.dropWhile (hp : IsTrimmed p) (l : List UInt8) :
    (p ++ l).dropWhile isSpace = p ++ l := by
  obtain ⟨x, xs, rfl, hx⟩ := hp.first
  rw [List.cons_append, List.dropWhile_cons_of_neg (by rw [hx]; decide)]

/-- A trimmed text ends with no blank. -/
theorem IsTrimmed.rdropWhile (hp : IsTrimmed p) (l : List UInt8) :
    (l ++ p).rdropWhile isSpace = l ++ p := by
  obtain ⟨xs, x, rfl, hx⟩ := hp.last
  rw [← List.append_assoc, List.rdropWhile_concat_neg _ _ _ (by rw [hx]; decide)]

/-- A word is trimmed. -/
theorem IsWord.trimmed (hw : IsWord w) : IsTrimmed w := by
  constructor
  · obtain ⟨x, xs, rfl⟩ := List.exists_cons_of_ne_nil hw.ne_nil
    exact ⟨x, xs, rfl, hw.solid x (List.mem_cons_self ..)⟩
  · exact ⟨w.dropLast, w.getLast hw.ne_nil, (List.dropLast_append_getLast hw.ne_nil).symm,
      hw.solid _ (List.getLast_mem hw.ne_nil)⟩

/-! ## The shapes -/

/-- A single word, which does not begin a comment. -/
structure WordLine (l : List UInt8) : Prop where
  shape : ∃ a w c, l = a ++ w ++ c ∧ Blank a ∧ IsWord w ∧ w.head? ≠ some 0x23 ∧ Blank c

/-- A word and a secret, with blanks between them. -/
structure PairLine (l w p : List UInt8) : Prop where
  shape : ∃ a b c, l = a ++ w ++ b ++ p ++ c ∧ Blank a ∧ Blank b ∧ b ≠ [] ∧ Blank c
  word : IsWord w
  notComment : w.head? ≠ some 0x23
  secret : IsTrimmed p

/-- A line that begins, after blanks, with a `#`. -/
def CommentLine (l : List UInt8) : Prop := ∃ a rest, Blank a ∧ l = a ++ 0x23 :: rest

/-- A blank line is ignored. -/
theorem readEntry_blank (hl : Blank l) : readEntry l = .ignored := by
  have hp : (cstr l).dropWhile isSpace = [] := by
    rw [← List.append_nil l, hl.cstr, hl.dropWhile]
    rfl
  rw [readEntry, hp, if_pos (.inl rfl)]

/-- A comment is ignored. -/
theorem readEntry_comment (hl : CommentLine l) : readEntry l = .ignored := by
  obtain ⟨a, rest, ha, rfl⟩ := hl
  have hp : (cstr (a ++ 0x23 :: rest)).dropWhile isSpace = 0x23 :: cstr rest := by
    rw [ha.cstr, ha.dropWhile]
    rfl
  rw [readEntry, hp, if_pos (.inr rfl)]

/-- What is left of a line with something in it, when the blanks around it are gone. -/
theorem readEntry_trimmed {t : List UInt8} (ha : Blank a) (ht : IsTrimmed t) (hc : Blank c)
    (hnul : 0 ∉ t) (hcomment : t.head? ≠ some 0x23) :
    ((t.dropWhile fun c => !isSpace c) = [] → readEntry (a ++ t ++ c) = .noSecret) ∧
    ∀ y sp, (t.dropWhile fun c => !isSpace c) = y :: sp → sp.dropWhile isSpace ≠ [] →
      readEntry (a ++ t ++ c) = .key (t.takeWhile fun c => !isSpace c) (sp.dropWhile isSpace) := by
  have hnul' : 0 ∉ a ++ t ++ c := by
    have hz : ∀ {l}, Blank l → (0 : UInt8) ∉ l := fun hl h0 => absurd (hl 0 h0) (by decide)
    simp only [List.mem_append, not_or]
    exact ⟨⟨hz ha, hnul⟩, hz hc⟩
  have hp : (cstr (a ++ t ++ c)).dropWhile isSpace = t ++ c := by
    rw [cstr_of_no_nul hnul', List.append_assoc, ha.dropWhile, ht.dropWhile]
  have hne : t ≠ [] := by
    obtain ⟨x, xs, rfl, -⟩ := ht.first
    exact nofun
  have hgo : ¬ (t ++ c = [] ∨ (t ++ c).head? = some 0x23) := by
    rintro (h | h)
    · exact hne (List.append_eq_nil_iff.mp h).1
    · rw [List.head?_append_of_ne_nil _ hne] at h
      exact hcomment h
  have htrim : (t ++ c).rdropWhile isSpace = t := by
    rw [hc.rdropWhile]
    exact ht.rdropWhile []
  constructor
  · intro hrest
    simp only [readEntry, hp, if_neg hgo, htrim, hrest]
  · intro y sp hrest hsecret
    simp only [readEntry, hp, if_neg hgo, htrim, hrest, if_neg hsecret]

/-- A word alone has no secret. -/
theorem readEntry_word (hl : WordLine l) (hnul : 0 ∉ l) : readEntry l = .noSecret := by
  obtain ⟨a, w, c, rfl, ha, hw, hcomment, hc⟩ := hl.shape
  have hrest : (w.dropWhile fun c => !isSpace c) = [] :=
    List.dropWhile_eq_nil_iff.mpr fun x hx => by rw [hw.solid x hx]; rfl
  exact (readEntry_trimmed ha hw.trimmed hc (fun h => hnul (by simp [h])) hcomment).1 hrest

/-- A word and the rest of the line are a key. -/
theorem readEntry_pair {w p : List UInt8} (hl : PairLine l w p) (hnul : 0 ∉ l) :
    readEntry l = .key w p := by
  obtain ⟨a, b, c, rfl, ha, hb, hb₀, hc⟩ := hl.shape
  obtain ⟨y, b, rfl⟩ := List.exists_cons_of_ne_nil hb₀
  have hy : isSpace y = true := hb y (List.mem_cons_self ..)
  have hb' : Blank b := fun x hx => hb x (List.mem_cons_of_mem y hx)
  -- between the outer blanks the line starts with the id and ends with the key
  have ht : IsTrimmed (w ++ y :: b ++ p) := by
    obtain ⟨x, xs, hx, hx'⟩ := hl.word.trimmed.first
    obtain ⟨zs, z, hz, hz'⟩ := hl.secret.last
    exact ⟨⟨x, xs ++ y :: b ++ p, by rw [hx]; rfl, hx'⟩,
      ⟨w ++ y :: b ++ zs, z, by rw [hz, List.append_assoc, List.append_assoc,
        List.append_assoc], hz'⟩⟩
  have hsolid : ∀ x ∈ w, (!isSpace x) = true := fun x hx => by rw [hl.word.solid x hx]; rfl
  have hhead : (w ++ y :: b ++ p).head? ≠ some 0x23 := by
    rw [List.append_assoc, List.head?_append_of_ne_nil _ hl.word.ne_nil]
    exact hl.notComment
  -- the first blank ends the id, and the key starts after the blanks that follow
  have htake : ((w ++ y :: b ++ p).takeWhile fun c => !isSpace c) = w := by
    rw [List.append_assoc, List.takeWhile_append_of_pos hsolid, List.cons_append,
      List.takeWhile_cons_of_neg (by rw [hy]; decide), List.append_nil]
  have hdrop : ((w ++ y :: b ++ p).dropWhile fun c => !isSpace c) = y :: (b ++ p) := by
    rw [List.append_assoc, List.dropWhile_append_of_pos hsolid, List.cons_append,
      List.dropWhile_cons_of_neg (by rw [hy]; decide)]
  have hpsk : (b ++ p).dropWhile isSpace = p := by
    rw [hb'.dropWhile]
    simpa using hl.secret.dropWhile []
  have hne : p ≠ [] := by
    obtain ⟨x, xs, rfl, -⟩ := hl.secret.first
    exact nofun
  -- the two ways to bracket the line
  have hassoc : a ++ w ++ y :: b ++ p ++ c = a ++ (w ++ y :: b ++ p) ++ c := by
    simp only [List.append_assoc]
  have hinner : (0 : UInt8) ∉ w ++ y :: b ++ p := by
    intro h
    refine hnul ?_
    rw [hassoc]
    simp only [List.mem_append] at h ⊢
    tauto
  have hread := (readEntry_trimmed ha ht hc hinner hhead).2 y (b ++ p) hdrop (hpsk.trans_ne hne)
  rwa [htake, hpsk, ← hassoc] at hread

/-- Every line has one of the shapes. -/
theorem line_shape (l : List UInt8) :
    Blank l ∨ CommentLine l ∨ WordLine l ∨ ∃ w p, PairLine l w p := by
  have htake : ∀ l : List UInt8, Blank (l.takeWhile isSpace) := fun l x hx =>
    List.mem_takeWhile_imp hx
  have hl : l = l.takeWhile isSpace ++ l.dropWhile isSpace := List.takeWhile_append_dropWhile.symm
  cases hr : l.dropWhile isSpace with
  | nil =>
    rw [hr, List.append_nil] at hl
    exact .inl (hl ▸ htake l)
  | cons x xs =>
    have hx : isSpace x = false := by
      have := List.head?_dropWhile_not isSpace l
      rw [hr] at this
      simpa using this
    rw [hr] at hl
    by_cases hcomment : x = 0x23
    · exact .inr (.inl ⟨_, xs, htake l, hcomment ▸ hl⟩)
    -- the word runs to the first blank, and what follows the blanks is the secret
    set w := (x :: xs).takeWhile fun c => !isSpace c with hw
    set r := (x :: xs).dropWhile fun c => !isSpace c with hr'
    have hxs : x :: xs = w ++ r := List.takeWhile_append_dropWhile.symm
    have hword : IsWord w := by
      refine ⟨?_, fun y hy => ?_⟩
      · rw [hw, List.takeWhile_cons_of_pos (by rw [hx]; rfl)]
        exact nofun
      · simpa using List.mem_takeWhile_imp hy
    have hhead : w.head? ≠ some 0x23 := by
      rw [hw, List.takeWhile_cons_of_pos (by rw [hx]; rfl)]
      simpa using hcomment
    have hb : Blank (r.takeWhile isSpace) := htake r
    have hr₁ : r = r.takeWhile isSpace ++ r.dropWhile isSpace :=
      List.takeWhile_append_dropWhile.symm
    cases hp : r.dropWhile isSpace with
    | nil =>
      rw [hp, List.append_nil] at hr₁
      refine .inr (.inr (.inl ⟨_, w, r, ?_, htake l, hword, hhead, hr₁ ▸ hb⟩))
      rw [List.append_assoc, ← hxs]
      exact hl
    | cons y ys =>
      have hy : isSpace y = false := by
        have := List.head?_dropWhile_not isSpace r
        rw [hp] at this
        simpa using this
      -- without its blanks at the end, the secret still begins with the same byte
      set t := (y :: ys).rdropWhile isSpace with ht
      have htne : t ≠ [] := fun hnil => by
        have hall := List.rdropWhile_eq_nil_iff.mp (ht.symm.trans hnil) y (List.mem_cons_self ..)
        exact absurd hall (by rw [hy]; decide)
      have hys : y :: ys = t ++ (y :: ys).rtakeWhile isSpace :=
        (List.rdropWhile_append_rtakeWhile ..).symm
      have htrimmed : IsTrimmed t := by
        constructor
        · obtain ⟨z, zs, hz⟩ := List.exists_cons_of_ne_nil htne
          rw [hz, List.cons_append, List.cons.injEq] at hys
          exact ⟨z, zs, hz, hys.1 ▸ hy⟩
        · refine ⟨t.dropLast, t.getLast htne, (List.dropLast_append_getLast htne).symm, ?_⟩
          exact Bool.eq_false_of_not_eq_true (List.rdropWhile_last_not isSpace (y :: ys) htne)
      have hc : Blank ((y :: ys).rtakeWhile isSpace) := fun z hz => List.mem_rtakeWhile_imp hz
      refine .inr (.inr (.inr ⟨w, t, ⟨_, _, _, ?_, htake l, hb, ?_, hc⟩, hword, hhead, htrimmed⟩))
      · rw [List.append_assoc, List.append_assoc, List.append_assoc, ← hys, ← hp, ← hr₁, ← hxs]
        exact hl
      · -- a blank ends the word
        intro hnil
        rw [hnil, List.nil_append, hp] at hr₁
        have hend := List.head?_dropWhile_not (fun c => !isSpace c) (x :: xs)
        rw [← hr', hr₁] at hend
        simp [hy] at hend

end

end SlcRtld.Auth
