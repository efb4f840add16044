import SlcRtld.Json.Scan

/-!
# The tokens of a JSON text

On a text of the grammar, `jsmn_parse` writes the tokens of the syntax tree in preorder
(`Value.toks`): a token for every value and for every key, where the key has its value as its only
child, an array has its elements, and an object has its keys. `jsmnParse_text` proves it, by an
induction over the tree that follows the parser through the text of a value.

While a value is read the superior token may move: after an array or an object it is the innermost
one that is still open, and a comma goes back there from a key. So the induction says that the
superior token afterwards is the one from before, or the innermost open one.
-/

namespace SlcRtld.Json

/-! ## The layout -/

mutual

/-- The number of tokens of a value. -/
def Value.count : Value → ℕ
  | .primitive _ | .string _ | .emptyArray _ | .emptyObject _ => 1
  | .array _ items => items.count + 1
  | .object _ pairs => pairs.count + 1

/-- The tokens of an array's elements. -/
def Items.count : Items → ℕ
  | .last v _ => v.count
  | .cons v _ _ rest => v.count + rest.count

/-- The tokens of an object's members: one more for each key. -/
def Pairs.count : Pairs → ℕ
  | .last _ _ _ v _ => v.count + 1
  | .cons _ _ _ v _ _ rest => v.count + 1 + rest.count

end

/-- The number of elements. -/
def Items.size : Items → ℕ
  | .last .. => 1
  | .cons _ _ _ rest => rest.size + 1

/-- The number of members. -/
def Pairs.size : Pairs → ℕ
  | .last .. => 1
  | .cons _ _ _ _ _ _ rest => rest.size + 1

/-- Where the value of a member begins, when its key begins at a position. -/
def valuePos (key : List Character) (afterKey beforeValue : Bytes) (pos : ℕ) : ℕ :=
  pos + (quoted key).length + afterKey.length + 1 + beforeValue.length

/-- Where what follows a value and a comma begins. -/
def nextPos (v : Value) (after before : Bytes) (pos : ℕ) : ℕ :=
  pos + v.text.length + after.length + 1 + before.length

/-- The token of a string that begins at a position. -/
def stringTok (s : List Character) (pos : ℕ) (size : ℤ) : Tok :=
  ⟨.string, ↑(pos + 1), ↑(pos + 1 + (rawText s).length), size⟩

mutual

/-- The tokens of a value whose text begins at a position: preorder, a key with its value as its
only child. -/
def Value.toks : Value → ℕ → List Tok
  | .primitive t, pos => [⟨.primitive, pos, ↑(pos + t.length), 0⟩]
  | .string s, pos => [stringTok s pos 0]
  | .emptyArray blank, pos => [⟨.array, pos, ↑(pos + (Value.emptyArray blank).text.length), 0⟩]
  | .array blank items, pos =>
    ⟨.array, pos, ↑(pos + (Value.array blank items).text.length), items.size⟩ ::
      items.toks (pos + 1 + blank.length)
  | .emptyObject blank, pos => [⟨.object, pos, ↑(pos + (Value.emptyObject blank).text.length), 0⟩]
  | .object blank pairs, pos =>
    ⟨.object, pos, ↑(pos + (Value.object blank pairs).text.length), pairs.size⟩ ::
      pairs.toks (pos + 1 + blank.length)

/-- The layout of an array's elements. -/
def Items.toks : Items → ℕ → List Tok
  | .last v _, pos => v.toks pos
  | .cons v after before rest, pos => v.toks pos ++ rest.toks (nextPos v after before pos)

/-- The layout of an object's members: a key, with its value as the only child. -/
def Pairs.toks : Pairs → ℕ → List Tok
  | .last key afterKey beforeValue v _, pos =>
    stringTok key pos 1 :: v.toks (valuePos key afterKey beforeValue pos)
  | .cons key afterKey beforeValue v after before rest, pos =>
    let pos' := valuePos key afterKey beforeValue pos
    stringTok key pos 1 :: v.toks pos' ++ rest.toks (nextPos v after before pos')

end

mutual

/-- The layout has as many tokens as are counted. -/
theorem Value.length_toks : ∀ (v : Value) (pos : ℕ), (v.toks pos).length = v.count
  | .primitive _, _ | .string _, _ | .emptyArray _, _ | .emptyObject _, _ => by
    simp [Value.toks, Value.count]
  | .array _ items, pos => by
    simp [Value.toks, Value.count, items.length_toks]
  | .object _ pairs, pos => by
    simp [Value.toks, Value.count, pairs.length_toks]

/-- The layout has as many tokens as are counted. -/
theorem Items.length_toks : ∀ (l : Items) (pos : ℕ), (l.toks pos).length = l.count
  | .last v _, pos => by
    simp [Items.toks, Items.count, v.length_toks]
  | .cons v _ _ rest, pos => by
    simp [Items.toks, Items.count, v.length_toks, rest.length_toks]

/-- The layout has as many tokens as are counted. -/
theorem Pairs.length_toks : ∀ (l : Pairs) (pos : ℕ), (l.toks pos).length = l.count
  | .last _ _ _ v _, pos => by
    simp [Pairs.toks, Pairs.count, v.length_toks]
  | .cons _ _ _ v _ _ rest, pos => by
    simp [Pairs.toks, Pairs.count, v.length_toks, rest.length_toks]
    omega

end

/-- A token that has an end is closed. -/
theorem isOpen_false (type : TokType) (start size : ℤ) (stop : ℕ) :
    (Tok.mk type start stop size).isOpen = false := by
  have hstop : (stop : ℤ) ≠ -1 := by omega
  simp [Tok.isOpen, hstop]

mutual

/-- No token of a whole value is open. -/
theorem Value.toks_closed : ∀ (v : Value) (pos : ℕ), ∀ t ∈ v.toks pos, t.isOpen = false
  | .primitive _, _ | .string _, _ | .emptyArray _, _ | .emptyObject _, _ => by
    intro t ht
    rw [Value.toks, List.mem_singleton] at ht
    rw [ht]
    exact isOpen_false ..
  | .array _ items, pos => by
    rw [Value.toks]
    exact List.forall_mem_cons.mpr ⟨isOpen_false .., items.toks_closed _⟩
  | .object _ pairs, pos => by
    rw [Value.toks]
    exact List.forall_mem_cons.mpr ⟨isOpen_false .., pairs.toks_closed _⟩

/-- The tokens of a layout are closed. -/
theorem Items.toks_closed : ∀ (l : Items) (pos : ℕ), ∀ t ∈ l.toks pos, t.isOpen = false
  | .last v _, pos => by
    rw [Items.toks]
    exact v.toks_closed pos
  | .cons v _ _ rest, pos => by
    rw [Items.toks]
    exact List.forall_mem_append.mpr ⟨v.toks_closed pos, rest.toks_closed _⟩

/-- The tokens of a layout are closed. -/
theorem Pairs.toks_closed : ∀ (l : Pairs) (pos : ℕ), ∀ t ∈ l.toks pos, t.isOpen = false
  | .last _ _ _ v _, pos => by
    rw [Pairs.toks]
    exact List.forall_mem_cons.mpr ⟨isOpen_false .., v.toks_closed _⟩
  | .cons _ _ _ v _ _ rest, pos => by
    rw [Pairs.toks]
    exact List.forall_mem_cons.mpr
      ⟨isOpen_false .., List.forall_mem_append.mpr ⟨v.toks_closed _, rest.toks_closed _⟩⟩

end

/-! ## The parser writes the layout -/

/-- The parser reads a value and writes its tokens, under the superior token. -/
def Value.Tokenised (v : Value) : Prop :=
  ∀ (w rest : List Tok) (s : Option ℕ) (pos : ℕ) (more : Bytes),
    (∀ i, s = some i → i < w.length) → w.length + rest.length = maxJsonTokens →
    v.count ≤ rest.length → Ends more →
    ∃ s', (s' = s ∨ s' = lastOpen w) ∧
      jsmnFrom (v.text ++ more) pos w s rest =
        jsmnFrom more (pos + v.text.length) (bumped s w ++ v.toks pos) s' (rest.drop v.count)

section
variable {w rest ts : List Tok} {s : Option ℕ} {c : Tok} {more : Bytes} {v : Value}

/-- Counting a child opens and closes nothing. -/
theorem lastWith_isOpen_bumped (n : ℕ) :
    lastWith Tok.isOpen (bumped s w) n = lastWith Tok.isOpen w n := by
  induction n with
  | zero => rfl
  | succ n ih =>
    unfold lastWith
    rw [ih]
    have hany : ((bumped s w)[n]?).any Tok.isOpen = (w[n]?).any Tok.isOpen := by
      cases s with
      | none => rfl
      | some i =>
        unfold bumped
        rw [List.getElem?_modify]
        cases w[n]? with
        | none => rfl
        | some t =>
          rw [Option.map_eq_map, Option.map_some, Option.any_some, Option.any_some]
          split_ifs <;> rfl
    rw [hany]

/-- Counting a child keeps the innermost container. -/
theorem lastOpen_bumped : lastOpen (bumped s w) = lastOpen w := by
  unfold lastOpen
  rw [length_bumped, lastWith_isOpen_bumped]

/-- The token behind the first part is counted up. -/
theorem bumped_innermost (w ts : List Tok) (c : Tok) :
    bumped (some w.length) (w ++ c :: ts) = w ++ c.bump :: ts :=
  modify_length_append ..

/-- A value that is an element of the innermost array. -/
theorem Value.Tokenised.element (hv : v.Tokenised) (h : Innermost c ts) (pos : ℕ)
    (hlen : (w ++ c :: ts).length + rest.length = maxJsonTokens) (hfit : v.count ≤ rest.length)
    (hend : Ends more) :
    jsmnFrom (v.text ++ more) pos (w ++ c :: ts) (some w.length) rest =
      jsmnFrom more (pos + v.text.length) (w ++ c.bump :: (ts ++ v.toks pos)) (some w.length)
        (rest.drop v.count) := by
  have hsuper : ∀ i, some w.length = some i → i < (w ++ c :: ts).length := by
    intro i hi
    rw [← Option.some.inj hi, List.length_append, List.length_cons]
    omega
  obtain ⟨s', hs', hread⟩ := hv (w ++ c :: ts) rest (some w.length) pos more hsuper hlen hfit hend
  have hback : s' = some w.length := by
    rcases hs' with rfl | rfl
    · rfl
    · exact h.last w
  rw [hread, hback, bumped_innermost, List.append_assoc, List.cons_append]

/-- A member of the innermost object. The superior token afterwards is the object, or the key. -/
theorem Value.Tokenised.member (hv : v.Tokenised) (h : Innermost c ts) (pos : ℕ)
    {key : List Character}
    {afterKey beforeValue : Bytes} (hkey : key.all Character.wellFormed = true)
    (hafter : afterKey.all isBlank = true) (hbefore : beforeValue.all isBlank = true)
    (hlen : (w ++ c :: ts).length + rest.length = maxJsonTokens) (hfit : v.count + 1 ≤ rest.length)
    (hend : Ends more) :
    ∃ s', (s' = some w.length ∨ ∃ i t, s' = some i ∧ t.isContainer = false ∧
        (w ++ c.bump :: (ts ++ stringTok key pos 1 ::
          v.toks (valuePos key afterKey beforeValue pos)))[i]? = some t) ∧
      jsmnFrom (quoted key ++ (afterKey ++ 0x3a :: (beforeValue ++ (v.text ++ more)))) pos
          (w ++ c :: ts) (some w.length) rest =
        jsmnFrom more (valuePos key afterKey beforeValue pos + v.text.length)
          (w ++ c.bump :: (ts ++ stringTok key pos 1 ::
            v.toks (valuePos key afterKey beforeValue pos))) s' (rest.drop (v.count + 1)) := by
  cases rest with
  | nil => simp at hfit
  | cons t rest =>
    rw [List.length_cons] at hlen hfit
    have hsuper : ∀ i, some w.length = some i → i < (w ++ c :: ts).length := by
      intro i hi
      rw [← Option.some.inj hi, List.length_append, List.length_cons]
      omega
    -- the key, then the colon, which makes it the superior token
    rw [jsmnFrom_quoted hkey hsuper t (by omega), jsmnFrom_blank hafter, jsmnFrom_colon,
      jsmnFrom_blank hbefore, bumped_innermost]
    have hkeyLen : (w ++ c.bump :: ts).length = (w ++ c :: ts).length := by simp
    have hsuper' : ∀ i, some (w ++ c.bump :: ts).length = some i →
        i < (w ++ c.bump :: ts ++ [stringTok key pos 0]).length := by
      intro i hi
      rw [← Option.some.inj hi]
      simp
    obtain ⟨s', hs', hread⟩ := hv (w ++ c.bump :: ts ++ [stringTok key pos 0]) rest
      (some (w ++ c.bump :: ts).length) (valuePos key afterKey beforeValue pos) more hsuper'
      (by rw [List.length_append, List.length_singleton, hkeyLen]; omega) (by omega) hend
    have hbumped : bumped (some (w ++ c.bump :: ts).length)
        (w ++ c.bump :: ts ++ [stringTok key pos 0]) = w ++ c.bump :: ts ++ [stringTok key pos 1] :=
      bumped_innermost _ [] _
    rw [hbumped] at hread
    have hall : w ++ c.bump :: ts ++ [stringTok key pos 1] ++
        v.toks (valuePos key afterKey beforeValue pos) = w ++ c.bump :: (ts ++ stringTok key pos 1 ::
          v.toks (valuePos key afterKey beforeValue pos)) := by simp
    rw [hall] at hread
    refine ⟨s', ?_, hread⟩
    rcases hs' with rfl | rfl
    · refine .inr ⟨_, stringTok key pos 1, rfl, rfl, ?_⟩
      rw [← hall, List.getElem?_append_left (by simp), List.getElem?_concat_length]
    · left
      have hinner : Innermost c.bump (ts ++ [stringTok key pos 0]) :=
        h.bump.append fun x hx => by
          rw [List.mem_singleton.mp hx]
          exact isOpen_false ..
      have hsplit : w ++ c.bump :: ts ++ [stringTok key pos 0] =
          w ++ c.bump :: (ts ++ [stringTok key pos 0]) := by simp
      rw [hsplit]
      exact hinner.last w

end

/-- The token with some more children. -/
def Tok.grow (c : Tok) (n : ℕ) : Tok := { c with size := c.size + n }

/-- Counting one child, and then more. -/
theorem Tok.bump_grow (c : Tok) (n : ℕ) : c.bump.grow n = c.grow (n + 1) := by
  unfold Tok.bump Tok.grow
  congr 1
  push_cast
  omega

/-- The parser reads the elements of the innermost array. -/
def Items.Tokenised (l : Items) : Prop :=
  ∀ (w ts rest : List Tok) (c : Tok) (pos : ℕ) (more : Bytes), Innermost c ts →
    (w ++ c :: ts).length + rest.length = maxJsonTokens → l.count ≤ rest.length → Ends more →
    jsmnFrom (l.text ++ more) pos (w ++ c :: ts) (some w.length) rest =
      jsmnFrom more (pos + l.text.length) (w ++ c.grow l.size :: (ts ++ l.toks pos)) (some w.length)
        (rest.drop l.count)

/-- The parser reads the members of the innermost object. -/
def Pairs.Tokenised (l : Pairs) : Prop :=
  ∀ (w ts rest : List Tok) (c : Tok) (pos : ℕ) (more : Bytes), Innermost c ts →
    (w ++ c :: ts).length + rest.length = maxJsonTokens → l.count ≤ rest.length → Ends more →
    ∃ s', jsmnFrom (l.text ++ more) pos (w ++ c :: ts) (some w.length) rest =
      jsmnFrom more (pos + l.text.length) (w ++ c.grow l.size :: (ts ++ l.toks pos)) s'
        (rest.drop l.count)

/-- The only element. -/
theorem Items.tokenised_last {v : Value} (hv : v.Tokenised) {after : Bytes}
    (hafter : after.all isBlank = true) : (Items.last v after).Tokenised := by
  intro w ts rest c pos more h hlen hfit hend
  have hread := hv.element h pos hlen hfit (ends_blank hafter hend)
  have htext : (Items.last v after).text ++ more = v.text ++ (after ++ more) := by
    rw [Items.text, List.append_assoc]
  rw [htext, hread, jsmnFrom_blank hafter, Items.text, List.length_append, ← Nat.add_assoc]
  rfl

/-- The first element, a comma, and the rest. -/
theorem Items.tokenised_cons {v : Value} (hv : v.Tokenised) {after before : Bytes}
    (hafter : after.all isBlank = true) (hbefore : before.all isBlank = true) {l : Items}
    (hl : l.Tokenised) : (Items.cons v after before l).Tokenised := by
  intro w ts rest c pos more h hlen hfit hend
  rw [Items.count] at hfit
  have hcut : Ends (after ++ 0x2c :: (before ++ (l.text ++ more))) :=
    ends_blank hafter (ends_cons (by decide) _)
  have hread := hv.element h pos hlen (by omega) hcut
  have htext : (Items.cons v after before l).text ++ more =
      v.text ++ (after ++ 0x2c :: (before ++ (l.text ++ more))) := by
    simp [Items.text]
  have hinner := h.bump.append (v.toks_closed pos)
  have hcomma := jsmnFrom_comma (w := w) hinner (before ++ (l.text ++ more))
    (pos + v.text.length + after.length) (rest.drop v.count) (.inl rfl)
  have hlen' : (w ++ c.bump :: (ts ++ v.toks pos)).length + (rest.drop v.count).length =
      maxJsonTokens := by
    simp only [List.length_append, List.length_cons, List.length_drop, v.length_toks] at hlen ⊢
    omega
  have hrest := hl w (ts ++ v.toks pos) (rest.drop v.count) c.bump (nextPos v after before pos) more
    hinner hlen' (by rw [List.length_drop]; omega) hend
  rw [htext, hread, jsmnFrom_blank hafter, hcomma, jsmnFrom_blank hbefore]
  rw [nextPos] at hrest
  rw [hrest]
  have hpos : pos + v.text.length + after.length + 1 + before.length + l.text.length =
      pos + (Items.cons v after before l).text.length := by
    simp only [Items.text, List.length_append, List.length_cons]
    omega
  rw [hpos, Tok.bump_grow, List.append_assoc, List.drop_drop]
  rfl

/-- The only member. -/
theorem Pairs.tokenised_last {key : List Character} {afterKey beforeValue after : Bytes} {v : Value}
    (hv : v.Tokenised) (hkey : key.all Character.wellFormed = true)
    (hafterKey : afterKey.all isBlank = true) (hbefore : beforeValue.all isBlank = true)
    (hafter : after.all isBlank = true) :
    (Pairs.last key afterKey beforeValue v after).Tokenised := by
  intro w ts rest c pos more h hlen hfit hend
  obtain ⟨s', -, hread⟩ := hv.member h pos hkey hafterKey hbefore hlen hfit
    (ends_blank hafter hend)
  have htext : (Pairs.last key afterKey beforeValue v after).text ++ more =
      quoted key ++ (afterKey ++ 0x3a :: (beforeValue ++ (v.text ++ (after ++ more)))) := by
    simp [Pairs.text]
  have hpos : valuePos key afterKey beforeValue pos + v.text.length + after.length =
      pos + (Pairs.last key afterKey beforeValue v after).text.length := by
    simp only [valuePos, Pairs.text, List.length_append, List.length_cons]
    omega
  refine ⟨s', ?_⟩
  rw [htext, hread, jsmnFrom_blank hafter, hpos]
  rfl

/-- The first member, a comma, and the rest. -/
theorem Pairs.tokenised_cons {key : List Character} {afterKey beforeValue after before : Bytes}
    {v : Value} {l : Pairs} (hv : v.Tokenised) (hkey : key.all Character.wellFormed = true)
    (hafterKey : afterKey.all isBlank = true) (hbeforeValue : beforeValue.all isBlank = true)
    (hafter : after.all isBlank = true) (hbefore : before.all isBlank = true) (hl : l.Tokenised) :
    (Pairs.cons key afterKey beforeValue v after before l).Tokenised := by
  intro w ts rest c pos more h hlen hfit hend
  rw [Pairs.count] at hfit
  -- the value ends before blanks and a comma
  have hcut : Ends (after ++ 0x2c :: (before ++ (l.text ++ more))) :=
    ends_blank hafter (ends_cons (by decide) _)
  obtain ⟨s₁, hs₁, hread⟩ := hv.member h pos hkey hafterKey hbeforeValue hlen (by omega) hcut
  have htext : (Pairs.cons key afterKey beforeValue v after before l).text ++ more =
      quoted key ++ (afterKey ++ 0x3a :: (beforeValue ++
        (v.text ++ (after ++ 0x2c :: (before ++ (l.text ++ more)))))) := by
    simp [Pairs.text]
  -- the object stays the innermost open token after its pair
  have hinner : Innermost c.bump
      (ts ++ stringTok key pos 1 :: v.toks (valuePos key afterKey beforeValue pos)) :=
    h.bump.append (List.forall_mem_cons.mpr ⟨isOpen_false .., v.toks_closed _⟩)
  have hcomma := jsmnFrom_comma (w := w) hinner (before ++ (l.text ++ more))
    (valuePos key afterKey beforeValue pos + v.text.length + after.length)
    (rest.drop (v.count + 1)) (hs₁.imp_right fun ⟨i, t, hi, hcont, ht⟩ => ⟨i, t, hi, ht, hcont⟩)
  have hlen' : (w ++ c.bump :: (ts ++ stringTok key pos 1 ::
      v.toks (valuePos key afterKey beforeValue pos))).length + (rest.drop (v.count + 1)).length =
        maxJsonTokens := by
    simp only [List.length_append, List.length_cons, List.length_drop, v.length_toks] at hlen ⊢
    omega
  -- the rest of the object is read with one child more and as many tokens fewer
  obtain ⟨s', hrest⟩ := hl w _ (rest.drop (v.count + 1)) c.bump
    (nextPos v after before (valuePos key afterKey beforeValue pos)) more hinner hlen'
    (by rw [List.length_drop]; omega) hend
  refine ⟨s', ?_⟩
  rw [htext, hread, jsmnFrom_blank hafter, hcomma, jsmnFrom_blank hbefore]
  -- the positions of the two halves add up to the length of the text
  have hpos : nextPos v after before (valuePos key afterKey beforeValue pos) + l.text.length =
      pos + (Pairs.cons key afterKey beforeValue v after before l).text.length := by
    simp only [nextPos, valuePos, Pairs.text, List.length_append, List.length_cons]
    omega
  rw [hpos] at hrest
  rw [nextPos] at hrest
  rw [hrest, Tok.bump_grow, List.append_assoc, List.drop_drop]
  rfl

/-- The two brackets of a kind of value. -/
def Bracketed (o b : UInt8) (type : TokType) : Prop :=
  o ≠ 0 ∧ charClass o = .opening type ∧ b ≠ 0 ∧ charClass b = .closing type

/-- The brackets of an array. -/
theorem bracketed_array : Bracketed 0x5b 0x5d .array := by
  unfold Bracketed
  decide

/-- The braces of an object. -/
theorem bracketed_object : Bracketed 0x7b 0x7d .object := by
  unfold Bracketed
  decide

/-- The parser reads what is between two brackets: `n` children of the innermost array or object,
and `k` tokens in all. -/
def Inside (inside : Bytes) (n k : ℕ) (toks : ℕ → List Tok) : Prop :=
  ∀ (w rest : List Tok) (c : Tok) (pos : ℕ) (more : Bytes), Innermost c [] →
    (w ++ [c]).length + rest.length = maxJsonTokens → k ≤ rest.length → Ends more →
    ∃ s', jsmnFrom (inside ++ more) pos (w ++ [c]) (some w.length) rest =
      jsmnFrom more (pos + inside.length) (w ++ c.grow n :: toks pos) s' (rest.drop k)

/-- Nothing between the brackets. -/
theorem inside_nil : Inside [] 0 0 fun _ => [] := by
  intro w rest c pos more _ _ _ _
  refine ⟨some w.length, ?_⟩
  have hgrow : c.grow 0 = c := by simp [Tok.grow]
  rw [hgrow]
  rfl

/-- Elements between brackets. -/
theorem Items.Tokenised.inside {l : Items} (h : l.Tokenised) : Inside l.text l.size l.count l.toks :=
  fun w rest c pos more hc hlen hfit hend => ⟨_, h w [] rest c pos more hc hlen hfit hend⟩

/-- Members between braces. -/
theorem Pairs.Tokenised.inside {l : Pairs} (h : l.Tokenised) : Inside l.text l.size l.count l.toks :=
  fun w rest c pos more hc hlen hfit hend => h w [] rest c pos more hc hlen hfit hend

/-- An array or an object: a bracket opens it, what is inside is read with it as the innermost one,
and the other bracket closes it. -/
theorem Value.tokenised_container {v : Value} {o b : UInt8} {type : TokType} {blank inside : Bytes}
    {n k : ℕ} {toks : ℕ → List Tok} (hbrackets : Bracketed o b type)
    (hblank : blank.all isBlank = true) (hinside : Inside inside n k toks)
    (hclosed : ∀ pos, ∀ t ∈ toks pos, t.isOpen = false)
    (htext : v.text = o :: (blank ++ (inside ++ [b]))) (hcount : v.count = k + 1)
    (htoks : ∀ pos, v.toks pos =
      ⟨type, pos, ↑(pos + v.text.length), n⟩ :: toks (pos + 1 + blank.length)) :
    v.Tokenised := by
  intro w rest s pos more hs hlen hfit hend
  obtain ⟨ho, hopen, hb, hclose⟩ := hbrackets
  rw [hcount] at hfit
  cases rest with
  | nil => simp at hfit
  | cons t rest =>
    rw [List.length_cons] at hlen hfit
    -- the bracket opens a container, and it is the innermost one
    have hopened : Innermost ⟨type, pos, -1, 0⟩ [] := by
      have hstart : (pos : ℤ) ≠ -1 := by omega
      exact ⟨by simp [Tok.isOpen, hstart], opening_isContainer hopen .., nofun⟩
    have hlen' : (bumped s w ++ [Tok.mk type pos (-1) 0]).length + rest.length = maxJsonTokens := by
      rw [List.length_append, length_bumped, List.length_singleton]
      omega
    -- what is inside is read up to the closing bracket
    obtain ⟨s', hread⟩ := hinside (bumped s w) rest ⟨type, pos, -1, 0⟩ (pos + 1 + blank.length)
      (b :: more) hopened hlen' (by omega) (ends_cons (by rw [endsPrimitive, hclose]) _)
    rw [length_bumped] at hread
    have hinner : Innermost ((Tok.mk type pos (-1) 0).grow n) (toks (pos + 1 + blank.length)) :=
      ⟨hopened.isOpen, hopened.container, hclosed _⟩
    have hmore : v.text ++ more = o :: (blank ++ (inside ++ b :: more)) := by
      rw [htext]
      simp
    have hpos : pos + 1 + blank.length + inside.length + 1 = pos + v.text.length := by
      rw [htext]
      simp only [List.length_cons, List.length_append, List.length_nil]
      omega
    -- the closing bracket is the last byte of the text
    have hstop : ((pos + 1 + blank.length + inside.length : ℕ) : ℤ) + 1 =
        ↑(pos + v.text.length) := by
      rw [← hpos]
      push_cast
      rfl
    refine ⟨lastOpen w, .inr rfl, ?_⟩
    rw [hmore, jsmnFrom_open ho hopen hs t (by omega), jsmnFrom_blank hblank, hread,
      jsmnFrom_close hb hclose hinner, lastOpen_bumped, hcount, List.drop_succ_cons, hpos, hstop,
      htoks]
    simp [Tok.grow]

mutual

/-- The induction over the tree. -/
theorem Value.tokenised : ∀ v : Value, v.wellFormed = true → v.Tokenised
  | .primitive b, hb => by
    intro w rest s pos more hs hlen hfit hend
    obtain ⟨t, rest, rfl⟩ := List.exists_cons_of_length_pos hfit
    rw [List.length_cons] at hlen
    exact ⟨s, .inl rfl, jsmnFrom_primitive hb hend hs t (by omega)⟩
  | .string cs, hcs => by
    intro w rest s pos more hs hlen hfit hend
    obtain ⟨t, rest, rfl⟩ := List.exists_cons_of_length_pos hfit
    rw [List.length_cons] at hlen
    exact ⟨s, .inl rfl, jsmnFrom_quoted hcs hs t (by omega)⟩
  | .emptyArray blank, hblank =>
    Value.tokenised_container bracketed_array hblank inside_nil nofun (by simp [Value.text])
      (by rw [Value.count]) fun pos => by rw [Value.toks]; rfl
  | .array blank items, h => by
    obtain ⟨hblank, hitems⟩ := Bool.and_eq_true_iff.mp h
    exact Value.tokenised_container bracketed_array hblank (items.tokenised hitems).inside
      items.toks_closed (by simp [Value.text]) (by rw [Value.count]) fun pos => by rw [Value.toks]
  | .emptyObject blank, hblank =>
    Value.tokenised_container bracketed_object hblank inside_nil nofun (by simp [Value.text])
      (by rw [Value.count]) fun pos => by rw [Value.toks]; rfl
  | .object blank pairs, h => by
    obtain ⟨hblank, hpairs⟩ := Bool.and_eq_true_iff.mp h
    exact Value.tokenised_container bracketed_object hblank (pairs.tokenised hpairs).inside
      pairs.toks_closed (by simp [Value.text]) (by rw [Value.count]) fun pos => by rw [Value.toks]

/-- The parser writes the layout of an array's elements. The induction is on the elements. -/
theorem Items.tokenised : ∀ l : Items, l.wellFormed = true → l.Tokenised
  | .last v after, h => by
    obtain ⟨hv, hafter⟩ := Bool.and_eq_true_iff.mp h
    exact Items.tokenised_last (v.tokenised hv) hafter
  | .cons v after before rest, h => by
    simp only [Items.wellFormed, Bool.and_eq_true] at h
    obtain ⟨⟨⟨hv, hafter⟩, hbefore⟩, hrest⟩ := h
    exact Items.tokenised_cons (v.tokenised hv) hafter hbefore (rest.tokenised hrest)

/-- The parser writes the layout of an object's members. The induction is on the members. -/
theorem Pairs.tokenised : ∀ l : Pairs, l.wellFormed = true → l.Tokenised
  | .last key afterKey beforeValue v after, h => by
    simp only [Pairs.wellFormed, Bool.and_eq_true] at h
    obtain ⟨⟨⟨⟨hkey, hafterKey⟩, hbefore⟩, hv⟩, hafter⟩ := h
    exact Pairs.tokenised_last (v.tokenised hv) hkey hafterKey hbefore hafter
  | .cons key afterKey beforeValue v after before rest, h => by
    simp only [Pairs.wellFormed, Bool.and_eq_true] at h
    obtain ⟨⟨⟨⟨⟨⟨hkey, hafterKey⟩, hbeforeValue⟩, hv⟩, hafter⟩, hbefore⟩, hrest⟩ := h
    exact Pairs.tokenised_cons (v.tokenised hv) hkey hafterKey hbeforeValue hafter hbefore
      (rest.tokenised hrest)

end

/-- On a text of the grammar whose tokens fit, `jsmn_parse` counts the tokens of the value and
writes them, the rest of the array staying what it was. -/
theorem jsmnParse_text {t : Document} (ht : t.wellFormed = true) {tokens : List Tok}
    (hlen : tokens.length = maxJsonTokens) (hfit : t.value.count ≤ maxJsonTokens) :
    jsmnParse t.text tokens =
      ((t.value.count : ℤ), t.value.toks t.before.length ++ tokens.drop t.value.count) := by
  simp only [Document.wellFormed, Bool.and_eq_true] at ht
  obtain ⟨⟨hbefore, hvalue⟩, hafter⟩ := ht
  have hstart : jsmnParse t.text tokens = jsmnFrom t.text 0 [] none tokens := rfl
  have htext : t.text = t.before ++ (t.value.text ++ (t.after ++ [])) := by
    simp [Document.text]
  obtain ⟨s', -, hread⟩ := t.value.tokenised hvalue [] tokens none (0 + t.before.length)
    (t.after ++ []) nofun (by simpa using hlen) (by omega) (ends_blank hafter ends_nil)
  rw [hstart, htext, jsmnFrom_blank hbefore, hread, jsmnFrom_blank hafter, Nat.zero_add]
  -- the text is over, and nothing is open
  have hclosed : lastWith Tok.isOpen (t.value.toks t.before.length ++ tokens.drop t.value.count)
      (t.value.toks t.before.length).length = none := by
    rw [lastWith_append _ _ (Nat.le_refl _)]
    exact lastWith_skip [] (t.value.toks_closed _)
  have hcount := t.value.length_toks t.before.length
  rw [hcount] at hclosed
  show jsmnFinish (t.value.toks t.before.length).length
    (Parser.at (t.value.toks t.before.length) s' (tokens.drop t.value.count)) = _
  unfold jsmnFinish Parser.at
  simp only [hclosed, Option.isSome_none, Bool.false_eq_true, if_false, hcount]

end SlcRtld.Json
