import SlcRtld.Json.Compact

/-!
# Reading the members of an object

A text of the grammar that begins with a known member has that member in its tree: the white space
is empty where the text has none, a string ends at its first quotation mark that no backslash
precedes, and a value that begins with a quotation mark is a string (`Pairs.first`). A string means
no more bytes than it has, and fewer if anything in it is escaped (`length_decode`); so a string
that means its own text has no escapes.
-/

namespace SlcRtld.Json

/-! ## Strings -/

/-- A character begins with a byte that is no quote, and a plain byte is its own character. -/
theorem wellFormed_text {c : Character} (hc : c.wellFormed = true) :
    ∃ b bs, c.text = b :: bs ∧ b ≠ 0x22 ∧ (isLiteral b = true → c = .unescaped b) := by
  cases c with
  | unescaped b =>
    refine ⟨b, [], rfl, ?_, fun _ => rfl⟩
    rintro rfl
    exact absurd hc (by decide)
  | escape b => exact ⟨0x5c, [b], rfl, by decide, fun h => absurd h (by decide)⟩
  | unicode x y z w => exact ⟨0x5c, _, rfl, by decide, fun h => absurd h (by decide)⟩

/-- A string that is spelled with bytes that stand for themselves. -/
theorem eq_verbatim {s : List Character} (hs : s.all Character.wellFormed = true) {b rest rest' : Bytes}
    (hb : b.all isLiteral = true) (h : rawText s ++ 0x22 :: rest = b ++ 0x22 :: rest') :
    s = verbatim b ∧ rest = rest' := by
  induction b generalizing s with
  | nil =>
    cases s with
    | nil => exact ⟨rfl, List.tail_eq_of_cons_eq h⟩
    | cons c s =>
      obtain ⟨x, xs, hx, hne, -⟩ := wellFormed_text (List.all_eq_true.mp hs c List.mem_cons_self)
      rw [rawText, List.flatMap_cons, hx] at h
      exact absurd (List.head_eq_of_cons_eq h) hne
  | cons y b ih =>
    obtain ⟨hy, hb'⟩ := Bool.and_eq_true_iff.mp hb
    cases s with
    | nil =>
      obtain rfl : (0x22 : UInt8) = y := List.head_eq_of_cons_eq h
      exact absurd hy (by decide)
    | cons c s =>
      obtain ⟨hc, hs'⟩ := Bool.and_eq_true_iff.mp hs
      obtain ⟨x, xs, hx, -, hplain⟩ := wellFormed_text hc
      have hhead : x = y := by
        rw [rawText, List.flatMap_cons, hx] at h
        exact List.head_eq_of_cons_eq h
      obtain rfl := hhead
      obtain rfl := hplain hy
      have htail : rawText s ++ 0x22 :: rest = b ++ 0x22 :: rest' := List.tail_eq_of_cons_eq h
      obtain ⟨rfl, rfl⟩ := ih hs' hb' htail
      exact ⟨rfl, rfl⟩

/-- A quotation mark in a character is the second byte of an escape. -/
theorem quote_in_text {c : Character} (hc : c.wellFormed = true) {a b : Bytes}
    (h : c.text = a ++ 0x22 :: b) : a = [0x5c] := by
  have hmem : 0x22 ∈ c.text := by rw [h]; simp
  cases c with
  | unescaped x =>
    rw [Character.text, List.mem_singleton] at hmem
    obtain rfl := hmem
    exact absurd hc (by decide)
  | escape x =>
    cases a with
    | nil => exact absurd (List.head_eq_of_cons_eq h) (by decide)
    | cons y a =>
      have hy : (0x5c : UInt8) = y := List.head_eq_of_cons_eq h
      have hlength := congrArg List.length h
      simp only [Character.text, List.length_cons, List.length_nil, List.length_append] at hlength
      rw [List.length_eq_zero_iff.mp (show a.length = 0 by omega), hy]
  | unicode x y z w =>
    simp only [Character.wellFormed, Bool.and_eq_true] at hc
    simp only [Character.text, List.mem_cons, List.not_mem_nil, or_false] at hmem
    obtain ⟨⟨⟨hx, hy⟩, hz⟩, hw⟩ := hc
    rcases hmem with h | h | rfl | rfl | rfl | rfl
    · exact absurd h (by decide)
    · exact absurd h (by decide)
    · exact absurd hx (by decide)
    · exact absurd hy (by decide)
    · exact absurd hz (by decide)
    · exact absurd hw (by decide)

/-- A quotation mark inside a string has a backslash before it. -/
theorem backslash_of_quote {s : List Character} (hs : s.all Character.wellFormed = true) {a b : Bytes}
    (h : rawText s = a ++ 0x22 :: b) : ∃ a', a = a' ++ [0x5c] := by
  induction s generalizing a with
  | nil => exact absurd (congrArg List.length h) (by simp [rawText])
  | cons c s ih =>
    obtain ⟨hc, hs'⟩ := Bool.and_eq_true_iff.mp hs
    have hlater : ∀ {a'}, rawText s = a' ++ 0x22 :: b → ∃ a'', c.text ++ a' = a'' ++ [0x5c] := by
      intro a' h'
      obtain ⟨a'', rfl⟩ := ih hs' h'
      exact ⟨c.text ++ a'', (List.append_assoc ..).symm⟩
    rcases List.append_eq_append_iff.mp (show c.text ++ rawText s = a ++ 0x22 :: b from h) with
      ⟨a', rfl, h'⟩ | ⟨c', hc', h'⟩
    · exact hlater h'
    · cases c' with
      | nil =>
        obtain rfl : c.text = a := by rw [hc', List.append_nil]
        obtain ⟨a'', ha''⟩ := hlater (show rawText s = [] ++ 0x22 :: b from h'.symm)
        exact ⟨a'', by rw [← ha'', List.append_nil]⟩
      | cons x c' =>
        obtain rfl : (0x22 : UInt8) = x := List.head_eq_of_cons_eq h'
        exact ⟨[], quote_in_text hc hc'⟩

/-! ## How long a string is -/

/-- A character that is written with a backslash. -/
def Character.isEscape : Character → Bool
  | .unescaped _ => false
  | _ => true

/-- A code point takes at most four bytes. -/
theorem length_utf8 (n : ℕ) : (utf8 n).length ≤ 4 := by
  unfold utf8
  split_ifs <;> simp

/-- An escape means fewer bytes than it has. -/
theorem length_decodeFrom (high : Option ℕ) (s : List Character) :
    (decodeFrom high s).length + s.countP Character.isEscape ≤
      (rawText s).length + ((high.map utf8).getD []).length := by
  induction s generalizing high with
  | nil => simp [decodeFrom, rawText]
  | cons c s ih =>
    have hnone : (decodeFrom none s).length + s.countP Character.isEscape ≤ (rawText s).length :=
      ih none
    cases c with
    | unescaped b =>
      have hraw : (rawText (.unescaped b :: s)).length = (rawText s).length + 1 := by
        simp [rawText, Character.text]
      rw [hraw, List.countP_cons_of_neg Bool.false_ne_true, decodeFrom, List.length_append, List.length_cons]
      omega
    | escape b =>
      have hraw : (rawText (.escape b :: s)).length = (rawText s).length + 2 := by
        simp [rawText, Character.text]
      rw [hraw, List.countP_cons_of_pos rfl, decodeFrom, List.length_append, List.length_cons]
      omega
    | unicode x y z w =>
      have hraw : (rawText (.unicode x y z w :: s)).length = (rawText s).length + 6 := by
        simp [rawText, Character.text]
      -- A high surrogate waits for its partner, and is counted there.
      have hsome : (decodeFrom (some (codeUnit x y z w)) s).length + s.countP Character.isEscape ≤
          (rawText s).length + (utf8 (codeUnit x y z w)).length := ih _
      have hunit := length_utf8 (codeUnit x y z w)
      rw [hraw, List.countP_cons_of_pos rfl]
      cases high with
      | none =>
        rw [decodeFrom]
        simp only [Option.map_none, Option.getD_none, List.length_nil]
        split_ifs
        · omega
        · rw [List.length_append]
          omega
      | some h =>
        have hpair := length_utf8 (0x10000 + (h - 0xd800) * 0x400 + (codeUnit x y z w - 0xdc00))
        rw [decodeFrom]
        simp only [Option.map_some, Option.getD_some]
        split_ifs
        all_goals
          simp only [List.length_append]
          omega

/-- Every escape is longer than what it means. -/
theorem length_decode (s : List Character) :
    (decode s).length + s.countP Character.isEscape ≤ (rawText s).length := length_decodeFrom none s

/-- A string that means its own text has no escapes. -/
theorem all_isLiteral_of_decode {s : List Character} (hs : s.all Character.wellFormed = true)
    (h : decode s = rawText s) : (rawText s).all isLiteral = true := by
  have hcount : s.countP Character.isEscape = 0 := by
    have hle := length_decode s
    rw [h] at hle
    omega
  have hnone := List.countP_eq_zero.mp hcount
  rw [rawText, List.all_flatMap, List.all_eq_true]
  intro c hc
  cases c with
  | unescaped b => simpa [Character.text, isLiteral] using List.all_eq_true.mp hs _ hc
  | escape b => exact absurd rfl (hnone _ hc)
  | unicode x y z w => exact absurd rfl (hnone _ hc)

/-- There is no white space before a byte that is none. -/
theorem blank_eq_nil {blank t t' : Bytes} {c : UInt8} (hblank : blank.all isBlank = true)
    (hc : isBlank c = false) (h : blank ++ t = c :: t') : blank = [] ∧ t = c :: t' := by
  cases blank with
  | nil => exact ⟨rfl, h⟩
  | cons b blank =>
    obtain rfl : b = c := List.head_eq_of_cons_eq h
    exact absurd (Bool.and_eq_true_iff.mp hblank).1 (hc ▸ Bool.false_ne_true)

/-- A value that begins with a quotation mark is a string. -/
theorem Value.string_of_quote {v : Value} (hv : v.wellFormed = true) {t w : Bytes}
    (h : v.text ++ t = 0x22 :: w) :
    ∃ s, v = .string s ∧ s.all Character.wellFormed = true ∧ w = rawText s ++ 0x22 :: t := by
  cases v with
  | primitive p =>
    cases p with
    | nil => exact absurd hv (by decide)
    | cons c p =>
      obtain rfl : c = 0x22 := List.head_eq_of_cons_eq h
      simp [Value.wellFormed, isNumber, isNumberFrom, NumberState.next, isDigit, literalNames] at hv
  | string s =>
    refine ⟨s, rfl, hv, ?_⟩
    rw [Value.text, quoted] at h
    simpa using (List.tail_eq_of_cons_eq h).symm
  | emptyArray => exact absurd (List.head_eq_of_cons_eq h) (by decide)
  | array => exact absurd (List.head_eq_of_cons_eq h) (by decide)
  | emptyObject => exact absurd (List.head_eq_of_cons_eq h) (by decide)
  | object => exact absurd (List.head_eq_of_cons_eq h) (by decide)

/-- The key and the value of a member, with what follows them. -/
theorem member_first {key : List Character} {afterKey beforeValue : Bytes} {v : Value}
    (hkey : key.all Character.wellFormed = true) (hafterKey : afterKey.all isBlank = true)
    (hbefore : beforeValue.all isBlank = true) (hv : v.wellFormed = true) {k t w : Bytes}
    (hk : k.all isLiteral = true)
    (h : quoted key ++ afterKey ++ 0x3a :: beforeValue ++ v.text ++ t =
      0x22 :: k ++ 0x22 :: 0x3a :: 0x22 :: w) :
    key = verbatim k ∧ ∃ s, v = .string s ∧ s.all Character.wellFormed = true ∧
      w = rawText s ++ 0x22 :: t := by
  have hquoted : rawText key ++ 0x22 :: (afterKey ++ 0x3a :: (beforeValue ++ (v.text ++ t))) =
      k ++ 0x22 :: 0x3a :: 0x22 :: w := by
    simpa [quoted] using h
  obtain ⟨hname, hrest⟩ := eq_verbatim hkey hk hquoted
  obtain ⟨-, hcolon⟩ := blank_eq_nil hafterKey (by decide) hrest
  obtain ⟨-, hvalue⟩ := blank_eq_nil hbefore (by decide) (List.tail_eq_of_cons_eq hcolon)
  exact ⟨hname, Value.string_of_quote hv hvalue⟩

/-- What follows the value of the first member: white space, and the end of the object or a comma
and the other members. -/
inductive Pairs.Follow (tail : Bytes) (first : List Character × Value) : Pairs → Bytes → Prop where
  | last {ps : Pairs} {after : Bytes} (hafter : after.all isBlank = true)
      (hentries : ps.entries = [first]) : Follow tail first ps (after ++ tail)
  | cons {ps rest : Pairs} {after before : Bytes} (hafter : after.all isBlank = true)
      (hbefore : before.all isBlank = true) (hrest : rest.wellFormed = true)
      (hentries : ps.entries = first :: rest.entries) :
      Follow tail first ps (after ++ 0x2c :: (before ++ (rest.text ++ tail)))

/-- The first member of an object. -/
theorem Pairs.first {ps : Pairs} (hps : ps.wellFormed = true) {k w tail : Bytes}
    (hk : k.all isLiteral = true) (h : ps.text ++ tail = 0x22 :: k ++ 0x22 :: 0x3a :: 0x22 :: w) :
    ∃ s more, s.all Character.wellFormed = true ∧ w = rawText s ++ 0x22 :: more ∧
      Follow tail (verbatim k, .string s) ps more := by
  cases ps with
  | last key afterKey beforeValue v after =>
    simp only [Pairs.wellFormed, Bool.and_eq_true, and_assoc] at hps
    obtain ⟨hkey, hafterKey, hbefore, hv, hafter⟩ := hps
    rw [Pairs.text, List.append_assoc _ after] at h
    obtain ⟨rfl, s, rfl, hs, hw⟩ := member_first hkey hafterKey hbefore hv hk h
    exact ⟨s, _, hs, hw, .last hafter rfl⟩
  | cons key afterKey beforeValue v after before rest =>
    simp only [Pairs.wellFormed, Bool.and_eq_true, and_assoc] at hps
    obtain ⟨hkey, hafterKey, hbeforeValue, hv, hafter, hbefore, hrest⟩ := hps
    have hsplit : (Pairs.cons key afterKey beforeValue v after before rest).text ++ tail =
        quoted key ++ afterKey ++ 0x3a :: beforeValue ++ v.text ++
          (after ++ 0x2c :: (before ++ (rest.text ++ tail))) := by
      simp [Pairs.text]
    rw [hsplit] at h
    obtain ⟨rfl, s, rfl, hs, hw⟩ := member_first hkey hafterKey hbeforeValue hv hk h
    exact ⟨s, _, hs, hw, .cons hafter hbefore hrest rfl⟩

/-- A first member whose value is known, and another one after it. -/
theorem Pairs.skip {ps : Pairs} (hps : ps.wellFormed = true) {k b w tail : Bytes}
    (hk : k.all isLiteral = true) (hb : b.all isLiteral = true)
    (h : ps.text ++ 0x7d :: tail =
      0x22 :: k ++ 0x22 :: 0x3a :: 0x22 :: (b ++ 0x22 :: 0x2c :: 0x22 :: w)) :
    ∃ rest : Pairs, rest.wellFormed = true ∧
      ps.entries = (verbatim k, .string (verbatim b)) :: rest.entries ∧
      rest.text ++ 0x7d :: tail = 0x22 :: w := by
  obtain ⟨s, more, hs, hw, hfollow⟩ := Pairs.first hps hk h
  obtain ⟨rfl, rfl⟩ := eq_verbatim hs hb hw.symm
  generalize hmore : (0x2c : UInt8) :: 0x22 :: w = more at hfollow
  cases hfollow with
  | last hafter =>
    obtain ⟨-, hend⟩ := blank_eq_nil hafter (by decide) hmore.symm
    exact absurd (List.head_eq_of_cons_eq hend) (by decide)
  | cons hafter hbefore hrest hentries =>
    obtain ⟨-, hcomma⟩ := blank_eq_nil hafter (by decide) hmore.symm
    obtain ⟨-, hnext⟩ := blank_eq_nil hbefore (by decide) (List.tail_eq_of_cons_eq hcomma)
    exact ⟨_, hrest, hentries, hnext⟩

/-- The object of a text that begins with a brace and a quotation mark. -/
theorem Document.object_of_brace {t : Document} (ht : t.wellFormed = true) {w : Bytes}
    (h : t.text = 0x7b :: 0x22 :: w) :
    ∃ (ps : Pairs) (tail : Bytes), ps.wellFormed = true ∧ t.value.entries = ps.entries ∧
      ps.text ++ 0x7d :: tail = 0x22 :: w := by
  simp only [Document.wellFormed, Bool.and_eq_true] at ht
  obtain ⟨⟨hbefore, hv⟩, -⟩ := ht
  rw [Document.text, List.append_assoc] at h
  obtain ⟨-, hvalue⟩ := blank_eq_nil hbefore (by decide) h
  cases hval : t.value with
  | primitive p =>
    rw [hval] at hv hvalue
    cases p with
    | nil => exact absurd hv (by decide)
    | cons c p =>
      obtain rfl : c = 0x7b := List.head_eq_of_cons_eq hvalue
      simp [Value.wellFormed, isNumber, isNumberFrom, NumberState.next, isDigit, literalNames] at hv
  | string | emptyArray | array =>
    rw [hval] at hvalue
    exact absurd (List.head_eq_of_cons_eq hvalue) (by decide)
  | emptyObject blank =>
    rw [hval] at hv hvalue
    have htail : blank ++ 0x7d :: t.after = 0x22 :: w := by
      simpa [Value.text] using hvalue
    obtain ⟨-, hend⟩ := blank_eq_nil hv (by decide) htail
    exact absurd (List.head_eq_of_cons_eq hend) (by decide)
  | object blank ps =>
    rw [hval] at hv hvalue
    obtain ⟨hblank, hps⟩ := Bool.and_eq_true_iff.mp hv
    have htail : blank ++ (ps.text ++ 0x7d :: t.after) = 0x22 :: w := by
      simpa [Value.text] using hvalue
    exact ⟨ps, t.after, hps, rfl, (blank_eq_nil hblank (by decide) htail).2⟩

end SlcRtld.Json
