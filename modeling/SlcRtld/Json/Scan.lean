import SlcRtld.Json.Forest
import SlcRtld.Json.Rfc8259
import Mathlib.Data.List.Induction

/-!
# The tokeniser on the parts of a text

What `jsmn_parse` does when it comes to a string, a number or a name, a bracket, a colon, a comma or
white space of the grammar. The loop reads at least one byte a round, so the number of rounds it is
given does not matter as long as it is enough (`jsmnLoop_rounds`), and the parser in the middle of a
text can be written as `jsmnFrom`: what is left to read, where that begins, the tokens written so
far, the superior one, and the rest of the array.
-/

namespace SlcRtld.Json

open SlcRtld.Tree

/-! ## Enough rounds -/

/-- A string takes at least its closing quote. -/
theorem scanString_length {q : StringState} {text rest : Bytes} {pos stop : ℕ}
    (h : scanString q text pos = .ok (stop, rest)) : rest.length < text.length := by
  obtain ⟨hle, hlen⟩ := scanString_span h
  omega

/-- A primitive takes nothing that it does not need. -/
theorem scanPrimitive_length {text rest : Bytes} {pos stop : ℕ}
    (h : scanPrimitive text pos = some (stop, rest)) : rest.length ≤ text.length := by
  obtain ⟨hle, hlen⟩ := scanPrimitive_span h
  omega

/-- What begins a primitive does not end one. -/
theorem endsPrimitive_of_other {c : UInt8} (h : charClass c = .other) : endsPrimitive c = false := by
  unfold endsPrimitive
  rw [h]

/-- A primitive has at least one byte. -/
theorem scanPrimitive_cons {c : UInt8} {text rest : Bytes} {pos stop : ℕ} (hnul : c ≠ 0)
    (hclass : charClass c = .other) (h : scanPrimitive (c :: text) pos = some (stop, rest)) :
    rest.length ≤ text.length := by
  unfold scanPrimitive at h
  rw [if_neg (by simp [hnul, endsPrimitive_of_other hclass])] at h
  split_ifs at h
  exact scanPrimitive_length h

/-- A string leaves less of the text. -/
theorem jsmnParseString_length {text rest : Bytes} {pos pos' : ℕ} {p p' : Parser}
    (h : jsmnParseString text pos p = .ok (pos', rest, p')) : rest.length ≤ text.length := by
  unfold jsmnParseString at h
  cases hscan : scanString .plain text (pos + 1) with
  | error e => simp [hscan, bind, Except.bind] at h
  | ok y =>
    obtain ⟨stop, rest'⟩ := y
    simp only [hscan, bind, Except.bind] at h
    split at h
    · cases h
    · cases h
      exact Nat.le_of_lt (scanString_length hscan)

/-- A primitive takes at least its first byte. -/
theorem jsmnParsePrimitive_length {c : UInt8} {text rest : Bytes} {pos pos' : ℕ} {p p' : Parser}
    (hnul : c ≠ 0) (hclass : charClass c = .other)
    (h : jsmnParsePrimitive (c :: text) pos p = .ok (pos', rest, p')) :
    rest.length ≤ text.length := by
  unfold jsmnParsePrimitive at h
  split at h
  · cases h
  · rename_i stop rest' hscan
    split at h
    · cases h
    · cases h
      exact scanPrimitive_cons hnul hclass hscan

/-- As many rounds as there are bytes are enough, and more make no difference. -/
theorem jsmnLoop_rounds {r r' : ℕ} {text : Bytes} (hr : text.length ≤ r) (hr' : text.length ≤ r')
    (pos : ℕ) (count : ℤ) (p : Parser) :
    jsmnLoop r text pos count p = jsmnLoop r' text pos count p := by
  -- the induction is on the rounds; every round takes at least one byte, so both numbers are enough
  induction r generalizing r' text pos count p with
  | zero =>
    obtain rfl := List.length_eq_zero_iff.mp (Nat.le_zero.mp hr)
    cases r' <;> rfl
  | succ r ih =>
    cases text with
    | nil => cases r' <;> rfl
    | cons c text =>
      cases r' with
      | zero => simp at hr'
      | succ r' =>
        have hlen : text.length ≤ r := Nat.le_of_succ_le_succ hr
        have hlen' : text.length ≤ r' := Nat.le_of_succ_le_succ hr'
        unfold jsmnLoop
        by_cases hnul : c = 0
        · rw [if_pos hnul, if_pos hnul]
        rw [if_neg hnul, if_neg hnul]
        cases hclass : charClass c with
        | opening type =>
          simp only
          cases jsmnOpen type pos p with
          | none => rfl
          | some p' => exact ih hlen hlen' ..
        | closing type =>
          simp only
          cases jsmnClose type pos p with
          | none => rfl
          | some p' => exact ih hlen hlen' ..
        | blank | colon | comma => exact ih hlen hlen' ..
        | quote =>
          simp only
          cases hstring : jsmnParseString text pos p with
          | error e => rfl
          | ok x =>
            obtain ⟨pos', rest, p'⟩ := x
            have hshort := jsmnParseString_length hstring
            exact ih (Nat.le_trans hshort hlen) (Nat.le_trans hshort hlen') ..
        | other =>
          simp only
          cases hprim : jsmnParsePrimitive (c :: text) pos p with
          | error e => rfl
          | ok x =>
            obtain ⟨pos', rest, p'⟩ := x
            have hshort := jsmnParsePrimitive_length hnul hclass hprim
            exact ih (Nat.le_trans hshort hlen) (Nat.le_trans hshort hlen') ..

/-- The parse of what is left of a text, from a parser that has written `w`. -/
def jsmnFrom (text : Bytes) (pos : ℕ) (w : List Tok) (s : Option ℕ) (rest : List Tok) :
    ℤ × List Tok :=
  jsmnLoop text.length text pos w.length (Parser.at w s rest)

/-! ## What the parser does with the parts of a text -/

section
variable {text : Bytes} {pos : ℕ} {w rest : List Tok} {s : Option ℕ}

/-- The innermost token that is still open. -/
def lastOpen (w : List Tok) : Option ℕ := lastWith Tok.isOpen w w.length

/-- A blank is none of the other characters. -/
theorem isBlank_class {c : UInt8} (hc : isBlank c = true) : c ≠ 0 ∧ charClass c = .blank := by
  simp only [isBlank, Bool.or_eq_true, decide_eq_true_eq] at hc
  rcases hc with ((rfl | rfl) | rfl) | rfl
  all_goals decide

/-- Blanks are passed over. -/
theorem jsmnFrom_blank {blank : Bytes} (hblank : blank.all isBlank = true) :
    jsmnFrom (blank ++ text) pos w s rest = jsmnFrom text (pos + blank.length) w s rest := by
  induction blank generalizing pos with
  | nil => rfl
  | cons c blank ih =>
    obtain ⟨hc, hrest⟩ := Bool.and_eq_true_iff.mp hblank
    have hclass := isBlank_class hc
    have hstep : jsmnFrom (c :: (blank ++ text)) pos w s rest =
        jsmnFrom (blank ++ text) (pos + 1) w s rest := by
      unfold jsmnFrom
      rw [List.length_cons, jsmnLoop, if_neg hclass.1, hclass.2]
    rw [List.cons_append, hstep, ih hrest, List.length_cons]
    congr 1
    omega

/-- A token that is filled in under the superior one. -/
theorem jsmnFrom_filled {r : ℕ} (hr : text.length ≤ r) (hs : ∀ i, s = some i → i < w.length)
    (t : Tok) : jsmnLoop r text pos (w.length + 1) (Parser.at (w ++ [t]) s rest).bumpSuper =
      jsmnFrom text pos (bumped s w ++ [t]) s rest := by
  unfold jsmnFrom
  rw [bumpSuper_filled hs, jsmnLoop_rounds hr (Nat.le_refl _)]
  simp

/-- A character of the grammar is read as a whole. -/
theorem scanString_character {c : Character} (hc : c.wellFormed = true) (text : Bytes) (pos : ℕ) :
    scanString .plain (c.text ++ text) pos = scanString .plain text (pos + c.text.length) := by
  cases c with
  | unescaped b =>
    simp only [Character.wellFormed, Bool.and_eq_true, decide_eq_true_eq] at hc
    obtain ⟨⟨-, hquote⟩, hslash⟩ := hc
    show scanString .plain (b :: text) pos = _
    rw [scanString, if_neg hquote, if_neg hslash]
    rfl
  | escape c =>
    have hescape : isSimpleEscape c = true := hc
    show scanString .plain (0x5c :: c :: text) pos = _
    rw [scanString, if_neg (by decide), if_pos rfl, scanString, if_pos hescape]
    rfl
  | unicode a b c d =>
    simp only [Character.wellFormed, Bool.and_eq_true] at hc
    obtain ⟨⟨⟨ha, hb⟩, hc⟩, hd⟩ := hc
    have hdigit : ∀ x, isHexDig x = true → isHexDigit x = true := fun _ h => h
    show scanString .plain (0x5c :: 0x75 :: a :: b :: c :: d :: text) pos = _
    rw [scanString, if_neg (by decide), if_pos rfl, scanString, if_neg (by decide), if_pos rfl,
      scanString, if_pos (hdigit a ha), if_neg (by decide), scanString, if_pos (hdigit b hb),
      if_neg (by decide), scanString, if_pos (hdigit c hc), if_neg (by decide), scanString,
      if_pos (hdigit d hd), if_pos rfl]
    rfl

/-- A well-formed string is read up to its closing quote. The induction is on the characters. -/
theorem scanString_characters (cs : List Character) (hcs : cs.all Character.wellFormed = true)
    (text : Bytes) (pos : ℕ) :
    scanString .plain (rawText cs ++ 0x22 :: text) pos = .ok (pos + (rawText cs).length, text) := by
  induction cs generalizing pos with
  | nil => rfl
  | cons c cs ih =>
    obtain ⟨hc, hrest⟩ := Bool.and_eq_true_iff.mp hcs
    have hnext := fun p => ih hrest p
    have htext : rawText (c :: cs) ++ 0x22 :: text = c.text ++ (rawText cs ++ 0x22 :: text) := by
      simp [rawText]
    have hlen : (rawText (c :: cs)).length = c.text.length + (rawText cs).length := by
      simp [rawText]
    rw [htext, hlen, scanString_character hc, hnext, Nat.add_assoc]

/-- A string. -/
theorem jsmnFrom_quoted {cs : List Character} (hcs : cs.all Character.wellFormed = true)
    (hs : ∀ i, s = some i → i < w.length) (t : Tok) (hroom : w.length < maxJsonTokens) :
    jsmnFrom (quoted cs ++ text) pos w s (t :: rest) =
      jsmnFrom text (pos + (quoted cs).length)
        (bumped s w ++ [⟨.string, ↑(pos + 1), ↑(pos + 1 + (rawText cs).length), 0⟩]) s rest := by
  have hscan := scanString_characters cs hcs text (pos + 1)
  have hparse : jsmnParseString (rawText cs ++ 0x22 :: text) pos (Parser.at w s (t :: rest)) =
      .ok (pos + 1 + (rawText cs).length + 1, text,
        Parser.at (w ++ [⟨.string, ↑(pos + 1), ↑(pos + 1 + (rawText cs).length), 0⟩]) s rest) := by
    unfold jsmnParseString
    simp only [hscan, bind, Except.bind, jsmnFillToken_at t hroom]
  have htext : quoted cs ++ text = 0x22 :: (rawText cs ++ 0x22 :: text) := by simp [quoted]
  rw [htext]
  have hclass : charClass 0x22 = .quote := by decide
  unfold jsmnFrom
  rw [List.length_cons, jsmnLoop, if_neg (by decide), hclass]
  simp only [hparse]
  have hshort : text.length ≤ (rawText cs ++ 0x22 :: text).length := by
    rw [List.length_append, List.length_cons]
    omega
  rw [jsmnFrom_filled hshort hs]
  have hpos : pos + 1 + (rawText cs).length + 1 = pos + (quoted cs).length := by
    simp only [quoted, List.length_cons, List.length_append, List.length_nil]
    omega
  rw [hpos]
  rfl

/-! A primitive is read up to a byte that ends it. -/

/-- The text is over, or goes on with a byte that ends a primitive. -/
def Ends (text : Bytes) : Prop := ∀ c, text.head? = some c → endsPrimitive c = true

/-- The end of the text ends a primitive. -/
theorem ends_nil : Ends [] := nofun

/-- So does a byte that ends primitives. -/
theorem ends_cons {c : UInt8} (hc : endsPrimitive c = true) (text : Bytes) : Ends (c :: text) := by
  intro b hb
  obtain rfl := Option.some.inj hb
  exact hc

/-- So do blanks before one. -/
theorem ends_blank {blank : Bytes} (hblank : blank.all isBlank = true) (h : Ends text) :
    Ends (blank ++ text) := by
  cases blank with
  | nil => exact h
  | cons c blank =>
    obtain ⟨hc, -⟩ := Bool.and_eq_true_iff.mp hblank
    refine ends_cons ?_ _
    rw [endsPrimitive, (isBlank_class hc).2]

/-- The bytes of numbers and names. -/
def isPlain (c : UInt8) : Bool := charClass c = .other && 0x20 ≤ c && c < 0x7f

/-- A plain byte is printable and none of the structural characters. -/
theorem isPlain_iff {c : UInt8} : isPlain c = true ↔ charClass c = .other ∧ 0x20 ≤ c ∧ c < 0x7f := by
  simp [isPlain, and_assoc]

/-- Digits are plain. -/
theorem isPlain_of_isDigit {c : UInt8} (h : isDigit c = true) : isPlain c = true := by
  simp only [isDigit, Bool.and_eq_true, decide_eq_true_eq] at h
  obtain ⟨hlow, hhigh⟩ := h
  rw [isPlain_iff]
  refine ⟨?_, UInt8.le_trans (by decide) hlow, UInt8.lt_of_le_of_lt hhigh (by decide)⟩
  have hne : ∀ b : UInt8, ¬ (0x30 ≤ b ∧ b ≤ 0x39) → c ≠ b := by
    rintro b hb rfl
    exact hb ⟨hlow, hhigh⟩
  simp only [charClass, hne 0x7b (by decide), hne 0x5b (by decide), hne 0x7d (by decide),
    hne 0x5d (by decide), hne 0x22 (by decide), hne 0x09 (by decide), hne 0x0d (by decide),
    hne 0x0a (by decide), hne 0x20 (by decide), hne 0x3a (by decide), hne 0x2c (by decide),
    if_false, or_self]

/-- A number consists of plain bytes. -/
theorem NumberState.next_isPlain {q q' : NumberState} {c : UInt8} (h : q.next c = some q') :
    isPlain c = true := by
  have hsign : [(0x2b : UInt8), 0x2d, 0x2e, 0x30, 0x45, 0x65].all isPlain = true := by decide
  have hmark : (c = 0x2b ∨ c = 0x2d ∨ c = 0x2e ∨ c = 0x30 ∨ c = 0x45 ∨ c = 0x65) ∨
      isDigit c = true := by
    cases q <;> simp only [NumberState.next] at h <;> split_ifs at h <;> grind
  rcases hmark with hmark | hdigit
  · exact List.all_eq_true.mp hsign c (by simpa using hmark)
  · exact isPlain_of_isDigit hdigit

/-- So does the rest of one. The induction is on the text. -/
theorem isNumberFrom_isPlain {q : NumberState} {t : Bytes} (h : isNumberFrom q t = true) :
    t.all isPlain = true := by
  induction t generalizing q with
  | nil => rfl
  | cons c t ih =>
    unfold isNumberFrom at h
    cases hnext : q.next c with
    | none => simp [hnext] at h
    | some q' =>
      simp only [hnext] at h
      exact Bool.and_eq_true_iff.mpr ⟨NumberState.next_isPlain hnext, ih h⟩

/-- A primitive has bytes, and all of them are plain. -/
theorem primitive_isPlain {t : Bytes} (h : (Value.primitive t).wellFormed = true) :
    t ≠ [] ∧ t.all isPlain = true := by
  rcases Bool.or_eq_true_iff.mp h with hnumber | hname
  · refine ⟨?_, isNumberFrom_isPlain hnumber⟩
    rintro rfl
    cases hnumber
  · have hnames : ∀ t ∈ literalNames, t ≠ [] ∧ t.all isPlain = true := by decide
    exact hnames t (by simpa using hname)

/-- Plain bytes are read up to the first byte that ends a primitive. -/
theorem scanPrimitive_plain {t : Bytes} (ht : t.all isPlain = true) (hend : Ends text) (pos : ℕ) :
    scanPrimitive (t ++ text) pos = some (pos + t.length, text) := by
  induction t generalizing pos with
  | nil =>
    cases text with
    | nil => rfl
    | cons c text =>
      have hc := hend c rfl
      simp [scanPrimitive, hc]
  | cons c t ih =>
    obtain ⟨hc, hrest⟩ := Bool.and_eq_true_iff.mp ht
    obtain ⟨hclass, hlow, hhigh⟩ := isPlain_iff.mp hc
    have hnul : c ≠ 0 := by
      rintro rfl
      exact absurd hlow (by decide)
    have hprint : (decide (c < 32) || decide (127 ≤ c)) = false := by
      simp only [Bool.or_eq_false_iff, decide_eq_false_iff_not, UInt8.not_lt, UInt8.not_le]
      exact ⟨hlow, hhigh⟩
    rw [List.cons_append, scanPrimitive, endsPrimitive_of_other hclass]
    simp only [hnul, decide_false, Bool.or_self, Bool.false_eq_true, if_false, hprint]
    rw [ih hrest, List.length_cons, Nat.add_assoc, Nat.add_comm 1]

/-- A number or a name. -/
theorem jsmnFrom_primitive {b : Bytes} (hb : (Value.primitive b).wellFormed = true)
    (hend : Ends text) (hs : ∀ i, s = some i → i < w.length) (t : Tok)
    (hroom : w.length < maxJsonTokens) :
    jsmnFrom (b ++ text) pos w s (t :: rest) =
      jsmnFrom text (pos + b.length) (bumped s w ++ [⟨.primitive, pos, ↑(pos + b.length), 0⟩]) s
        rest := by
  obtain ⟨hne, hplain⟩ := primitive_isPlain hb
  obtain ⟨c, b, rfl⟩ := List.exists_cons_of_ne_nil hne
  have hscan := scanPrimitive_plain hplain hend pos
  have hparse : jsmnParsePrimitive (c :: b ++ text) pos (Parser.at w s (t :: rest)) =
      .ok (pos + (c :: b).length, text,
        Parser.at (w ++ [⟨.primitive, pos, ↑(pos + (c :: b).length), 0⟩]) s rest) := by
    unfold jsmnParsePrimitive
    simp only [hscan, jsmnFillToken_at t hroom]
  obtain ⟨hclass, hlow, -⟩ := isPlain_iff.mp (Bool.and_eq_true_iff.mp hplain).1
  have hnul : c ≠ 0 := by
    rintro rfl
    exact absurd hlow (by decide)
  have hshort : text.length ≤ (b ++ text).length := by
    rw [List.length_append]
    omega
  rw [List.cons_append] at hparse ⊢
  unfold jsmnFrom
  rw [List.length_cons, jsmnLoop, if_neg hnul, hclass]
  simp only [hparse]
  rw [jsmnFrom_filled hshort hs]
  rfl

/-! Brackets, braces, colons and commas. -/

/-- An opening bracket adds an open container, which becomes the parent. -/
theorem jsmnFrom_open {c : UInt8} {type : TokType} (hc : c ≠ 0) (hclass : charClass c = .opening type)
    (hs : ∀ i, s = some i → i < w.length) (t : Tok) (hroom : w.length < maxJsonTokens) :
    jsmnFrom (c :: text) pos w s (t :: rest) =
      jsmnFrom text (pos + 1) (bumped s w ++ [⟨type, pos, -1, 0⟩]) (some w.length) rest := by
  unfold jsmnFrom
  rw [List.length_cons, jsmnLoop, if_neg hc, hclass]
  simp only [jsmnOpen_at t hroom hs]
  simp

/-- Looking back from one more token. -/
theorem lastWith_snoc (q : Tok → Bool) (w : List Tok) (t : Tok) :
    lastWith q (w ++ [t]) (w ++ [t]).length =
      if q t then some w.length else lastWith q w w.length := by
  rw [List.length_append, List.length_singleton, lastWith, List.getElem?_concat_length,
    Option.any_some, lastWith_append w [t] (Nat.le_refl _)]

/-- Tokens that do not count are passed over. -/
theorem lastWith_skip {q : Tok → Bool} (w : List Tok) {ts : List Tok} (hts : ∀ t ∈ ts, q t = false) :
    lastWith q (w ++ ts) (w ++ ts).length = lastWith q w w.length := by
  induction ts using List.reverseRecOn with
  | nil => rw [List.append_nil]
  | append_singleton ts t ih =>
    have ht := hts t (by simp)
    rw [← List.append_assoc, lastWith_snoc, ht, if_neg Bool.false_ne_true]
    exact ih fun x hx => hts x (by simp [hx])

/-- An open array or object, after which everything is closed. -/
structure Innermost (c : Tok) (ts : List Tok) : Prop where
  isOpen : c.isOpen = true
  container : c.isContainer = true
  closed : ∀ t ∈ ts, t.isOpen = false

variable {c : Tok} {ts : List Tok}

/-- The innermost container is the last open one. -/
theorem Innermost.last (h : Innermost c ts) (w : List Tok) :
    lastOpen (w ++ c :: ts) = some w.length := by
  have hsplit : w ++ c :: ts = (w ++ [c]) ++ ts := by simp
  rw [lastOpen, hsplit, lastWith_skip _ h.closed, lastWith_snoc, if_pos h.isOpen]

/-- Counting a child keeps it so. -/
theorem Innermost.bump (h : Innermost c ts) : Innermost c.bump ts := ⟨h.isOpen, h.container, h.closed⟩

/-- So do closed tokens behind it. -/
theorem Innermost.append (h : Innermost c ts) {ts' : List Tok} (hts' : ∀ t ∈ ts', t.isOpen = false) :
    Innermost c (ts ++ ts') :=
  ⟨h.isOpen, h.container, fun t ht => (List.mem_append.mp ht).elim (h.closed t) (hts' t)⟩

/-- The innermost array or object is closed. -/
theorem jsmnFrom_close {b : UInt8} (hb : b ≠ 0) (hclass : charClass b = .closing c.type)
    (h : Innermost c ts) :
    jsmnFrom (b :: text) pos (w ++ c :: ts) s rest =
      jsmnFrom text (pos + 1) (w ++ { c with stop := (pos : ℤ) + 1 } :: ts) (lastOpen w) rest := by
  have hlast : lastWith Tok.isOpen (w ++ c :: ts) (w ++ c :: ts).length = some w.length := h.last w
  have hclosed : ({ c with stop := (pos : ℤ) + 1 } : Tok).isOpen = false := by
    have hstop : (pos : ℤ) + 1 ≠ -1 := by omega
    simp [Tok.isOpen, hstop]
  have hclose : jsmnClose c.type pos (Parser.at (w ++ c :: ts) s rest) =
      some (Parser.at (w ++ { c with stop := (pos : ℤ) + 1 } :: ts) (lastOpen w) rest) := by
    unfold jsmnClose Parser.at
    simp only [lastWith_append _ rest (Nat.le_refl _), hlast]
    have hget : ((w ++ c :: ts) ++ rest)[w.length]? = some c := by simp
    have hmod := modify_length_append w c (ts ++ rest) fun t => { t with stop := (pos : ℤ) + 1 }
    have hagain : lastWith Tok.isOpen (w ++ { c with stop := (pos : ℤ) + 1 } :: (ts ++ rest))
        (w.length + 1) = lastOpen w := by
      have hsplit : w ++ { c with stop := (pos : ℤ) + 1 } :: (ts ++ rest) =
          (w ++ [{ c with stop := (pos : ℤ) + 1 }]) ++ (ts ++ rest) := by simp
      have hsnoc := lastWith_snoc Tok.isOpen w { c with stop := (pos : ℤ) + 1 }
      rw [hclosed, if_neg Bool.false_ne_true, List.length_append, List.length_singleton] at hsnoc
      rw [hsplit, lastWith_append _ _ (by simp), hsnoc, lastOpen]
    rw [hget, List.append_assoc, List.cons_append, hmod, hagain]
    simp
  unfold jsmnFrom
  rw [List.length_cons, jsmnLoop, if_neg hb, hclass]
  simp only [hclose]
  simp

/-- After a colon the key is the parent. -/
theorem jsmnFrom_colon (t : Tok) :
    jsmnFrom (0x3a :: text) pos (w ++ [t]) s rest =
      jsmnFrom text (pos + 1) (w ++ [t]) (some w.length) rest := by
  have hclass : charClass 0x3a = .colon := by decide
  unfold jsmnFrom
  rw [List.length_cons, jsmnLoop, if_neg (by decide), hclass]
  simp [jsmnColon, Parser.at]

/-- After a comma the innermost array or object is the superior token, be it that it was already or
that a key was. -/
theorem jsmnFrom_comma (h : Innermost c ts) (text : Bytes) (pos : ℕ) (rest : List Tok)
    (hs : s = some w.length ∨ ∃ i t, s = some i ∧ (w ++ c :: ts)[i]? = some t ∧
      t.isContainer = false) :
    jsmnFrom (0x2c :: text) pos (w ++ c :: ts) s rest =
      jsmnFrom text (pos + 1) (w ++ c :: ts) (some w.length) rest := by
  have hclass : charClass 0x2c = .comma := by decide
  have hcomma : jsmnComma (Parser.at (w ++ c :: ts) s rest) =
      Parser.at (w ++ c :: ts) (some w.length) rest := by
    unfold jsmnComma Parser.at
    rcases hs with rfl | ⟨i, t, rfl, ht, hkey⟩
    · have hget : ((w ++ c :: ts) ++ rest)[w.length]? = some c := by simp
      have hcontainer : (c.type = .array || c.type = .object) = true := h.container
      simp only [hget, Option.any_some, hcontainer, if_true]
    · have hi := (List.getElem?_eq_some_iff.mp ht).1
      have hget : ((w ++ c :: ts) ++ rest)[i]? = some t := by
        rw [List.getElem?_append_left hi, ht]
      have hkey' : (t.type = .array || t.type = .object) = false := hkey
      have hlast : lastWith (fun t => (t.type = .array || t.type = .object) && t.isOpen)
          (w ++ c :: ts) (w ++ c :: ts).length = some w.length := by
        have hsplit : w ++ c :: ts = (w ++ [c]) ++ ts := by simp
        have hfound : ((c.type = .array || c.type = .object) && c.isOpen) = true :=
          Bool.and_eq_true_iff.mpr ⟨h.container, h.isOpen⟩
        rw [hsplit, lastWith_skip _ fun t ht => by rw [h.closed t ht, Bool.and_false],
          lastWith_snoc, if_pos hfound]
      simp only [hget, Option.any_some, hkey', Bool.false_eq_true, if_false,
        lastWith_append _ rest (Nat.le_refl _), hlast]
  unfold jsmnFrom
  rw [List.length_cons, jsmnLoop, if_neg (by decide), hclass]
  simp only [hcomma]

end

end SlcRtld.Json
