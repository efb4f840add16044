import SlcRtld.Json.Layout

/-!
# Lookup in a well-formed text

The helpers of `json_builder.h` work on the flat token array, with a count of the values that are
still to be skipped. On the tokens of a JSON text they do what the same question means in the syntax
tree. A node of the tree (`Node`) is a value with the place of its text and the index of its token;
the nodes of a text are what members and elements lead to from the root. For each helper there is
one theorem about every node that stands in memory as the parser leaves it (`Msg.Located`).
-/

namespace SlcRtld.Json

open SlcRtld.Tree

/-! ## Nodes -/

/-- A value of a text, where its text begins, and the index of its first token. -/
structure Node where
  value : Value
  pos : ℕ
  index : ℕ

/-- The elements of an array, when the first begins at a position and has an index. -/
def Items.elements : Items → ℕ → ℕ → List Node
  | .last v _, pos, i => [⟨v, pos, i⟩]
  | .cons v after before rest, pos, i =>
    ⟨v, pos, i⟩ :: rest.elements (nextPos v after before pos) (i + v.count)

/-- The members of an object, the key and the value. -/
def Pairs.members : Pairs → ℕ → ℕ → List (List Character × Node)
  | .last key afterKey beforeValue v _, pos, i =>
    [(key, ⟨v, valuePos key afterKey beforeValue pos, i + 1⟩)]
  | .cons key afterKey beforeValue v after before rest, pos, i =>
    let pos' := valuePos key afterKey beforeValue pos
    (key, ⟨v, pos', i + 1⟩) :: rest.members (nextPos v after before pos') (i + 1 + v.count)

/-- The type of a value's token. -/
def Value.type : Value → TokType
  | .primitive _ => .primitive
  | .string _ => .string
  | .emptyArray _ | .array _ _ => .array
  | .emptyObject _ | .object _ _ => .object

/-- The text between a token's start and its end: a string's is without the quotation marks. -/
def Value.raw : Value → Bytes
  | .string s => rawText s
  | v => v.text

namespace Node

/-- The elements of an array. -/
def elements (n : Node) : List Node :=
  match n.value with
  | .array blank items => items.elements (n.pos + 1 + blank.length) (n.index + 1)
  | _ => []

/-- The members of an object, each with its key. -/
def members (n : Node) : List (List Character × Node) :=
  match n.value with
  | .object blank pairs => pairs.members (n.pos + 1 + blank.length) (n.index + 1)
  | _ => []

/-- The value of the first member whose key is spelled in a given way. -/
def member (n : Node) (key : Bytes) : Option Node :=
  (n.members.find? fun x => rawText x.1 = key).map Prod.snd

end Node

/-- The value of a text. -/
def Document.root (t : Document) : Node := ⟨t.value, t.before.length, 0⟩

/-- The nodes of a text, at any depth. -/
inductive Document.HasNode (t : Document) : Node → Prop where
  | root : t.HasNode t.root
  | member {n x : Node} {key : List Character} : t.HasNode n → (key, x) ∈ n.members → t.HasNode x
  | element {n x : Node} : t.HasNode n → x ∈ n.elements → t.HasNode x

/-! ## Where the nodes stand -/

namespace Msg

variable {m : Msg}

/-- The memory holds a text at a position. -/
def Holds (m : Msg) (pos : ℤ) (text : Bytes) : Prop := m.readBytes pos text.length = some text

/-- No text. -/
theorem holds_nil (pos : ℤ) : m.Holds pos [] := rfl

/-- A text byte by byte. -/
theorem holds_cons {pos : ℤ} {c : UInt8} {text : Bytes} :
    m.Holds pos (c :: text) ↔ m.js pos = some c ∧ m.Holds (pos + 1) text := by
  unfold Holds
  rw [List.length_cons, readBytes]
  cases m.js pos with
  | none => simp
  | some b =>
    rw [Option.map_eq_some_iff]
    constructor
    · rintro ⟨bs, hbs, hcons⟩
      obtain ⟨rfl, rfl⟩ := List.cons.inj hcons
      exact ⟨rfl, hbs⟩
    · rintro ⟨hb, htext⟩
      exact ⟨text, htext, by rw [Option.some.inj hb]⟩

/-- One text after the other. -/
theorem holds_append {pos : ℤ} {a b : Bytes} :
    m.Holds pos (a ++ b) ↔ m.Holds pos a ∧ m.Holds (pos + a.length) b := by
  induction a generalizing pos with
  | nil => simp [holds_nil]
  | cons c a ih =>
    have hpos : pos + 1 + (a.length : ℤ) = pos + ((c :: a).length : ℤ) := by
      rw [List.length_cons]
      push_cast
      omega
    rw [List.cons_append, holds_cons, holds_cons, ih, hpos, and_assoc]

/-- The beginning of a text that is held. -/
theorem Holds.readBytes {pos : ℤ} {text : Bytes} (h : m.Holds pos text) {n : ℕ}
    (hn : n ≤ text.length) : m.readBytes pos n = some (text.take n) := by
  rw [← List.take_append_drop n text, holds_append] at h
  have htake := h.1
  unfold Holds at htake
  rwa [List.length_take, Nat.min_eq_left hn] at htake

/-- A text of the right length is compared as a whole. -/
theorem Holds.matchesAt {pos : ℤ} {text s : Bytes} (h : m.Holds pos text)
    (hlen : text.length = s.length) : m.matchesAt pos s = some (decide (text = s)) := by
  induction text generalizing pos s with
  | nil =>
    obtain rfl := List.length_eq_zero_iff.mp hlen.symm
    rfl
  | cons c text ih =>
    cases s with
    | nil => simp at hlen
    | cons b s =>
      obtain ⟨hc, htext⟩ := holds_cons.mp h
      have hrest := ih htext (by simpa using hlen)
      unfold Msg.matchesAt
      simp only [hc]
      by_cases hcb : c = b
      · rw [if_pos hcb, hrest, hcb]
        simp
      · rw [if_neg hcb]
        simp [hcb]

/-- A token whose text is held is compared by that text. -/
theorem Holds.eqTok {t : Tok} {text : Bytes} (h : m.Holds t.start text)
    (hstop : t.stop = t.start + text.length) (s : Bytes) :
    m.eqTok t s = some (decide (text = s)) := by
  unfold Msg.eqTok
  by_cases hlen : t.stop - t.start = s.length
  · rw [if_pos hlen]
    exact h.matchesAt (by omega)
  · rw [if_neg hlen]
    have hne : text ≠ s := by
      rintro rfl
      omega
    simp [hne]

/-- A part of a text and its tokens stand in memory, the text at a position and the tokens from an
index on. -/
structure Located (m : Msg) (pos i : ℕ) (text : Bytes) (toks : List Tok) : Prop where
  text : m.Holds pos text
  toks : toks <+: m.toks.drop i

/-- A node stands in memory. -/
def Has (m : Msg) (n : Node) : Prop := m.Located n.pos n.index n.value.text (n.value.toks n.pos)

end Msg

/-- The beginning of a list stands first, the rest after it. -/
theorem prefix_drop_append {α : Type} {a b l : List α} {i : ℕ} (h : a ++ b <+: l.drop i) :
    a <+: l.drop i ∧ b <+: l.drop (i + a.length) := by
  obtain ⟨more, hmore⟩ := h
  refine ⟨⟨b ++ more, by rw [← hmore, List.append_assoc]⟩, more, ?_⟩
  rw [← List.drop_drop, ← hmore, List.append_assoc, List.drop_left]

section
variable {m : Msg}

/-- The only element. -/
theorem Items.located_last {v : Value} {after : Bytes} {pos i : ℕ}
    (h : m.Located pos i (Items.last v after).text ((Items.last v after).toks pos)) :
    m.Has ⟨v, pos, i⟩ := by
  obtain ⟨htext, htoks⟩ := h
  rw [Items.text, Msg.holds_append] at htext
  rw [Items.toks] at htoks
  exact ⟨htext.1, htoks⟩

/-- The first element, and the rest. -/
theorem Items.located_cons {v : Value} {after before : Bytes} {l : Items} {pos i : ℕ}
    (h : m.Located pos i (Items.cons v after before l).text ((Items.cons v after before l).toks pos)) :
    m.Has ⟨v, pos, i⟩ ∧ m.Located (nextPos v after before pos) (i + v.count) l.text
      (l.toks (nextPos v after before pos)) := by
  obtain ⟨htext, htoks⟩ := h
  rw [Items.toks] at htoks
  obtain ⟨hfirst, hrest⟩ := prefix_drop_append htoks
  rw [v.length_toks] at hrest
  have htext' : m.Holds pos (v.text ++ ((after ++ 0x2c :: before) ++ l.text)) := by
    simpa [Items.text] using htext
  obtain ⟨hv, hmore⟩ := Msg.holds_append.mp htext'
  obtain ⟨-, hl⟩ := Msg.holds_append.mp hmore
  have hpos : (pos : ℤ) + v.text.length + ((after ++ 0x2c :: before : Bytes).length : ℤ) =
      (nextPos v after before pos : ℕ) := by
    simp only [nextPos, List.length_append, List.length_cons]
    push_cast
    omega
  rw [hpos] at hl
  exact ⟨⟨hv, hfirst⟩, hl, hrest⟩

/-- Every element is where its layout says. The induction is on the elements. -/
theorem Items.located : ∀ (l : Items) {pos i : ℕ}, m.Located pos i l.text (l.toks pos) →
    ∀ x ∈ l.elements pos i, m.Has x
  | .last v after, pos, i, h => by
    intro x hx
    rw [Items.elements, List.mem_singleton] at hx
    rw [hx]
    exact located_last h
  | .cons v after before rest, pos, i, h => by
    obtain ⟨hv, hrest⟩ := located_cons h
    intro x hx
    rw [Items.elements] at hx
    rcases List.mem_cons.mp hx with rfl | hx
    · exact hv
    · exact rest.located hrest x hx

/-- The parts of a member, of which the key begins at a position. -/
theorem holds_member {pos : ℕ} {key : List Character} {afterKey beforeValue more : Bytes}
    {v : Value}
    (h : m.Holds pos (quoted key ++ afterKey ++ 0x3a :: beforeValue ++ v.text ++ more)) :
    m.Holds (pos + 1 : ℕ) (rawText key) ∧
      m.Holds (valuePos key afterKey beforeValue pos : ℕ) v.text ∧
      m.Holds (valuePos key afterKey beforeValue pos + v.text.length : ℕ) more := by
  have hsplit : m.Holds pos ([0x22] ++ (rawText key ++ ((0x22 :: afterKey ++ 0x3a :: beforeValue) ++
      (v.text ++ more)))) := by
    simpa [quoted] using h
  obtain ⟨-, hsplit⟩ := Msg.holds_append.mp hsplit
  obtain ⟨hkey, hsplit⟩ := Msg.holds_append.mp hsplit
  obtain ⟨-, hsplit⟩ := Msg.holds_append.mp hsplit
  obtain ⟨hv, hmore⟩ := Msg.holds_append.mp hsplit
  have hvalue : (pos : ℤ) + ([0x22] : Bytes).length + (rawText key).length +
      ((0x22 :: afterKey ++ 0x3a :: beforeValue : Bytes).length : ℤ) =
        (valuePos key afterKey beforeValue pos : ℕ) := by
    simp only [valuePos, quoted, List.length_append, List.length_cons, List.length_nil]
    push_cast
    omega
  rw [hvalue] at hv hmore
  exact ⟨hkey, hv, by exact_mod_cast hmore⟩

/-- The only member. -/
theorem Pairs.located_last {key : List Character} {afterKey beforeValue after : Bytes} {v : Value}
    {pos i : ℕ}
    (h : m.Located pos i (Pairs.last key afterKey beforeValue v after).text
      ((Pairs.last key afterKey beforeValue v after).toks pos)) :
    m.Holds (pos + 1 : ℕ) (rawText key) ∧
      m.Has ⟨v, valuePos key afterKey beforeValue pos, i + 1⟩ := by
  obtain ⟨htext, htoks⟩ := h
  rw [Pairs.toks, ← List.singleton_append] at htoks
  obtain ⟨-, hfirst⟩ := prefix_drop_append htoks
  rw [Pairs.text] at htext
  obtain ⟨hkey, hv, -⟩ := holds_member htext
  exact ⟨hkey, hv, hfirst⟩

/-- The first member, and the rest. -/
theorem Pairs.located_cons {key : List Character} {afterKey beforeValue after before : Bytes}
    {v : Value} {l : Pairs} {pos i : ℕ}
    (h : m.Located pos i (Pairs.cons key afterKey beforeValue v after before l).text
      ((Pairs.cons key afterKey beforeValue v after before l).toks pos)) :
    m.Holds (pos + 1 : ℕ) (rawText key) ∧
      m.Has ⟨v, valuePos key afterKey beforeValue pos, i + 1⟩ ∧
      m.Located (nextPos v after before (valuePos key afterKey beforeValue pos))
        (i + 1 + v.count) l.text
        (l.toks (nextPos v after before (valuePos key afterKey beforeValue pos))) := by
  obtain ⟨htext, htoks⟩ := h
  rw [Pairs.toks, ← List.singleton_append, List.append_assoc] at htoks
  obtain ⟨-, htoks'⟩ := prefix_drop_append htoks
  obtain ⟨hfirst, hrest⟩ := prefix_drop_append htoks'
  rw [v.length_toks] at hrest
  have htext' : m.Holds pos (quoted key ++ afterKey ++ 0x3a :: beforeValue ++ v.text ++
      ((after ++ 0x2c :: before) ++ l.text)) := by
    simpa [Pairs.text] using htext
  obtain ⟨hkey, hv, hmore⟩ := holds_member htext'
  obtain ⟨-, hl⟩ := Msg.holds_append.mp hmore
  have hpos : ((valuePos key afterKey beforeValue pos + v.text.length : ℕ) : ℤ) +
      ((after ++ 0x2c :: before : Bytes).length : ℤ) =
        (nextPos v after before (valuePos key afterKey beforeValue pos) : ℕ) := by
    simp only [nextPos, List.length_append, List.length_cons]
    push_cast
    omega
  rw [hpos] at hl
  exact ⟨hkey, ⟨hv, hfirst⟩, hl, hrest⟩

/-- Every member is where its layout says. The induction is on the members. -/
theorem Pairs.located : ∀ (l : Pairs) {pos i : ℕ}, m.Located pos i l.text (l.toks pos) →
    ∀ x ∈ l.members pos i, m.Has x.2
  | .last key afterKey beforeValue v after, pos, i, h => by
    intro x hx
    rw [Pairs.members, List.mem_singleton] at hx
    rw [hx]
    exact (located_last h).2
  | .cons key afterKey beforeValue v after before rest, pos, i, h => by
    obtain ⟨-, hv, hrest⟩ := located_cons h
    intro x hx
    rw [Pairs.members] at hx
    rcases List.mem_cons.mp hx with rfl | hx
    · exact hv
    · exact rest.located hrest x hx

/-- What is between the brackets of an array or object. -/
theorem located_inside {n : Node} {o b : UInt8} {blank inside : Bytes} {t : Tok} {ts : List Tok}
    (h : m.Has n) (htext : n.value.text = o :: (blank ++ (inside ++ [b])))
    (htoks : n.value.toks n.pos = t :: ts) :
    m.Located (n.pos + 1 + blank.length) (n.index + 1) inside ts := by
  obtain ⟨hheld, hfound⟩ := h
  rw [htext, Msg.holds_cons, Msg.holds_append, Msg.holds_append] at hheld
  rw [htoks, ← List.singleton_append] at hfound
  obtain ⟨-, hinside⟩ := prefix_drop_append hfound
  refine ⟨?_, hinside⟩
  exact_mod_cast hheld.2.2.1

/-- What is inside an object that stands in memory. -/
theorem Msg.Has.pairs {blank : Bytes} {l : Pairs} {pos i : ℕ} (h : m.Has ⟨.object blank l, pos, i⟩) :
    m.Located (pos + 1 + blank.length) (i + 1) l.text (l.toks (pos + 1 + blank.length)) :=
  located_inside (o := 0x7b) (b := 0x7d) h (by simp [Value.text]) (by rw [Value.toks])

/-- What is inside an array that stands in memory. -/
theorem Msg.Has.items {blank : Bytes} {l : Items} {pos i : ℕ} (h : m.Has ⟨.array blank l, pos, i⟩) :
    m.Located (pos + 1 + blank.length) (i + 1) l.text (l.toks (pos + 1 + blank.length)) :=
  located_inside (o := 0x5b) (b := 0x5d) h (by simp [Value.text]) (by rw [Value.toks])

/-- An element of an array that the message has. -/
theorem Msg.Has.element {n x : Node} (h : m.Has n) (hx : x ∈ n.elements) : m.Has x := by
  obtain ⟨value, pos, i⟩ := n
  cases value with
  | array blank items =>
    exact items.located h.items x hx
  | _ => cases hx

/-- A member of an object that the message has. -/
theorem Msg.Has.member {n : Node} {x : List Character × Node} (h : m.Has n) (hx : x ∈ n.members) :
    m.Has x.2 := by
  obtain ⟨value, pos, i⟩ := n
  cases value with
  | object blank pairs =>
    exact pairs.located h.pairs x hx
  | _ => cases hx

/-- The member of a key. -/
theorem Msg.Has.of_member {n x : Node} {key : Bytes} (h : m.Has n) (hx : n.member key = some x) :
    m.Has x := by
  obtain ⟨y, hy, rfl⟩ := Option.map_eq_some_iff.mp hx
  exact h.member (List.mem_of_find?_eq_some hy)

/-- Where the root stands, every node of the text does. -/
theorem Document.HasNode.has {t : Document} {n : Node} (hn : t.HasNode n) (h : m.Has t.root) :
    m.Has n := by
  induction hn with
  | root => exact h
  | member _ hx ih => exact ih.member hx
  | element _ hx ih => exact ih.element hx

end

/-- Only an object has members. -/
theorem Node.object_of_member {n x : Node} {key : Bytes} (hx : n.member key = some x) :
    n.value.type = .object := by
  obtain ⟨value, pos, i⟩ := n
  cases value with
  | object => rfl
  | _ => cases hx

/-- The members of a well-formed object are well formed. -/
theorem Pairs.members_wellFormed : ∀ (l : Pairs) {pos i : ℕ}, l.wellFormed = true →
    ∀ x ∈ l.members pos i, x.2.value.wellFormed = true
  | .last _ _ _ v _, _, _, h, x, hx => by
    simp only [Pairs.wellFormed, Bool.and_eq_true] at h
    obtain rfl := List.mem_singleton.mp hx
    exact h.1.2
  | .cons _ _ _ v _ _ l, _, _, h, x, hx => by
    simp only [Pairs.wellFormed, Bool.and_eq_true] at h
    rcases List.mem_cons.mp hx with rfl | hx
    · exact h.1.1.1.2
    · exact l.members_wellFormed h.2 x hx

/-- The value of a well-formed text is well formed. -/
theorem Document.root_wellFormed {t : Document} (ht : t.wellFormed = true) :
    t.root.value.wellFormed = true := by
  simp only [Document.wellFormed, Bool.and_eq_true] at ht
  exact ht.1.2

/-- The member of a well-formed object is well formed. -/
theorem Node.member_wellFormed {n x : Node} {key : Bytes} (h : n.value.wellFormed = true)
    (hx : n.member key = some x) : x.value.wellFormed = true := by
  obtain ⟨y, hy, rfl⟩ := Option.map_eq_some_iff.mp hx
  have hmem := List.mem_of_find?_eq_some hy
  obtain ⟨value, pos, i⟩ := n
  cases value with
  | object blank pairs =>
    simp only [Value.wellFormed, Bool.and_eq_true] at h
    exact pairs.members_wellFormed h.2 y hmem
  | _ => cases hmem

/-! ## Subtrees -/

mutual

/-- No token counts fewer than no children. -/
theorem Value.toks_sizes : ∀ (v : Value) (pos : ℕ), ∀ t ∈ v.toks pos, 0 ≤ t.size
  | .primitive _, _ | .string _, _ | .emptyArray _, _ | .emptyObject _, _ => by
    intro t ht
    rw [Value.toks, List.mem_singleton] at ht
    exact ht ▸ Int.le_refl 0
  | .array _ items, pos => by
    rw [Value.toks]
    exact List.forall_mem_cons.mpr ⟨Int.natCast_nonneg _, items.toks_sizes _⟩
  | .object _ pairs, pos => by
    rw [Value.toks]
    exact List.forall_mem_cons.mpr ⟨Int.natCast_nonneg _, pairs.toks_sizes _⟩

/-- No token counts fewer than no children. -/
theorem Items.toks_sizes : ∀ (l : Items) (pos : ℕ), ∀ t ∈ l.toks pos, 0 ≤ t.size
  | .last v _, pos => by
    rw [Items.toks]
    exact v.toks_sizes pos
  | .cons v _ _ rest, pos => by
    rw [Items.toks]
    exact List.forall_mem_append.mpr ⟨v.toks_sizes pos, rest.toks_sizes _⟩

/-- No token counts fewer than no children. -/
theorem Pairs.toks_sizes : ∀ (l : Pairs) (pos : ℕ), ∀ t ∈ l.toks pos, 0 ≤ t.size
  | .last key _ _ v _, pos => by
    rw [Pairs.toks]
    exact List.forall_mem_cons.mpr ⟨Int.one_nonneg, v.toks_sizes _⟩
  | .cons key _ _ v _ _ rest, pos => by
    rw [Pairs.toks]
    exact List.forall_mem_cons.mpr
      ⟨Int.one_nonneg, List.forall_mem_append.mpr ⟨v.toks_sizes _, rest.toks_sizes _⟩⟩

end

/-- A container above as many trees as it counts. -/
theorem hedge_header {n : ℕ} {ts : List Tok} (h : Hedge n (arities ts)) (type : TokType)
    (start stop : ℤ) : Hedge 1 (arities (⟨type, start, stop, n⟩ :: ts)) := by
  show Hedge (0 + 1) (n :: arities ts)
  rw [hedge_cons, Nat.zero_add]
  exact h

mutual

/-- The tokens of a value are one tree. -/
theorem Value.toks_hedge : ∀ (v : Value) (pos : ℕ), Hedge 1 (arities (v.toks pos))
  | .primitive _, _ | .string _, _ | .emptyArray _, _ | .emptyObject _, _ => by
    rw [Value.toks]
    rfl
  | .array _ items, pos => by
    rw [Value.toks]
    exact hedge_header (items.toks_hedge _) ..
  | .object _ pairs, pos => by
    rw [Value.toks]
    exact hedge_header (pairs.toks_hedge _) ..

/-- The tokens of the elements are a tree for each. -/
theorem Items.toks_hedge : ∀ (l : Items) (pos : ℕ), Hedge l.size (arities (l.toks pos))
  | .last v _, pos => by
    rw [Items.toks]
    exact v.toks_hedge pos
  | .cons v _ _ rest, pos => by
    rw [Items.toks, arities_append, Items.size, Nat.add_comm]
    exact (v.toks_hedge pos).append (rest.toks_hedge _)

/-- The tokens of the members are a tree for each, with the key at its root. -/
theorem Pairs.toks_hedge : ∀ (l : Pairs) (pos : ℕ), Hedge l.size (arities (l.toks pos))
  | .last key _ _ v _, pos => by
    rw [Pairs.toks]
    exact hedge_header (n := 1) (v.toks_hedge _) ..
  | .cons key _ _ v _ _ rest, pos => by
    rw [Pairs.toks, arities_append, Pairs.size, Nat.add_comm]
    exact (hedge_header (n := 1) (v.toks_hedge _) ..).append (rest.toks_hedge _)

end

/-- The inner loop of `tok_find_key` passes over the trees it is to skip, and no more. -/
theorem Msg.skipValues_hedge {k i : ℕ} {ts : List Tok} (hsizes : ∀ t ∈ ts, 0 ≤ t.size)
    (h : Hedge k (arities ts)) (rest : List Tok) :
    Msg.skipValues k i (ts ++ rest) = some (i + ts.length, rest) := by
  induction ts generalizing k i with
  | nil =>
    obtain rfl : k = 0 := by simpa [Hedge, arities] using h
    cases rest with
    | nil => rfl
    | cons t ts => rfl
  | cons t ts ih =>
    obtain ⟨ht, hts⟩ := List.forall_mem_cons.mp hsizes
    have hpos := h.pos_of_cons
    obtain ⟨k, rfl⟩ : ∃ k', k = k' + 1 := ⟨k - 1, by omega⟩
    have hnext := ih (i := i + 1) hts (hedge_cons.mp h)
    have hcount : ((k + 1 : ℕ) : ℤ) + t.size - 1 = (k + t.size.toNat : ℕ) := by omega
    have hlen : i + 1 + ts.length = i + (t :: ts).length := by
      rw [List.length_cons]
      omega
    rw [List.cons_append, skipValues, if_pos (by omega), hcount, hnext, hlen]

/-! ## The helpers on a node -/

section
variable {m : Msg} {n : Node}

/-- The first token of a node, which has its type and its text, and under which the others are. -/
theorem Msg.Has.token (h : m.Has n) : ∃ t ts rest, n.value.toks n.pos = t :: ts ∧
    m.toks[n.index]? = some t ∧ m.toks.drop (n.index + 1) = ts ++ rest ∧
    t.type = n.value.type ∧ t.stop - t.start = n.value.raw.length ∧
    m.Holds t.start n.value.raw := by
  obtain ⟨htext, rest, htoks⟩ := h
  -- the text of a value is all of it, but for the quotation marks
  obtain ⟨t, ts, hcons, htype, hlen, hraw⟩ : ∃ t ts, n.value.toks n.pos = t :: ts ∧
      t.type = n.value.type ∧ t.stop - t.start = n.value.raw.length ∧
      m.Holds t.start n.value.raw := by
    cases hv : n.value with
    | string s =>
      rw [hv, Value.text, quoted, List.cons_append, Msg.holds_cons, Msg.holds_append] at htext
      refine ⟨_, _, by rw [Value.toks], rfl, ?_, ?_⟩
      · simp only [stringTok, Value.raw]
        push_cast
        omega
      · simp only [stringTok, Value.raw]
        exact_mod_cast htext.2.1
    | _ =>
      rw [hv] at htext
      refine ⟨_, _, by rw [Value.toks], rfl, ?_, htext⟩
      simp only [Value.raw, Value.text]
      push_cast
      omega
  rw [hcons] at htoks
  have hget : m.toks[n.index]? = some t := by
    rw [← List.head?_drop, ← htoks]
    rfl
  have hdrop : m.toks.drop (n.index + 1) = ts ++ rest := by
    rw [← List.tail_drop, ← htoks]
    rfl
  exact ⟨t, ts, rest, hcons, hget, hdrop, htype, hlen, hraw⟩

/-- The type of a token is that of its node. -/
theorem Msg.Has.tokType (h : m.Has n) : m.tokType n.index = some n.value.type := by
  obtain ⟨t, ts, rest, -, hget, -, htype, -, -⟩ := h.token
  unfold Msg.tokType
  rw [hget, Option.map_some, htype]

/-- A token of a node is compared by its text. -/
theorem Msg.Has.tokEq (h : m.Has n) (s : Bytes) :
    m.tokEq n.index s = some (decide (n.value.raw = s)) := by
  obtain ⟨t, ts, rest, -, hget, -, -, hlen, hraw⟩ := h.token
  unfold Msg.tokEq
  rw [hget]
  exact hraw.eqTok (by omega) s

/-- A token is compared with a primitive. -/
theorem Msg.Has.tokIsPrimitive (h : m.Has n) (s : Bytes) : m.tokIsPrimitive n.index s =
    some (decide (n.value.type = .primitive) && decide (n.value.raw = s)) := by
  obtain ⟨t, ts, rest, -, hget, -, htype, hlen, hraw⟩ := h.token
  unfold Msg.tokIsPrimitive
  rw [hget, Option.bind_eq_bind, Option.bind_some, htype, hraw.eqTok (by omega) s]
  by_cases hprim : n.value.type = .primitive
  · rw [if_pos hprim]
    simp [hprim]
  · rw [if_neg hprim]
    simp [hprim]

/-- A copy of a token is the beginning of its text, up to a NUL. -/
theorem Msg.Has.tokStr (h : m.Has n) (cap : ℕ) :
    m.tokStr n.index cap = some (cstr (n.value.raw.take (cap - 1))) := by
  obtain ⟨t, ts, rest, -, hget, -, -, hlen, hraw⟩ := h.token
  have hread : ∀ k, k = min (cap - 1) n.value.raw.length →
      m.readBytes t.start k = some (n.value.raw.take (cap - 1)) := by
    rintro k rfl
    rw [hraw.readBytes (Nat.min_le_right _ _), ← List.take_take, List.take_length]
  unfold Msg.tokStr
  simp only [hget, Option.bind_eq_bind, Option.bind_some, hlen]
  rw [hread _ (by split_ifs <;> omega)]
  rfl

/-! `tok_find_key` on an object. -/

/-- One round of the outer loop: the key, or past its value. -/
theorem Msg.findKeyLoop_member {key : Bytes} {k : List Character} {v : Value} {pos pos' i size : ℕ}
    (hkey : m.Holds (pos + 1 : ℕ) (rawText k)) (rest : List Tok) :
    m.findKeyLoop key (size + 1) i (stringTok k pos 1 :: v.toks pos' ++ rest) =
      if rawText k = key then some (some (i + 1))
      else m.findKeyLoop key size (i + 1 + v.count) rest := by
  have heq : m.eqTok (stringTok k pos 1) key = some (decide (rawText k = key)) :=
    Msg.Holds.eqTok (t := stringTok k pos 1) hkey (by simp [stringTok]) key
  have hskip := skipValues_hedge (i := i + 1) (v.toks_sizes pos') (v.toks_hedge pos') rest
  rw [v.length_toks] at hskip
  rw [List.cons_append, findKeyLoop, heq]
  simp only [Option.bind_eq_bind, Option.bind_some, decide_eq_true_eq]
  split_ifs
  · rfl
  · rw [show (1 : ℤ) = (1 : ℕ) from rfl, hskip]
    rfl

/-- The loop of `tok_find_key` over the members. The induction is on the members, and each round
skips the subtree of a value. -/
theorem Pairs.findKeyLoop_eq (key : Bytes) : ∀ (l : Pairs) {pos i : ℕ} (rest : List Tok),
    m.Located pos i l.text (l.toks pos) → m.findKeyLoop key l.size i (l.toks pos ++ rest) =
      some (((l.members pos i).find? fun x => rawText x.1 = key).map (·.2.index))
  | .last k afterKey beforeValue v after, pos, i, rest, h => by
    obtain ⟨hkey, -⟩ := Pairs.located_last h
    rw [Pairs.toks, Pairs.size, Msg.findKeyLoop_member hkey, Pairs.members, List.find?_cons]
    by_cases hk : rawText k = key
    · simp [hk]
    · simp [hk, Msg.findKeyLoop]
  | .cons k afterKey beforeValue v after before l, pos, i, rest, h => by
    obtain ⟨hkey, -, hmore⟩ := Pairs.located_cons h
    have hrest := l.findKeyLoop_eq key rest hmore
    rw [Pairs.toks, Pairs.size, List.append_assoc, Msg.findKeyLoop_member hkey, Pairs.members,
      List.find?_cons]
    by_cases hk : rawText k = key
    · simp [hk]
    · simp [hk, hrest]

/-- An array of this kind has an element. -/
theorem Items.elements_ne_nil (l : Items) (pos i : ℕ) : l.elements pos i ≠ [] := by
  cases l with
  | last => exact List.cons_ne_nil _ _
  | cons => exact List.cons_ne_nil _ _

/-- The value of a key is found where the tree has it: at the first of the node's own members that
has the key, and nowhere when there is none. The node may be of any type, only not an array with
elements. -/
theorem Msg.Has.tokFindKey_of_flat (h : m.Has n) (hflat : n.elements = []) (key : Bytes) :
    m.tokFindKey n.index key = some ((n.member key).map Node.index) := by
  obtain ⟨t, ts, rest, hcons, hget, hdrop, -⟩ := h.token
  unfold Msg.tokFindKey Node.member
  rw [hget, Option.bind_eq_bind, Option.bind_some, hdrop]
  obtain ⟨value, pos, i⟩ := n
  cases value with
  | array blank items => exact absurd hflat (items.elements_ne_nil _ _)
  | object blank pairs =>
    rw [Value.toks] at hcons
    obtain ⟨rfl, rfl⟩ := List.cons.inj hcons
    have hloop := pairs.findKeyLoop_eq key rest h.pairs
    show m.findKeyLoop key (pairs.size : ℤ).toNat _ _ = _
    rw [Int.toNat_natCast, hloop, Option.map_map]
    rfl
  | _ =>
    -- no children, so that the loop is over at once
    rw [Value.toks] at hcons
    obtain ⟨rfl, rfl⟩ := List.cons.inj hcons
    rfl

/-- An object is not an array. -/
theorem Node.elements_of_object (hobj : n.value.type = .object) : n.elements = [] := by
  obtain ⟨value, pos, i⟩ := n
  cases value with
  | object | emptyObject => rfl
  | _ => cases hobj

/-- The value of a key of an object is found where the tree has it. -/
theorem Msg.Has.tokFindKey (h : m.Has n) (hobj : n.value.type = .object) (key : Bytes) :
    m.tokFindKey n.index key = some ((n.member key).map Node.index) :=
  h.tokFindKey_of_flat (Node.elements_of_object hobj) key

/-! The loop of `cmd_hello` on an array. -/

/-- What `cmd_hello` takes a text for. -/
def versionOfText (b : Bytes) : Bool × Bool :=
  (b = bytes "1.0", b = bytes "1.1" || b = bytes "1.2" || b = bytes "1.3")

/-- The version that a token names. -/
theorem Msg.Holds.versionOf {t : Tok} {b : Bytes} (h : m.Holds t.start b)
    (hstop : t.stop = t.start + b.length) : m.versionOf t = some (versionOfText b) := by
  have h₀ : bytes "1.0" ≠ bytes "1.1" ∧ bytes "1.0" ≠ bytes "1.2" ∧ bytes "1.0" ≠ bytes "1.3" := by
    decide
  unfold Msg.versionOf versionOfText
  simp only [h.eqTok hstop, Option.bind_eq_bind, Option.bind_some]
  by_cases h10 : b = bytes "1.0"
  · simp [h10, h₀]
  · by_cases h11 : b = bytes "1.1"
    · simp [h11, h₀.1.symm]
    · by_cases h12 : b = bytes "1.2"
      · simp [h12, h₀.2.1.symm]
      · simp [h10, h11, h12]

/-- One round of the loop: an element, and past its own children. -/
theorem Msg.versionsLoop_element {v : Value} {pos i size : ℕ} (h : m.Has ⟨v, pos, i⟩)
    (rest : List Tok) (b c : Bool) :
    m.versionsLoop (size + 1) (v.toks pos ++ rest) b c =
      m.versionsLoop size rest (b || (versionOfText v.raw).1) (c || (versionOfText v.raw).2) := by
  obtain ⟨t, ts, more, hcons, -, -, -, hlen, hraw⟩ := h.token
  simp only at hcons hlen hraw
  have hver := hraw.versionOf (by omega)
  have hhedge := v.toks_hedge pos
  have hsizes := v.toks_sizes pos
  rw [hcons] at hhedge hsizes ⊢
  obtain ⟨ht, hts⟩ := List.forall_mem_cons.mp hsizes
  have hchildren : Hedge t.size.toNat (arities ts) := by
    have hone : Hedge (0 + t.size.toNat) (arities ts) := hedge_cons.mp hhedge
    rwa [Nat.zero_add] at hone
  have hskip := skipValues_hedge (i := 0) hts hchildren rest
  rw [Int.toNat_of_nonneg ht] at hskip
  rw [List.cons_append, versionsLoop, hver]
  simp only [Option.bind_eq_bind, Option.bind_some, hskip]

/-- The loop of `cmd_hello` over the elements. The induction is on the elements, and each round
skips the subtree of one. -/
theorem Items.versionsLoop_eq : ∀ (l : Items) {pos i : ℕ} (rest : List Tok) (b c : Bool),
    m.Located pos i l.text (l.toks pos) → m.versionsLoop l.size (l.toks pos ++ rest) b c =
      some (b || (l.elements pos i).any fun x => (versionOfText x.value.raw).1,
        c || (l.elements pos i).any fun x => (versionOfText x.value.raw).2)
  | .last v after, pos, i, rest, b, c, h => by
    rw [Items.toks, Items.size, Msg.versionsLoop_element (Items.located_last h), Items.elements]
    simp [Msg.versionsLoop]
  | .cons v after before l, pos, i, rest, b, c, h => by
    obtain ⟨hv, hmore⟩ := Items.located_cons h
    rw [Items.toks, Items.size, List.append_assoc, Msg.versionsLoop_element hv,
      l.versionsLoop_eq rest _ _ hmore, Items.elements, List.any_cons, List.any_cons, Bool.or_assoc,
      Bool.or_assoc]

/-- The versions that an array offers are those of its own elements. -/
theorem Msg.Has.offeredVersions (h : m.Has n) (harr : n.value.type = .array) :
    m.offeredVersions n.index =
      some (n.elements.any fun x => (versionOfText x.value.raw).1,
        n.elements.any fun x => (versionOfText x.value.raw).2) := by
  obtain ⟨t, ts, rest, hcons, hget, hdrop, -⟩ := h.token
  unfold Msg.offeredVersions
  rw [hget, Option.bind_eq_bind, Option.bind_some, hdrop]
  obtain ⟨value, pos, i⟩ := n
  cases value with
  | emptyArray blank =>
    rw [Value.toks] at hcons
    obtain ⟨rfl, rfl⟩ := List.cons.inj hcons
    rfl
  | array blank items =>
    rw [Value.toks] at hcons
    obtain ⟨rfl, rfl⟩ := List.cons.inj hcons
    have hloop := items.versionsLoop_eq rest false false h.items
    show m.versionsLoop (items.size : ℤ).toNat _ _ _ = _
    rw [Int.toNat_natCast, hloop, Bool.false_or, Bool.false_or]
    rfl
  | _ => cases harr

end

end SlcRtld.Json
