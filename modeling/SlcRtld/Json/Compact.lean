import SlcRtld.Json.Rfc8259

/-!
# Objects written without white space

What a program writes that formats an object from a list of members (`compact`): the keys stand for
themselves, and each value is a text of its own, which may have white space around it. The members
of an object are read back under the meaning of their keys (`Value.named`), whatever their spelling.
-/

namespace SlcRtld.Json

/-! ## Strings that stand for themselves -/

/-- A byte that stands for itself in a string. -/
def isLiteral (b : UInt8) : Bool := (Character.unescaped b).wellFormed

/-- A string in which every byte stands for itself. -/
def verbatim (b : Bytes) : List Character := b.map Character.unescaped

/-- The raw text is the bytes. -/
@[simp] theorem rawText_verbatim (b : Bytes) : rawText (verbatim b) = b := by
  induction b with
  | nil => rfl
  | cons c b ih => exact congrArg (c :: ·) ih

/-- The bytes are what is meant. -/
@[simp] theorem decode_verbatim (b : Bytes) : decode (verbatim b) = b := by
  induction b with
  | nil => rfl
  | cons c b ih => exact congrArg (c :: ·) ih

/-- Bytes that need no escaping are well formed. -/
@[simp] theorem all_verbatim (b : Bytes) : (verbatim b).all Character.wellFormed = b.all isLiteral :=
  List.all_map

/-! ## Members -/

/-- The members of an object, the key and the value. -/
def Pairs.entries : Pairs → List (List Character × Value)
  | .last key _ _ v _ => [(key, v)]
  | .cons key _ _ v _ _ rest => (key, v) :: rest.entries

/-- The members of an object, and of nothing else. -/
def Value.entries : Value → List (List Character × Value)
  | .object _ pairs => pairs.entries
  | _ => []

/-- The values of the members whose key means a given name. -/
def Value.named (v : Value) (name : Bytes) : List Value :=
  (v.entries.filter fun x => decode x.1 = name).map Prod.snd

/-- A value with no white space around it. -/
def Value.alone (v : Value) : Document := ⟨[], v, []⟩

/-- A value without blanks around it. -/
@[simp] theorem Value.alone_text (v : Value) : v.alone.text = v.text := List.append_nil _

/-- It is well formed if the value is. -/
@[simp] theorem Value.alone_wellFormed (v : Value) : v.alone.wellFormed = v.wellFormed :=
  Bool.and_true _

/-! ## Writing an object -/

/-- The members of an object that has some. -/
def compactPairs (m : Bytes × Document) : List (Bytes × Document) → Pairs
  | [] => .last (verbatim m.1) [] m.2.before m.2.value m.2.after
  | m' :: ms =>
    .cons (verbatim m.1) [] m.2.before m.2.value m.2.after [] (compactPairs m' ms)

/-- An object of members. -/
def compact : List (Bytes × Document) → Value
  | [] => .emptyObject []
  | m :: ms => .object [] (compactPairs m ms)

/-- The text of a member. -/
def memberText (m : Bytes × Document) : Bytes := quoted (verbatim m.1) ++ 0x3a :: m.2.text

/-- The members are written one after the other, with commas. The induction is on the members. -/
theorem compactPairs_text (m : Bytes × Document) (ms : List (Bytes × Document)) :
    (compactPairs m ms).text = [0x2c].intercalate ((m :: ms).map memberText) := by
  induction ms generalizing m with
  | nil => simp [compactPairs, Pairs.text, memberText, Document.text]
  | cons m' ms ih => simp [compactPairs, Pairs.text, memberText, Document.text, ih]

/-- An object is written without blanks. -/
theorem compact_text (ms : List (Bytes × Document)) :
    (compact ms).text = [0x7b] ++ [0x2c].intercalate (ms.map memberText) ++ [0x7d] := by
  cases ms with
  | nil => rfl
  | cons m ms => rw [compact, Value.text, compactPairs_text]

/-- Members with plain keys and well-formed values. The induction is on the members. -/
theorem compactPairs_wellFormed (m : Bytes × Document) (ms : List (Bytes × Document))
    (h : ∀ x ∈ m :: ms, x.1.all isLiteral = true ∧ x.2.wellFormed = true) :
    (compactPairs m ms).wellFormed = true := by
  have hm := h m List.mem_cons_self
  simp only [Document.wellFormed, Bool.and_eq_true] at hm
  induction ms generalizing m with
  | nil => simp [compactPairs, Pairs.wellFormed, hm]
  | cons m' ms ih =>
    have hrest : ∀ x ∈ m' :: ms, x.1.all isLiteral = true ∧ x.2.wellFormed = true :=
      fun x hx => h x (List.mem_cons_of_mem _ hx)
    have hm' := hrest m' List.mem_cons_self
    simp only [Document.wellFormed, Bool.and_eq_true] at hm'
    simp [compactPairs, Pairs.wellFormed, hm, ih m' hrest hm']

/-- An object with plain keys and well-formed values is well formed. -/
theorem compact_wellFormed {ms : List (Bytes × Document)}
    (h : ∀ x ∈ ms, x.1.all isLiteral = true ∧ x.2.wellFormed = true) :
    (compact ms).wellFormed = true := by
  cases ms with
  | nil => rfl
  | cons m ms => exact compactPairs_wellFormed m ms h

/-- The object has the members that it was written from. -/
theorem compact_entries (ms : List (Bytes × Document)) :
    (compact ms).entries = ms.map fun m => (verbatim m.1, m.2.value) := by
  cases ms with
  | nil => rfl
  | cons m ms =>
    show (compactPairs m ms).entries = _
    induction ms generalizing m with
    | nil => rfl
    | cons m' ms ih => exact congrArg ((verbatim m.1, m.2.value) :: ·) (ih m')

/-- The members are read back. -/
theorem compact_named (ms : List (Bytes × Document)) (name : Bytes) :
    (compact ms).named name = (ms.filter fun m => m.1 = name).map fun m => m.2.value := by
  rw [Value.named, compact_entries, List.filter_map, List.map_map]
  simp only [Function.comp_def, decode_verbatim]

end SlcRtld.Json
