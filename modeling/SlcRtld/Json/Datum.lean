import SlcRtld.Json.Lookup
import Mathlib.Data.Option.Defs

/-!
# What a text says

A value without its layout. An object is kept as the function from its keys to their values, so that
the order of its members is lost with the white space; what is left open is how a string is read
(`Value.datum`). Read by `decode` two texts have the same datum when they are texts of the same JSON
value; read by `rawText` they have it when they spell its strings alike besides. The latter is what
the helpers of `json_builder.h` answer by (`Msg.StandsFor`).
-/

namespace SlcRtld.Json

/-- A JSON value; a string or a primitive has a text. -/
inductive Datum where
  | scalar (type : TokType) (text : Bytes)
  | array (elements : List Datum)
  | object (member : Bytes → Option Datum)

mutual

/-- What a value says. -/
def Value.datum (read : List Character → Bytes) : Value → Datum
  | .primitive t => .scalar .primitive t
  | .string s => .scalar .string (read s)
  | .emptyArray _ => .array []
  | .array _ items => .array (items.data read)
  | .emptyObject _ => .object fun _ => none
  | .object _ pairs => .object (pairs.datum read)

/-- What the elements of an array say. -/
def Items.data (read : List Character → Bytes) : Items → List Datum
  | .last v _ => [v.datum read]
  | .cons v _ _ rest => v.datum read :: rest.data read

/-- What the first member with a key says. -/
def Pairs.datum (read : List Character → Bytes) : Pairs → Bytes → Option Datum
  | .last k _ _ v _, key => if read k = key then some (v.datum read) else none
  | .cons k _ _ v _ _ rest, key => if read k = key then some (v.datum read) else rest.datum read key

end

namespace Datum

/-- The type of the token. -/
def type : Datum → TokType
  | scalar type _ => type
  | array _ => .array
  | object _ => .object

/-- The text of a string or a primitive. -/
def text : Datum → Bytes
  | scalar _ text => text
  | _ => []

/-- The elements of an array. -/
def elements : Datum → List Datum
  | array elements => elements
  | _ => []

/-- The value of a key. -/
def member : Datum → Bytes → Option Datum
  | object member => member
  | _ => fun _ => none

end Datum

/-- A string or a primitive. -/
def Datum.Scalar (x : Datum) : Prop := x.type = .string ∨ x.type = .primitive

section
variable {read : List Character → Bytes}

/-- The datum has the type of the value. -/
theorem Value.datum_type (v : Value) : (v.datum read).type = v.type := by
  cases v with
  | _ =>
    rw [Value.datum]
    rfl

/-- The text of a scalar's token. -/
theorem Value.raw_eq {v : Value} (h : (v.datum rawText).Scalar) : v.raw = (v.datum rawText).text := by
  rw [Datum.Scalar, v.datum_type] at h
  cases v with
  | primitive | string =>
    rw [Value.datum]
    rfl
  | _ => rcases h with h | h <;> cases h

/-- A text that begins with a bracket or a brace names no version, and nor does the empty one. -/
theorem Value.versionOfText_raw (v : Value) :
    versionOfText v.raw = versionOfText (v.datum rawText).text := by
  have hbracket : ∀ (c : UInt8) (text : Bytes), c ≠ 0x31 → versionOfText (c :: text) = (false, false) := by
    intro c text hc
    have hne : ∀ s : Bytes, s.head? = some 0x31 → (c :: text : Bytes) ≠ s := by
      rintro s hs rfl
      exact hc (Option.some.inj hs)
    unfold versionOfText
    rw [decide_eq_false (hne _ (by decide)), decide_eq_false (hne _ (by decide)),
      decide_eq_false (hne _ (by decide)), decide_eq_false (hne _ (by decide))]
    rfl
  have hempty : versionOfText [] = (false, false) := by decide
  cases v with
  | primitive | string =>
    rw [Value.datum]
    rfl
  | _ =>
    rw [Value.datum]
    exact (hbracket _ _ (by decide)).trans hempty.symm

/-- The elements of an array, by their layout and without it. -/
theorem Items.data_eq : ∀ (l : Items) (pos i : ℕ),
    (l.elements pos i).map (fun x => x.value.datum read) = l.data read
  | .last v _, _, _ => by
    rw [Items.elements, Items.data]
    rfl
  | .cons v _ _ rest, pos, i => by
    rw [Items.elements, Items.data, List.map_cons, rest.data_eq]

/-- The value of a key, by the layout of the members and without it. -/
theorem Pairs.datum_eq (key : Bytes) : ∀ (l : Pairs) (pos i : ℕ),
    ((l.members pos i).find? fun x => rawText x.1 = key).map (fun x => x.2.value.datum rawText) =
      l.datum rawText key
  | .last k _ _ v _, _, _ => by
    rw [Pairs.members, Pairs.datum, List.find?_cons]
    by_cases hk : rawText k = key <;> simp [hk]
  | .cons k _ _ v _ _ rest, pos, i => by
    rw [Pairs.members, Pairs.datum, List.find?_cons]
    by_cases hk : rawText k = key
    · simp [hk]
    · simp [hk, rest.datum_eq]

/-- The elements of a node. -/
theorem Node.map_elements (n : Node) :
    n.elements.map (fun x => x.value.datum read) = (n.value.datum read).elements := by
  obtain ⟨v, pos, i⟩ := n
  cases v with
  | array blank items =>
    rw [Value.datum]
    exact items.data_eq _ _
  | _ =>
    rw [Value.datum]
    rfl

/-- The member of a node. -/
theorem Node.map_member (n : Node) (key : Bytes) :
    (n.member key).map (fun x => x.value.datum rawText) = (n.value.datum rawText).member key := by
  obtain ⟨v, pos, i⟩ := n
  cases v with
  | object blank pairs =>
    rw [Value.datum, Node.member, Option.map_map]
    exact pairs.datum_eq key _ _
  | _ =>
    rw [Value.datum]
    rfl

end

/-! ## The helpers -/

/-- A token stands for a datum: it is the token of a node that says so. -/
def Msg.StandsFor (m : Msg) (j : ℕ) (x : Datum) : Prop :=
  ∃ n : Node, m.Has n ∧ n.index = j ∧ n.value.datum rawText = x

namespace Msg.StandsFor

variable {m : Msg} {j : ℕ} {x : Datum}

/-- The type. -/
theorem tokType (h : m.StandsFor j x) : m.tokType j = some x.type := by
  obtain ⟨n, hn, rfl, rfl⟩ := h
  rw [hn.tokType, n.value.datum_type]

/-- A comparison. -/
theorem tokEq (h : m.StandsFor j x) (hx : x.Scalar) (s : Bytes) :
    m.tokEq j s = some (decide (x.text = s)) := by
  obtain ⟨n, hn, rfl, rfl⟩ := h
  rw [hn.tokEq, Value.raw_eq hx]

/-- A comparison with a primitive. -/
theorem tokIsPrimitive (h : m.StandsFor j x) (hx : x.Scalar) (s : Bytes) :
    m.tokIsPrimitive j s = some (decide (x.type = .primitive) && decide (x.text = s)) := by
  obtain ⟨n, hn, rfl, rfl⟩ := h
  rw [hn.tokIsPrimitive, Value.raw_eq hx, n.value.datum_type]

/-- A copy. -/
theorem tokStr (h : m.StandsFor j x) (hx : x.Scalar) (cap : ℕ) :
    m.tokStr j cap = some (cstr (x.text.take (cap - 1))) := by
  obtain ⟨n, hn, rfl, rfl⟩ := h
  rw [hn.tokStr, Value.raw_eq hx]

/-- The versions that an array offers. -/
theorem offeredVersions (h : m.StandsFor j x) (hx : x.type = .array) :
    m.offeredVersions j = some (x.elements.any fun y => (versionOfText y.text).1,
      x.elements.any fun y => (versionOfText y.text).2) := by
  obtain ⟨n, hn, rfl, rfl⟩ := h
  rw [n.value.datum_type] at hx
  rw [hn.offeredVersions hx, ← n.map_elements, List.any_map, List.any_map]
  simp only [Value.versionOfText_raw, Function.comp_def]

/-- A lookup: there is no such key, or the token of its value. -/
theorem tokFindKey (h : m.StandsFor j x) (hx : x.elements = []) (key : Bytes) :
    ∃ r, m.tokFindKey j key = some r ∧ Option.Rel m.StandsFor r (x.member key) := by
  obtain ⟨n, hn, rfl, rfl⟩ := h
  rw [← n.map_elements, List.map_eq_nil_iff] at hx
  refine ⟨_, hn.tokFindKey_of_flat hx key, ?_⟩
  rw [← n.map_member]
  cases hy : n.member key with
  | none => exact .none
  | some y => exact .some ⟨y, hn.of_member hy, rfl, rfl⟩

end Msg.StandsFor

end SlcRtld.Json
