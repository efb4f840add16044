import SlcRtld.Control.Reply
import SlcRtld.Json.Compact

/-!
# The texts in the grammar

The functions that `Reply` writes texts with, against the grammar of JSON. `object` writes a compact
object, and what `json_escape` leaves in its buffer are whole characters of the grammar, one for
each byte of the longest prefix that fits (`fitting`).
-/

namespace SlcRtld.Control

open Json

/-! ## Objects -/

/-- The text of an object of members whose values are texts of their own. -/
theorem object_eq_compact (ms : List (String × Document)) :
    object (ms.map fun m => member m.1 m.2.text) =
      (compact (ms.map fun m => (bytes m.1, m.2))).text := by
  rw [compact_text, object, List.map_map]
  congr 3
  refine List.map_congr_left fun m _ => ?_
  simp [memberText, Json.quoted, member, quoted]

/-- Characters between quotes are a string. -/
theorem quoted_rawText (s : List Character) : quoted (rawText s) = (Value.string s).text := rfl

/-- Bytes between quotes are the string of these bytes. -/
theorem quoted_verbatim (b : CStr) : quoted b = (Value.string (verbatim b)).text := by
  rw [Value.text, Json.quoted, rawText_verbatim]
  rfl

/-! ## The escaper -/

/-- The character of the grammar that `json_escape` writes for a byte. -/
def escapeChar (c : UInt8) : Character :=
  if c = 0x22 then .escape 0x22
  else if c = 0x5c then .escape 0x5c
  else if c = 0x0a then .escape 0x6e
  else if c = 0x0d then .escape 0x72
  else if c = 0x09 then .escape 0x74
  else if c = 0x08 then .escape 0x62
  else if c = 0x0c then .escape 0x66
  else if c < 0x20 then
    .unicode 0x30 0x30 (Libc.hexChar (c.toNat / 16)) (Libc.hexChar (c.toNat % 16))
  else .unescaped c

/-- A byte is escaped to the text of one character. -/
theorem escapeByte_eq (c : UInt8) : escapeByte c = (escapeChar c).text :=
  toNat_induction (P := fun c => escapeByte c = (escapeChar c).text) (by decide +kernel) c

/-- The character is well formed. -/
theorem escapeChar_wellFormed (c : UInt8) : (escapeChar c).wellFormed = true :=
  toNat_induction (P := fun c => (escapeChar c).wellFormed = true) (by decide +kernel) c

/-- Whether a character means a byte on its own, and is no half of a surrogate pair. -/
def standsFor (c : UInt8) : Character → Bool
  | .unescaped b => b = c
  | .escape b => unescape b = c
  | .unicode x y z w => codeUnit x y z w < 0xd800 && utf8 (codeUnit x y z w) = [c]

/-- The character stands for the byte. -/
theorem escapeChar_standsFor (c : UInt8) : standsFor c (escapeChar c) = true :=
  toNat_induction (P := fun c => standsFor c (escapeChar c) = true) (by decide +kernel) c

/-- A character that stands for a byte is read as the byte. -/
theorem decodeFrom_of_standsFor {c : UInt8} {x : Character} (h : standsFor c x = true)
    (s : List Character) : decodeFrom none (x :: s) = c :: decodeFrom none s := by
  cases x with
  | unescaped b => exact congrArg (· :: decodeFrom none s) (of_decide_eq_true h)
  | escape b => exact congrArg (· :: decodeFrom none s) (of_decide_eq_true h)
  | unicode x y z w =>
    simp only [standsFor, Bool.and_eq_true, decide_eq_true_eq] at h
    show (if _ then _ else _ : Bytes) = _
    rw [if_neg (by omega), h.2]
    rfl

/-- The escaped form of a text. -/
def escaped (s : CStr) : CStr := s.flatMap escapeByte

/-- A text is escaped character by character. -/
theorem escaped_eq (s : CStr) : escaped s = rawText (s.map escapeChar) := by
  rw [escaped, rawText, List.flatMap_map]
  exact List.flatMap_congr fun c _ => escapeByte_eq c

/-- An escaped text means what it was. -/
theorem decode_escapeChar (s : CStr) : decode (s.map escapeChar) = s := by
  induction s with
  | nil => rfl
  | cons c s ih => exact (decodeFrom_of_standsFor (escapeChar_standsFor c) _).trans (congrArg (c :: ·) ih)

/-- An escaped text is well formed. -/
theorem all_escapeChar (s : CStr) : (s.map escapeChar).all Character.wellFormed = true := by
  rw [List.all_map, List.all_eq_true]
  exact fun c _ => escapeChar_wellFormed c

/-- The bytes whose escapes fit into `room` bytes with a NUL. -/
def fitting (room : ℕ) : CStr → CStr
  | [] => []
  | c :: cs =>
    if room ≤ (escapeByte c).length then [] else c :: fitting (room - (escapeByte c).length) cs

/-- The escaper writes the bytes that fit. -/
theorem jsonEscape_eq (room : ℕ) (s : CStr) : jsonEscape room s = escaped (fitting room s) := by
  induction s generalizing room with
  | nil => rfl
  | cons c s ih =>
    rw [jsonEscape, fitting]
    split
    · rfl
    · exact congrArg (escapeByte c ++ ·) (ih _)

/-- The bytes that fit are the first ones. -/
theorem fitting_prefix (room : ℕ) (s : CStr) : fitting room s <+: s := by
  induction s generalizing room with
  | nil => exact List.prefix_rfl
  | cons c s ih =>
    rw [fitting]
    split
    · exact List.nil_prefix
    · exact List.cons_prefix_cons.mpr ⟨rfl, ih _⟩

/-- The length of an escaped text, byte by byte. -/
theorem length_escaped_cons (c : UInt8) (s : CStr) :
    (escaped (c :: s)).length = (escapeByte c).length + (escaped s).length :=
  List.length_append

/-- What is written leaves room for the NUL. The induction is on the text. -/
theorem fitting_length {room : ℕ} (hroom : 0 < room) (s : CStr) :
    (escaped (fitting room s)).length < room := by
  induction s generalizing room with
  | nil => exact hroom
  | cons c s ih =>
    rw [fitting]
    split
    · exact hroom
    · rw [length_escaped_cons]
      have hrest := @ih (room - (escapeByte c).length) (by omega)
      omega

/-- Every prefix whose escaped form fits is a prefix of the one that is kept. -/
theorem fitting_longest {room : ℕ} {s q : CStr} (hq : q <+: s)
    (hfits : (escaped q).length < room) : q <+: fitting room s := by
  induction s generalizing room q with
  | nil => exact hq
  | cons c s ih =>
    cases q with
    | nil => exact List.nil_prefix
    | cons c' q =>
      obtain ⟨rfl, hrest⟩ := List.cons_prefix_cons.mp hq
      rw [length_escaped_cons] at hfits
      rw [fitting, if_neg (by omega)]
      exact List.cons_prefix_cons.mpr ⟨rfl, ih hrest (by omega)⟩

/-! ## Texts of the grammar -/

/-- A string of bytes that stand for themselves, as a text of the grammar. -/
def literalString (b : CStr) : Document := (Value.string (verbatim b)).alone

/-- A string constant as a text of the grammar. -/
def constant (s : String) : Document := literalString (bytes s)

/-- A string that `json_escape` writes, as a text of the grammar. -/
def escapedString (room : ℕ) (s : CStr) : Document :=
  (Value.string ((fitting room s).map escapeChar)).alone

/-- An object of members, as a text of the grammar. -/
def objectOf (ms : List (String × Document)) : Document :=
  (compact (ms.map fun m => (bytes m.1, m.2))).alone

/-- A literal between quotes. -/
theorem literalString_text (b : CStr) : (literalString b).text = quoted b := by
  rw [literalString, Value.alone_text, quoted_verbatim]

/-- It is well formed if its bytes need no escaping. -/
theorem literalString_wellFormed (b : CStr) : (literalString b).wellFormed = b.all isLiteral := by
  rw [literalString, Value.alone_wellFormed, Value.wellFormed, all_verbatim]

/-- A constant of the source is written as it is. -/
theorem constant_text (s : String) : (constant s).text = literal s := literalString_text (bytes s)

/-- A constant of the source is well formed. -/
theorem constant_wellFormed {s : String} (h : (bytes s).all isLiteral = true) :
    (constant s).wellFormed = true :=
  (literalString_wellFormed (bytes s)).trans h

/-- An escaped string is what the escaper writes, between quotes. -/
theorem escapedString_text (room : ℕ) (s : CStr) :
    (escapedString room s).text = quoted (jsonEscape room s) := by
  rw [escapedString, Value.alone_text, jsonEscape_eq, escaped_eq, quoted_rawText]

/-- An escaped string is always well formed. -/
theorem escapedString_wellFormed (room : ℕ) (s : CStr) :
    (escapedString room s).wellFormed = true := by
  rw [escapedString, Value.alone_wellFormed, Value.wellFormed]
  exact all_escapeChar _

/-- The text of an object, member by member. -/
theorem objectOf_text (ms : List (String × Document)) :
    (objectOf ms).text = object (ms.map fun m => member m.1 m.2.text) := by
  rw [objectOf, Value.alone_text, object_eq_compact]

/-- An object is well formed if its keys are plain and its values well formed. -/
theorem objectOf_wellFormed {ms : List (String × Document)}
    (h : ∀ m ∈ ms, (bytes m.1).all isLiteral = true ∧ m.2.wellFormed = true) :
    (objectOf ms).wellFormed = true := by
  rw [objectOf, Value.alone_wellFormed]
  refine compact_wellFormed fun x hx => ?_
  obtain ⟨m, hm, rfl⟩ := List.mem_map.mp hx
  exact h m hm

/-- A member takes three bytes more than its key and its value. -/
theorem length_member (k : String) (v : CStr) :
    (member k v).length = (bytes k).length + v.length + 3 := by
  simp [member, quoted]
  omega

/-- An object in bytes, with a comma counted for each of its members. -/
theorem length_object (ms : List CStr) : (object ms).length ≤ (ms.map (List.length · + 1)).sum + 2 := by
  induction ms with
  | nil => decide
  | cons m ms ih =>
    cases ms with
    | nil => simp [object]
    | cons m' ms =>
      simp [object] at ih ⊢
      omega

/-- Hexadecimal digits stand for themselves, two for each byte. -/
theorem authHex_plain (raw : List UInt8) :
    (Auth.authHex raw).all isLiteral = true ∧ (Auth.authHex raw).length = 2 * raw.length := by
  have hbyte : ∀ b : UInt8, (Libc.fmtHexByte b).all isLiteral = true := fun b =>
    toNat_induction (P := fun b => (Libc.fmtHexByte b).all isLiteral = true) (by decide +kernel) b
  constructor
  · simp only [Auth.authHex, List.all_flatMap, List.all_eq_true]
    exact fun b _ => List.all_eq_true.mp (hbyte b)
  · simp [Auth.authHex, List.length_flatMap, Libc.fmtHexByte, Nat.mul_comm]

end SlcRtld.Control
