import Mathlib.Data.List.Basic
import Mathlib.Data.List.Perm.Basic
import Mathlib.Tactic.Common

/-!
# The grammar of JSON

RFC 8259, read bytewise: a JSON text is kept as its syntax tree, with the spelling of every number
and string and with the white space between the tokens, and `Value.text` writes it down again. The
white space stands where the grammar allows it, after an opening bracket or brace, around a colon
and around a comma; a text has white space before and after its value besides (`Document`).

A string is a sequence of the grammar's characters: a byte that stands for itself, a two-character
escape, or a `\u` escape. `decode` gives the bytes that the string means, in UTF-8, two escapes that
form a surrogate pair being one character.
-/

namespace SlcRtld.Json

/-- Bytes of a text. -/
abbrev Bytes : Type := List UInt8

/-! ## Strings -/

/-- The production `char`. -/
inductive Character where
  | unescaped (b : UInt8)
  | escape (c : UInt8)
  | unicode (a b c d : UInt8)
deriving DecidableEq, Repr

/-- The production `HEXDIG`, of either letter case. -/
def isHexDig (c : UInt8) : Bool :=
  (0x30 ≤ c && c ≤ 0x39) || (0x41 ≤ c && c ≤ 0x46) || (0x61 ≤ c && c ≤ 0x66)

/-- The bytes that follow a backslash in a two-character escape. -/
def isEscapable (c : UInt8) : Bool :=
  [0x22, 0x2f, 0x5c, 0x62, 0x66, 0x72, 0x6e, 0x74].contains c

namespace Character

/-- How a character is written. -/
def text : Character → Bytes
  | unescaped b => [b]
  | escape c => [0x5c, c]
  | unicode a b c d => [0x5c, 0x75, a, b, c, d]

/-- The grammar's conditions on a character. -/
def wellFormed : Character → Bool
  | unescaped b => 0x20 ≤ b && b ≠ 0x22 && b ≠ 0x5c
  | escape c => isEscapable c
  | unicode a b c d => isHexDig a && isHexDig b && isHexDig c && isHexDig d

end Character

/-- The text of a string between its quotation marks. -/
def rawText (s : List Character) : Bytes := s.flatMap Character.text

/-- The value of a hexadecimal digit. -/
def hexVal (c : UInt8) : ℕ :=
  if c ≤ 0x39 then c.toNat - 0x30 else if c ≤ 0x46 then c.toNat - 0x37 else c.toNat - 0x57

/-- The number that a `\u` escape names. -/
def codeUnit (a b c d : UInt8) : ℕ :=
  ((hexVal a * 16 + hexVal b) * 16 + hexVal c) * 16 + hexVal d

/-- The byte that a two-character escape means. -/
def unescape (c : UInt8) : UInt8 :=
  if c = 0x62 then 0x08
  else if c = 0x66 then 0x0c
  else if c = 0x6e then 0x0a
  else if c = 0x72 then 0x0d
  else if c = 0x74 then 0x09
  else c

/-- UTF-8. -/
def utf8 (n : ℕ) : Bytes :=
  if n < 0x80 then [n.toUInt8]
  else if n < 0x800 then [(0xc0 + n / 0x40).toUInt8, (0x80 + n % 0x40).toUInt8]
  else if n < 0x10000 then
    [(0xe0 + n / 0x1000).toUInt8, (0x80 + n / 0x40 % 0x40).toUInt8, (0x80 + n % 0x40).toUInt8]
  else
    [(0xf0 + n / 0x40000).toUInt8, (0x80 + n / 0x1000 % 0x40).toUInt8,
      (0x80 + n / 0x40 % 0x40).toUInt8, (0x80 + n % 0x40).toUInt8]

/-- The bytes of a string whose last escape was the high surrogate `high`, if there is one that has
found no partner yet. -/
def decodeFrom : Option ℕ → List Character → Bytes
  | high, [] => (high.map utf8).getD []
  | high, .unescaped b :: s => (high.map utf8).getD [] ++ b :: decodeFrom none s
  | high, .escape c :: s => (high.map utf8).getD [] ++ unescape c :: decodeFrom none s
  | high, .unicode a b c d :: s =>
    let n := codeUnit a b c d
    match high with
    | some h =>
      if 0xdc00 ≤ n ∧ n < 0xe000 then
        utf8 (0x10000 + (h - 0xd800) * 0x400 + (n - 0xdc00)) ++ decodeFrom none s
      else if 0xd800 ≤ n ∧ n < 0xdc00 then utf8 h ++ decodeFrom (some n) s
      else utf8 h ++ utf8 n ++ decodeFrom none s
    | none =>
      if 0xd800 ≤ n ∧ n < 0xdc00 then decodeFrom (some n) s else utf8 n ++ decodeFrom none s

/-- What a string means. -/
def decode (s : List Character) : Bytes := decodeFrom none s

/-! ## Numbers and names -/

/-- Where a number is being read. -/
inductive NumberState where
  | start
  | minus
  | zero
  | int
  | point
  | frac
  | exp
  | expSign
  | expDigits
deriving DecidableEq, Repr

/-- The production `DIGIT`. -/
def isDigit (c : UInt8) : Bool := 0x30 ≤ c && c ≤ 0x39

/-- One byte of the production `number`. -/
def NumberState.next : NumberState → UInt8 → Option NumberState
  | start, c => if c = 0x2d then some minus else if c = 0x30 then some zero
    else if isDigit c then some int else none
  | minus, c => if c = 0x30 then some zero else if isDigit c then some int else none
  | zero, c => if c = 0x2e then some point else if c = 0x65 ∨ c = 0x45 then some exp else none
  | int, c => if isDigit c then some int else if c = 0x2e then some point
    else if c = 0x65 ∨ c = 0x45 then some exp else none
  | point, c => if isDigit c then some frac else none
  | frac, c => if isDigit c then some frac else if c = 0x65 ∨ c = 0x45 then some exp else none
  | exp, c => if c = 0x2b ∨ c = 0x2d then some expSign else if isDigit c then some expDigits else none
  | expSign, c => if isDigit c then some expDigits else none
  | expDigits, c => if isDigit c then some expDigits else none

/-- The states in which a number may end. -/
def NumberState.final : NumberState → Bool
  | zero | int | frac | expDigits => true
  | _ => false

/-- Whether a number may go on with the text. -/
def isNumberFrom : NumberState → Bytes → Bool
  | q, [] => q.final
  | q, c :: cs =>
    match q.next c with
    | none => false
    | some q' => isNumberFrom q' cs

/-- The production `number`. -/
def isNumber (t : Bytes) : Bool := isNumberFrom .start t

/-- The names `false`, `null` and `true`. -/
def literalNames : List Bytes :=
  [[0x66, 0x61, 0x6c, 0x73, 0x65], [0x6e, 0x75, 0x6c, 0x6c], [0x74, 0x72, 0x75, 0x65]]

/-! ## Values -/

/-- The production `ws`. -/
def isBlank (c : UInt8) : Bool := c = 0x20 || c = 0x09 || c = 0x0a || c = 0x0d

mutual

/-- The production `value`. -/
inductive Value where
  /-- A number or a name. -/
  | primitive (t : Bytes)
  | string (s : List Character)
  | emptyArray (blank : Bytes)
  | array (blank : Bytes) (items : Items)
  | emptyObject (blank : Bytes)
  | object (blank : Bytes) (pairs : Pairs)

/-- The elements of an array that has some, with the white space that follows each, and after a
comma the white space that comes before the next. -/
inductive Items where
  | last (v : Value) (after : Bytes)
  | cons (v : Value) (after before : Bytes) (rest : Items)

/-- The members of an object that has some: the key, the white space before and after its colon, the
value, and the white space around a comma as in `Items`. -/
inductive Pairs where
  | last (key : List Character) (afterKey beforeValue : Bytes) (v : Value) (after : Bytes)
  | cons (key : List Character) (afterKey beforeValue : Bytes) (v : Value) (after before : Bytes)
      (rest : Pairs)

end

/-- A string in its quotation marks. -/
def quoted (s : List Character) : Bytes := 0x22 :: rawText s ++ [0x22]

mutual

/-- The text of a value. -/
def Value.text : Value → Bytes
  | .primitive t => t
  | .string s => quoted s
  | .emptyArray blank => 0x5b :: blank ++ [0x5d]
  | .array blank items => 0x5b :: blank ++ items.text ++ [0x5d]
  | .emptyObject blank => 0x7b :: blank ++ [0x7d]
  | .object blank pairs => 0x7b :: blank ++ pairs.text ++ [0x7d]

/-- The text of the elements of an array. -/
def Items.text : Items → Bytes
  | .last v after => v.text ++ after
  | .cons v after before rest => v.text ++ after ++ 0x2c :: before ++ rest.text

/-- The text of the members of an object. -/
def Pairs.text : Pairs → Bytes
  | .last key afterKey beforeValue v after =>
    quoted key ++ afterKey ++ 0x3a :: beforeValue ++ v.text ++ after
  | .cons key afterKey beforeValue v after before rest =>
    quoted key ++ afterKey ++ 0x3a :: beforeValue ++ v.text ++ after ++ 0x2c :: before ++ rest.text

end

mutual

/-- The grammar's conditions on the parts of a value. -/
def Value.wellFormed : Value → Bool
  | .primitive t => isNumber t || literalNames.contains t
  | .string s => s.all Character.wellFormed
  | .emptyArray blank => blank.all isBlank
  | .array blank items => blank.all isBlank && items.wellFormed
  | .emptyObject blank => blank.all isBlank
  | .object blank pairs => blank.all isBlank && pairs.wellFormed

/-- The grammar's conditions on the elements of an array. -/
def Items.wellFormed : Items → Bool
  | .last v after => v.wellFormed && after.all isBlank
  | .cons v after before rest =>
    v.wellFormed && after.all isBlank && before.all isBlank && rest.wellFormed

/-- The grammar's conditions on the members of an object. -/
def Pairs.wellFormed : Pairs → Bool
  | .last key afterKey beforeValue v after =>
    key.all Character.wellFormed && afterKey.all isBlank && beforeValue.all isBlank &&
      v.wellFormed && after.all isBlank
  | .cons key afterKey beforeValue v after before rest =>
    key.all Character.wellFormed && afterKey.all isBlank && beforeValue.all isBlank &&
      v.wellFormed && after.all isBlank && before.all isBlank && rest.wellFormed

end

/-- The production `JSON-text`. -/
structure Document where
  before : Bytes
  value : Value
  after : Bytes

/-- The text itself. -/
def Document.text (t : Document) : Bytes := t.before ++ t.value.text ++ t.after

/-- The grammar's conditions on a text. -/
def Document.wellFormed (t : Document) : Bool :=
  t.before.all isBlank && t.value.wellFormed && t.after.all isBlank

end SlcRtld.Json
