import SlcRtld.Config

/-!
# The tokeniser

`jsmn_parse` of `json/jsmn.h`, in the configuration the daemon compiles it with: without
`JSMN_STRICT` and without `JSMN_PARENT_LINKS`. The text is read as a list of bytes, so the parser's
`pos` is the position of the head of what is left to read. The token array belongs to the caller,
is not cleared between messages, and is returned also when the parse fails: the tokens from
`toknext` on, and every `type` that has not been filled in yet, are those of earlier messages.

The bytes of a text are sorted once into the cases of the source's `switch` (`charClass`), and the
inside of a string is read by a machine of three kinds of state, plain text, the byte after a
backslash, and the hexadecimal digits of a `\u` escape that are still to come.
-/

namespace SlcRtld.Json

/-- `jsmntype_t`. -/
inductive TokType where
  | undefined
  | object
  | array
  | string
  | primitive
deriving DecidableEq, Repr

/-- `jsmntok_t`, with `stop` for the field `end`. -/
structure Tok where
  /-- What the token is. -/
  type : TokType
  /-- The position of its first byte, or `-1`. -/
  start : ℤ
  /-- The position after its last byte, or `-1` while it is open. -/
  stop : ℤ
  /-- The number of its child tokens. -/
  size : ℤ
deriving DecidableEq, Repr

/-- `jsmnerr_t`. -/
inductive JsmnError where
  | nomem
  | inval
  | part
deriving DecidableEq, Repr

/-- The value that stands for an error in the result of `jsmn_parse`. -/
def JsmnError.code : JsmnError → ℤ
  | .nomem => -1
  | .inval => -2
  | .part => -3

/-- `jsmn_parser` without its `pos`, together with the token array it fills. -/
structure Parser where
  /-- The next token to allocate. -/
  toknext : ℕ
  /-- The token that the next one is a child of; none for `-1`. -/
  toksuper : Option ℕ
  /-- The caller's token array. -/
  tokens : List Tok

/-! ## Bytes -/

/-- The cases of the `switch` in `jsmn_parse`. -/
inductive CharClass where
  | opening (type : TokType)
  | closing (type : TokType)
  | quote
  | blank
  | colon
  | comma
  | other
deriving DecidableEq, Repr

/-- The case of the `switch` that a byte selects. -/
def charClass (c : UInt8) : CharClass :=
  if c = 0x7b then .opening .object
  else if c = 0x5b then .opening .array
  else if c = 0x7d then .closing .object
  else if c = 0x5d then .closing .array
  else if c = 0x22 then .quote
  else if c = 0x09 ∨ c = 0x0d ∨ c = 0x0a ∨ c = 0x20 then .blank
  else if c = 0x3a then .colon
  else if c = 0x2c then .comma
  else .other

/-- The bytes at which `jsmn_parse_primitive` goes to `found`. -/
def endsPrimitive (c : UInt8) : Bool :=
  match charClass c with
  | .colon | .comma | .blank | .closing _ => true
  | _ => false

/-- The hexadecimal digits that a `\u` escape may have. -/
def isHexDigit (c : UInt8) : Bool :=
  (0x30 ≤ c && c ≤ 0x39) || (0x41 ≤ c && c ≤ 0x46) || (0x61 ≤ c && c ≤ 0x66)

/-- The bytes that may follow a backslash, `u` apart. -/
def isSimpleEscape (c : UInt8) : Bool :=
  [0x22, 0x2f, 0x5c, 0x62, 0x66, 0x72, 0x6e, 0x74].contains c

/-! ## Tokens -/

/-- `jsmn_alloc_token`: the next token becomes empty, its `type` staying what it was. -/
def jsmnAllocToken (p : Parser) : Option Parser :=
  if maxJsonTokens ≤ p.toknext then none
  else some { p with
    toknext := p.toknext + 1
    tokens := p.tokens.modify p.toknext fun t => { t with start := -1, stop := -1, size := 0 } }

/-- An allocated token filled by `jsmn_fill_token`. -/
def jsmnFillToken (p : Parser) (type : TokType) (start stop : ℕ) : Option Parser :=
  (jsmnAllocToken p).map fun p' =>
    { p' with tokens := p'.tokens.set p.toknext ⟨type, start, stop, 0⟩ }

/-- The superior token counts one more child. -/
def Parser.bumpSuper (p : Parser) : Parser :=
  match p.toksuper with
  | none => p
  | some i => { p with tokens := p.tokens.modify i fun t => { t with size := t.size + 1 } }

/-- A token that has begun and has not been closed. -/
def Tok.isOpen (t : Tok) : Bool := t.start ≠ -1 && t.stop = -1

/-- The last of the first `n` tokens with a property: the loops that count `i` down. -/
def lastWith (q : Tok → Bool) (toks : List Tok) : ℕ → Option ℕ
  | 0 => none
  | i + 1 => if (toks[i]?).any q then some i else lastWith q toks i

/-! ## The parser -/

/-- Where a string is being read. -/
inductive StringState where
  | plain
  | escape
  | hex (left : ℕ)
deriving DecidableEq, Repr

/-- The loop of `jsmn_parse_string`: the position of the closing quote and the text after it. -/
def scanString : StringState → List UInt8 → ℕ → Except JsmnError (ℕ × List UInt8)
  | _, [], _ => .error .part
  | .plain, c :: rest, pos =>
    if c = 0x22 then .ok (pos, rest)
    else if c = 0x5c then scanString .escape rest (pos + 1)
    else scanString .plain rest (pos + 1)
  | .escape, c :: rest, pos =>
    if isSimpleEscape c then scanString .plain rest (pos + 1)
    else if c = 0x75 then scanString (.hex 3) rest (pos + 1)
    else .error .inval
  | .hex left, c :: rest, pos =>
    if isHexDigit c then
      scanString (if left = 0 then .plain else .hex (left - 1)) rest (pos + 1)
    else .error .inval

/-- `jsmn_parse_string` on the text after the opening quote, which is at `start`. -/
def jsmnParseString (rest : List UInt8) (start : ℕ) (p : Parser) :
    Except JsmnError (ℕ × List UInt8 × Parser) := do
  let (stop, rest') ← scanString .plain rest (start + 1)
  match jsmnFillToken p .string (start + 1) stop with
  | none => .error .nomem
  | some p' => .ok (stop + 1, rest', p')

/-- The loop of `jsmn_parse_primitive`: the position after the primitive and the text from there. -/
def scanPrimitive : List UInt8 → ℕ → Option (ℕ × List UInt8)
  | [], pos => some (pos, [])
  | c :: rest, pos =>
    if c = 0 || endsPrimitive c then some (pos, c :: rest)
    else if c < 32 || 127 ≤ c then none
    else scanPrimitive rest (pos + 1)

/-- `jsmn_parse_primitive` on the text from `start` on. -/
def jsmnParsePrimitive (text : List UInt8) (start : ℕ) (p : Parser) :
    Except JsmnError (ℕ × List UInt8 × Parser) :=
  match scanPrimitive text start with
  | none => .error .inval
  | some (stop, rest') =>
    match jsmnFillToken p .primitive start stop with
    | none => .error .nomem
    | some p' => .ok (stop, rest', p')

/-- An opening brace or bracket: a new open token, which the next tokens are children of. -/
def jsmnOpen (type : TokType) (pos : ℕ) (p : Parser) : Option Parser :=
  (jsmnAllocToken p).map fun p' =>
    let p'' := p'.bumpSuper
    { p'' with
      tokens := p''.tokens.modify p.toknext fun t => { t with type := type, start := pos }
      toksuper := some p.toknext }

/-- A closing brace or bracket: the last open token is closed when it is of the same kind, and the
open token before it becomes the superior one. -/
def jsmnClose (type : TokType) (pos : ℕ) (p : Parser) : Option Parser :=
  match lastWith Tok.isOpen p.tokens p.toknext with
  | none => none
  | some i =>
    if (p.tokens[i]?).any (·.type ≠ type) then none
    else
      let tokens := p.tokens.modify i fun t => { t with stop := (pos : ℤ) + 1 }
      some { p with tokens := tokens, toksuper := lastWith Tok.isOpen tokens (i + 1) }

/-- A comma: where the superior token is a key, the last open array or object takes its place. -/
def jsmnComma (p : Parser) : Parser :=
  let isContainer (t : Tok) : Bool := t.type = .array || t.type = .object
  match p.toksuper with
  | none => p
  | some i =>
    if (p.tokens[i]?).any isContainer then p
    else match lastWith (fun t => isContainer t && t.isOpen) p.tokens p.toknext with
      | none => p
      | some j => { p with toksuper := some j }

/-- A colon: the token before it, a key, becomes the superior one. -/
def jsmnColon (p : Parser) : Parser :=
  { p with toksuper := if p.toknext = 0 then none else some (p.toknext - 1) }

/-- The end of the text: a token that is still open makes it a partial one. -/
def jsmnFinish (count : ℤ) (p : Parser) : ℤ × List Tok :=
  if (lastWith Tok.isOpen p.tokens p.toknext).isSome then (JsmnError.part.code, p.tokens)
  else (count, p.tokens)

/-- The loop of `jsmn_parse`. Every round reads at least one byte, so as many rounds as there are
bytes read the whole text. -/
def jsmnLoop : ℕ → List UInt8 → ℕ → ℤ → Parser → ℤ × List Tok
  | 0, _, _, count, p => jsmnFinish count p
  | _, [], _, count, p => jsmnFinish count p
  | rounds + 1, c :: rest, pos, count, p =>
    if c = 0 then jsmnFinish count p
    else match charClass c with
      | .opening type =>
        match jsmnOpen type pos p with
        | none => (JsmnError.nomem.code, p.tokens)
        | some p' => jsmnLoop rounds rest (pos + 1) (count + 1) p'
      | .closing type =>
        match jsmnClose type pos p with
        | none => (JsmnError.inval.code, p.tokens)
        | some p' => jsmnLoop rounds rest (pos + 1) count p'
      | .quote =>
        match jsmnParseString rest pos p with
        | .error e => (e.code, p.tokens)
        | .ok (pos', rest', p') => jsmnLoop rounds rest' pos' (count + 1) p'.bumpSuper
      | .blank => jsmnLoop rounds rest (pos + 1) count p
      | .colon => jsmnLoop rounds rest (pos + 1) count (jsmnColon p)
      | .comma => jsmnLoop rounds rest (pos + 1) count (jsmnComma p)
      | .other =>
        match jsmnParsePrimitive (c :: rest) pos p with
        | .error e => (e.code, p.tokens)
        | .ok (pos', rest', p') => jsmnLoop rounds rest' pos' (count + 1) p'.bumpSuper

/-- `jsmn_init` and `jsmn_parse`: the number of tokens or an error, and the array afterwards. -/
def jsmnParse (js : List UInt8) (tokens : List Tok) : ℤ × List Tok :=
  jsmnLoop js.length js 0 0 ⟨0, none, tokens⟩

end SlcRtld.Json
