import SlcRtld.Json.Jsmn
import Mathlib.Tactic.SplitIfs

/-!
# Reading a tokenised message

The token helpers of `json/json_builder.h` on the memory they are given: the bytes around
`msg_buf` and the stack from the first token on. The helpers take no bound on either, so a token
that an earlier message left behind, or a count that leads past the array, is read like any other.
A read of memory that is not mapped ends the process, which is the result `none` of every helper.

A message can be cut down to less memory (`Msg.Le`). What a helper answers on the smaller memory it
answers on the larger one too, so an answer that is found inside one part of the memory does not
depend on the rest.
-/

namespace SlcRtld.Json

/-- The memory that a message is read from. -/
structure Msg where
  /-- The byte at an offset from the start of `msg_buf`, if there is memory there. -/
  js : ℤ → Option UInt8
  /-- The tokens, and what follows them on the stack. -/
  toks : List Tok

namespace Msg

/-- `strncmp` of the bytes at `pos` with a string of the source, which has no NUL. -/
def matchesAt (m : Msg) : ℤ → CStr → Option Bool
  | _, [] => some true
  | pos, c :: cs =>
    match m.js pos with
    | none => none
    | some b => if b = c then m.matchesAt (pos + 1) cs else some false

/-- `memcpy` of `n` bytes from `pos`. -/
def readBytes (m : Msg) : ℤ → ℕ → Option (List UInt8)
  | _, 0 => some []
  | pos, n + 1 =>
    match m.js pos with
    | none => none
    | some b => (m.readBytes (pos + 1) n).map (b :: ·)

/-- The body of `tok_eq` on a token. -/
def eqTok (m : Msg) (t : Tok) (s : CStr) : Option Bool :=
  if t.stop - t.start = s.length then m.matchesAt t.start s else some false

/-- `tok_eq` on the token at an index. -/
def tokEq (m : Msg) (i : ℕ) (s : CStr) : Option Bool := do
  m.eqTok (← m.toks[i]?) s

/-- `tok_str` into a buffer of `cap` bytes, read back as a C string. A token that ends before it
starts has a length above every capacity, the difference being taken as a `size_t`. -/
def tokStr (m : Msg) (i cap : ℕ) : Option CStr := do
  let t ← m.toks[i]?
  let len := t.stop - t.start
  let n := if len < 0 ∨ (cap : ℤ) ≤ len then cap - 1 else len.toNat
  return cstr (← m.readBytes t.start n)

/-- The `type` of the token at an index. -/
def tokType (m : Msg) (i : ℕ) : Option TokType := (m.toks[i]?).map (·.type)

/-- `tok_is_true` and `tok_is_false`: a primitive with the given text. -/
def tokIsPrimitive (m : Msg) (i : ℕ) (s : CStr) : Option Bool := do
  let t ← m.toks[i]?
  if t.type = .primitive then m.eqTok t s else some false

/-- The inner loop of `tok_find_key`, on the tokens from `i` on: past `skip` values and their
children, to the index after them and the tokens from there on. -/
def skipValues (skip : ℤ) (i : ℕ) : List Tok → Option (ℕ × List Tok)
  | [] => if 0 < skip then none else some (i, [])
  | t :: ts => if 0 < skip then skipValues (skip + t.size - 1) (i + 1) ts else some (i, t :: ts)

/-- The outer loop of `tok_find_key`, over `n` members from `i` on. -/
def findKeyLoop (m : Msg) (key : CStr) : ℕ → ℕ → List Tok → Option (Option ℕ)
  | 0, _, _ => some none
  | _ + 1, _, [] => none
  | n + 1, i, t :: ts => do
    if ← m.eqTok t key then return some (i + 1)
    let (i', ts') ← skipValues 1 (i + 1) ts
    m.findKeyLoop key n i' ts'

/-- `tok_find_key`: the index of the value of a key, none standing for the result `-1`. -/
def tokFindKey (m : Msg) (obj : ℕ) (key : CStr) : Option (Option ℕ) := do
  let t ← m.toks[obj]?
  m.findKeyLoop key t.size.toNat (obj + 1) (m.toks.drop (obj + 1))

/-- What `cmd_hello` takes a token for: the daemon's own version, or else a release number. -/
def versionOf (m : Msg) (t : Tok) : Option (Bool × Bool) := do
  if ← m.eqTok t (bytes "1.0") then return (true, false)
  if ← m.eqTok t (bytes "1.1") then return (false, true)
  if ← m.eqTok t (bytes "1.2") then return (false, true)
  return (false, ← m.eqTok t (bytes "1.3"))

/-- The loop of `cmd_hello` over `n` versions: whether the daemon's own is among them, and whether
a release number is. -/
def versionsLoop (m : Msg) : ℕ → List Tok → Bool → Bool → Option (Bool × Bool)
  | 0, _, supports, offeredRelease => some (supports, offeredRelease)
  | _ + 1, [], _, _ => none
  | n + 1, t :: ts, supports, offeredRelease => do
    let (ours, release) ← m.versionOf t
    let (_, ts') ← skipValues t.size 0 ts
    m.versionsLoop n ts' (supports || ours) (offeredRelease || release)

/-- The versions offered in the array at an index. -/
def offeredVersions (m : Msg) (i : ℕ) : Option (Bool × Bool) := do
  let t ← m.toks[i]?
  m.versionsLoop t.size.toNat (m.toks.drop (i + 1)) false false

/-! ## Less memory -/

/-- The memory of `m` is part of the memory of `m'`. -/
structure Le (m m' : Msg) : Prop where
  /-- Every byte of `m` is in `m'`. -/
  js : ∀ pos b, m.js pos = some b → m'.js pos = some b
  /-- The tokens of `m` begin those of `m'`. -/
  toks : ∃ more, m'.toks = m.toks ++ more

variable {m m' : Msg}

/-- A comparison of bytes. -/
theorem matchesAt_le (h : m.Le m') {pos : ℤ} {s : CStr} {b : Bool}
    (hb : m.matchesAt pos s = some b) : m'.matchesAt pos s = some b := by
  induction s generalizing pos with
  | nil => exact hb
  | cons c cs ih =>
    unfold matchesAt at hb ⊢
    cases hjs : m.js pos with
    | none => simp [hjs] at hb
    | some x =>
      rw [hjs] at hb
      rw [h.js pos x hjs]
      by_cases hx : x = c
      · simp only [hx, if_true] at hb ⊢
        exact ih hb
      · simpa only [hx, if_false] using hb

/-- Bytes that are read. -/
theorem readBytes_le (h : m.Le m') {pos : ℤ} {n : ℕ} {bs : List UInt8}
    (hb : m.readBytes pos n = some bs) : m'.readBytes pos n = some bs := by
  induction n generalizing pos bs with
  | zero => exact hb
  | succ n ih =>
    unfold readBytes at hb ⊢
    cases hjs : m.js pos with
    | none => simp [hjs] at hb
    | some x =>
      simp only [hjs, Option.map_eq_some_iff] at hb
      obtain ⟨bs', hbs', rfl⟩ := hb
      simp [h.js pos x hjs, ih hbs']

/-- A comparison of a token. -/
theorem eqTok_le (h : m.Le m') {t : Tok} {s : CStr} {b : Bool} (hb : m.eqTok t s = some b) :
    m'.eqTok t s = some b := by
  unfold eqTok at hb ⊢
  split_ifs at hb ⊢ with hlen
  · exact matchesAt_le h hb
  · exact hb

/-- A token. -/
theorem toks_le (h : m.Le m') {i : ℕ} {t : Tok} (ht : m.toks[i]? = some t) :
    m'.toks[i]? = some t := by
  obtain ⟨more, hmore⟩ := h.toks
  obtain ⟨hi, -⟩ := List.getElem?_eq_some_iff.mp ht
  rw [hmore, List.getElem?_append_left hi]
  exact ht

/-- Skipping a value does not look behind it. The induction is on the tokens. -/
theorem skipValues_append {skip : ℤ} {i j : ℕ} {ts rest : List Tok} (more : List Tok)
    (h : skipValues skip i ts = some (j, rest)) :
    skipValues skip i (ts ++ more) = some (j, rest ++ more) := by
  induction ts generalizing skip i with
  | nil =>
    simp only [skipValues] at h
    split_ifs at h with hs
    obtain ⟨rfl, rfl⟩ := Prod.mk.inj (Option.some.inj h)
    cases more with
    | nil => simp [skipValues, hs]
    | cons t ts => simp [skipValues, hs]
  | cons t ts ih =>
    simp only [List.cons_append, skipValues] at h ⊢
    split_ifs at h ⊢ with hs
    · exact ih h
    · obtain ⟨rfl, rfl⟩ := Prod.mk.inj (Option.some.inj h)
      rfl

/-- The loop of `tok_find_key`. The induction is on its rounds. -/
theorem findKeyLoop_append (h : m.Le m') {key : CStr} {n i : ℕ} {ts : List Tok} {r : Option ℕ}
    (more : List Tok) (hr : m.findKeyLoop key n i ts = some r) :
    m'.findKeyLoop key n i (ts ++ more) = some r := by
  induction n generalizing i ts with
  | zero => exact hr
  | succ n ih =>
    cases ts with
    | nil => simp [findKeyLoop] at hr
    | cons t ts =>
      simp only [findKeyLoop, List.cons_append, Option.bind_eq_bind, Option.bind_eq_some_iff]
        at hr ⊢
      obtain ⟨b, hb, hr⟩ := hr
      refine ⟨b, eqTok_le h hb, ?_⟩
      cases b with
      | true => exact hr
      | false =>
        simp only [Bool.false_eq_true, if_false, Option.bind_eq_some_iff, Prod.exists] at hr ⊢
        obtain ⟨j, rest, hskip, hr⟩ := hr
        exact ⟨j, rest ++ more, skipValues_append more hskip, ih hr⟩

/-- The version that a token names. -/
theorem versionOf_le (h : m.Le m') {t : Tok} {r : Bool × Bool} (hr : m.versionOf t = some r) :
    m'.versionOf t = some r := by
  simp only [versionOf, Option.bind_eq_bind, Option.bind_eq_some_iff] at hr ⊢
  obtain ⟨b₁, h₁, hr⟩ := hr
  refine ⟨b₁, eqTok_le h h₁, ?_⟩
  split_ifs at hr ⊢
  · exact hr
  obtain ⟨b₂, h₂, hr⟩ := Option.bind_eq_some_iff.mp hr
  refine Option.bind_eq_some_iff.mpr ⟨b₂, eqTok_le h h₂, ?_⟩
  split_ifs at hr ⊢
  · exact hr
  obtain ⟨b₃, h₃, hr⟩ := Option.bind_eq_some_iff.mp hr
  refine Option.bind_eq_some_iff.mpr ⟨b₃, eqTok_le h h₃, ?_⟩
  split_ifs at hr ⊢
  · exact hr
  obtain ⟨b₄, h₄, hr⟩ := Option.bind_eq_some_iff.mp hr
  exact Option.bind_eq_some_iff.mpr ⟨b₄, eqTok_le h h₄, hr⟩

/-- The loop over the versions. The induction is on its rounds. -/
theorem versionsLoop_append (h : m.Le m') {n : ℕ} {ts : List Tok} {b c : Bool} {r : Bool × Bool}
    (more : List Tok) (hr : m.versionsLoop n ts b c = some r) :
    m'.versionsLoop n (ts ++ more) b c = some r := by
  induction n generalizing ts b c with
  | zero => exact hr
  | succ n ih =>
    cases ts with
    | nil => simp [versionsLoop] at hr
    | cons t ts =>
      simp only [versionsLoop, List.cons_append, Option.bind_eq_bind, Option.bind_eq_some_iff,
        Prod.exists] at hr ⊢
      obtain ⟨ours, release, hver, j, rest, hskip, hr⟩ := hr
      exact ⟨ours, release, versionOf_le h hver, j, rest ++ more, skipValues_append more hskip,
        ih hr⟩

/-! Every helper answers on a larger memory what it answers on a smaller one. -/

/-- `tok_eq`. -/
theorem tokEq_le (h : m.Le m') {i : ℕ} {s : CStr} {b : Bool} (hb : m.tokEq i s = some b) :
    m'.tokEq i s = some b := by
  obtain ⟨t, ht, hb⟩ := Option.bind_eq_some_iff.mp hb
  exact Option.bind_eq_some_iff.mpr ⟨t, toks_le h ht, eqTok_le h hb⟩

/-- `tok_str`. -/
theorem tokStr_le (h : m.Le m') {i cap : ℕ} {s : CStr} (hs : m.tokStr i cap = some s) :
    m'.tokStr i cap = some s := by
  obtain ⟨t, ht, hs⟩ := Option.bind_eq_some_iff.mp hs
  obtain ⟨bs, hbs, hs⟩ := Option.bind_eq_some_iff.mp hs
  exact Option.bind_eq_some_iff.mpr
    ⟨t, toks_le h ht, Option.bind_eq_some_iff.mpr ⟨bs, readBytes_le h hbs, hs⟩⟩

/-- The type of a token. -/
theorem tokType_le (h : m.Le m') {i : ℕ} {ty : TokType} (ht : m.tokType i = some ty) :
    m'.tokType i = some ty := by
  obtain ⟨t, hi, rfl⟩ := Option.map_eq_some_iff.mp ht
  exact Option.map_eq_some_iff.mpr ⟨t, toks_le h hi, rfl⟩

/-- A comparison with a primitive. -/
theorem tokIsPrimitive_le (h : m.Le m') {i : ℕ} {s : CStr} {b : Bool}
    (hb : m.tokIsPrimitive i s = some b) : m'.tokIsPrimitive i s = some b := by
  obtain ⟨t, ht, hb⟩ := Option.bind_eq_some_iff.mp hb
  refine Option.bind_eq_some_iff.mpr ⟨t, toks_le h ht, ?_⟩
  split_ifs at hb ⊢ with hty
  · exact eqTok_le h hb
  · exact hb

/-- `tok_find_key`. -/
theorem tokFindKey_le (h : m.Le m') {obj : ℕ} {key : CStr} {r : Option ℕ}
    (hr : m.tokFindKey obj key = some r) : m'.tokFindKey obj key = some r := by
  obtain ⟨t, ht, hr⟩ := Option.bind_eq_some_iff.mp hr
  refine Option.bind_eq_some_iff.mpr ⟨t, toks_le h ht, ?_⟩
  obtain ⟨more, hmore⟩ := h.toks
  obtain ⟨hi, -⟩ := List.getElem?_eq_some_iff.mp ht
  rw [hmore, List.drop_append_of_le_length hi]
  exact findKeyLoop_append h more hr

/-- The versions that a `hello` offers. -/
theorem offeredVersions_le (h : m.Le m') {i : ℕ} {r : Bool × Bool}
    (hr : m.offeredVersions i = some r) : m'.offeredVersions i = some r := by
  obtain ⟨t, ht, hr⟩ := Option.bind_eq_some_iff.mp hr
  refine Option.bind_eq_some_iff.mpr ⟨t, toks_le h ht, ?_⟩
  obtain ⟨more, hmore⟩ := h.toks
  obtain ⟨hi, -⟩ := List.getElem?_eq_some_iff.mp ht
  rw [hmore, List.drop_append_of_le_length hi]
  exact versionsLoop_append h more hr

end Msg

end SlcRtld.Json
