import SlcRtld.Property.KeyFile

/-!
# Keygen and the key file

Keygen appends a line to the key file, and the daemon reads the file in pieces. The pieces that are
complete stay as they are (`fgetsAll_append`), so that what matters is the piece that the file ends
in, if it is not complete: the new line goes on where that piece ends. It is read as the new key
when that piece is blank and leaves room for the line, and the name is not empty, and in no other
case (`keygen_then_load_iff`).
-/

namespace SlcRtld.Property

open Libc Auth

/-! ## The end of a file -/

/-- The pieces of a file that are complete. -/
def finished (size : ℕ) : List UInt8 → List UInt8 → List (List UInt8)
  | _, [] => []
  | line, c :: cs =>
    if c = 0x0a ∨ line.length + 1 = size - 1 then (line ++ [c]) :: finished size [] cs
    else finished size (line ++ [c]) cs

/-- The piece that a file ends in, if it is not complete. -/
def unfinished (size : ℕ) : List UInt8 → List UInt8 → List UInt8
  | line, [] => line
  | line, c :: cs =>
    if c = 0x0a ∨ line.length + 1 = size - 1 then unfinished size [] cs
    else unfinished size (line ++ [c]) cs

section
variable {size : ℕ}

/-- What is appended to a file goes on where the last piece ends. -/
theorem fgetsAll_append (line cs x : List UInt8) : fgetsAll size line (cs ++ x) =
    finished size line cs ++ fgetsAll size (unfinished size line cs) x := by
  induction cs generalizing line with
  | nil => rfl
  | cons c cs ih =>
    rw [List.cons_append, fgetsAll, finished, unfinished]
    split_ifs
    · rw [ih, List.cons_append]
    · exact ih _

/-- The last piece fits the buffer, has no newline, and comes from the file. -/
theorem unfinished_spec (line cs : List UInt8) (hline : line.length + 1 < size) (hnl : 0x0a ∉ line) :
    (unfinished size line cs).length + 1 < size ∧ 0x0a ∉ unfinished size line cs ∧
      ∀ c ∈ unfinished size line cs, c ∈ line ++ cs := by
  induction cs generalizing line with
  | nil => exact ⟨hline, hnl, fun c hc => List.mem_append_left _ hc⟩
  | cons c cs ih =>
    rw [unfinished]
    split_ifs with hend
    · obtain ⟨hlength, hno, hmem⟩ := ih [] (by rw [List.length_nil]; omega) List.not_mem_nil
      exact ⟨hlength, hno, fun x hx => by simp [List.nil_append] at hmem; simp [hmem x hx]⟩
    · rw [not_or] at hend
      obtain ⟨hlength, hno, hmem⟩ := ih (line ++ [c])
        (by rw [List.length_append, List.length_singleton]; omega)
        (by rw [List.mem_append, List.mem_singleton, not_or]; exact ⟨hnl, Ne.symm hend.1⟩)
      refine ⟨hlength, hno, fun x hx => ?_⟩
      have := hmem x hx
      rwa [List.append_assoc] at this

/-- Bytes that fill the buffer complete a piece. -/
theorem fgetsAll_fill (line : List UInt8) {u : List UInt8} (hu : u ≠ []) (hnl : 0x0a ∉ u)
    (hfull : line.length + u.length = size - 1) (v : List UInt8) :
    fgetsAll size line (u ++ v) = (line ++ u) :: fgetsAll size [] v := by
  induction u generalizing line with
  | nil => exact absurd rfl hu
  | cons c u ih =>
    rw [List.mem_cons, not_or] at hnl
    rw [List.length_cons] at hfull
    rw [List.cons_append, fgetsAll]
    cases u with
    | nil =>
      rw [if_pos (.inr (by simpa using hfull))]
      rfl
    | cons c' u =>
      have hgo : ¬ (c = 0x0a ∨ line.length + 1 = size - 1) := by
        rw [List.length_cons] at hfull
        exact not_or.mpr ⟨Ne.symm hnl.1, by omega⟩
      rw [if_neg hgo, ih (line ++ [c]) (List.cons_ne_nil c' u) hnl.2
        (by rw [List.length_append, List.length_singleton]; omega), List.append_assoc]
      rfl

end

/-! ## The loop before and after -/

/-- The keys of the entries before are kept. -/
theorem loadTold_length {es : List Entry} {keys res : List Key} (h : loadTold es keys = some res) :
    keys.length ≤ res.length ∧ res.length ≤ keys.length + es.length := by
  induction es generalizing keys with
  | nil =>
    obtain rfl := Option.some.inj h
    exact ⟨le_rfl, le_rfl⟩
  | cons e es ih =>
    rw [List.length_cons]
    cases e with
    | ignored =>
      obtain ⟨hle, hlt⟩ := ih h
      exact ⟨hle, by omega⟩
    | noSecret | emptySecret => cases h
    | key keyId psk =>
      rw [loadTold] at h
      split_ifs at h
      · obtain rfl := Option.some.inj h
        exact ⟨le_rfl, by omega⟩
      · obtain ⟨hle, hlt⟩ := ih h
        rw [List.length_append, List.length_singleton] at hle hlt
        exact ⟨by omega, by omega⟩

/-- As long as there is room, the loop goes on from the keys that it has. -/
theorem loadTold_append {es : List Entry} {keys mid : List Key} (h : loadTold es keys = some mid)
    (hroom : mid.length < authMaxKeys) (fs : List Entry) :
    loadTold (es ++ fs) keys = loadTold fs mid := by
  induction es generalizing keys with
  | nil =>
    obtain rfl := Option.some.inj h
    rfl
  | cons e es ih =>
    cases e with
    | ignored => exact ih h
    | noSecret | emptySecret => cases h
    | key keyId psk =>
      have hlength := (loadTold_length h).1
      rw [loadTold, if_neg (by omega)] at h
      rw [List.cons_append, loadTold, if_neg (by omega)]
      split_ifs at h ⊢
      exact ih h

/-- A load that succeeds has succeeded on the entries before. -/
theorem loadTold_split {es fs : List Entry} {keys res : List Key}
    (h : loadTold (es ++ fs) keys = some res) (hroom : res.length < authMaxKeys) :
    ∃ mid, loadTold es keys = some mid ∧ mid.length < authMaxKeys ∧ loadTold fs mid = some res := by
  induction es generalizing keys with
  | nil => exact ⟨keys, rfl, (loadTold_length h).1.trans_lt hroom, h⟩
  | cons e es ih =>
    cases e with
    | ignored => exact ih h
    | noSecret | emptySecret => cases h
    | key keyId psk =>
      have hlength := (loadTold_length h).1
      rw [List.cons_append, loadTold, if_neg (by omega)] at h
      rw [loadTold, if_neg (by omega)]
      split_ifs at h ⊢
      exact ih h

/-- Every line says at most one thing. -/
theorem told_length (ls : List (List UInt8)) : (told ls).length ≤ ls.length := by
  rw [told]
  exact (List.length_filter_le ..).trans (List.length_map ..).le

/-! ## The new line -/

/-- The line that keygen writes, without its newline. -/
structure NewLine (keyId psk : CStr) : Prop where
  name : ∀ c ∈ keyId, isSpace c = false ∧ c ≠ 0x23 ∧ c ≠ 0
  nameLength : keyId.length < authKeyIdMax
  secret : ∀ c ∈ psk, isSpace c = false ∧ c ≠ 0x23 ∧ c ≠ 0
  secretLength : psk.length = 64

/-- The text that is appended, up to its newline. -/
def body (keyId psk : CStr) : List UInt8 := keyId ++ 0x20 :: psk

section
variable {keyId psk c : List UInt8}

/-- The new line has no comment sign, no NUL and no newline. -/
theorem NewLine.mem (h : NewLine keyId psk) {x : UInt8} (hx : x ∈ body keyId psk) :
    x ≠ 0x23 ∧ x ≠ 0 ∧ x ≠ 0x0a := by
  have hword : isSpace x = false → x ≠ 0x0a := fun hx hnl => absurd (hnl ▸ hx) (by decide)
  rcases List.mem_append.mp hx with hx | hx
  · obtain ⟨hspace, hhash, hnul⟩ := h.name x hx
    exact ⟨hhash, hnul, hword hspace⟩
  · rcases List.mem_cons.mp hx with rfl | hx
    · decide
    · obtain ⟨hspace, hhash, hnul⟩ := h.secret x hx
      exact ⟨hhash, hnul, hword hspace⟩

/-- The length of the new line. -/
theorem body_length (hpsk : psk.length = 64) : (body keyId psk).length = keyId.length + 65 := by
  rw [body, List.length_append, List.length_cons, hpsk]

/-- The secret is a word. -/
theorem NewLine.word (h : NewLine keyId psk) : IsWord psk :=
  ⟨fun hnil => (nomatch (congrArg List.length hnil).symm.trans h.secretLength),
    fun x hx => (h.secret x hx).1⟩

/-- No shorter text is read as the new key. -/
theorem readEntry_shorter {v : List UInt8} (hnul : 0 ∉ v)
    (hshort : v.length < (body keyId psk).length) : readEntry v ≠ .key keyId psk := by
  intro hentry
  rcases line_shape v with hblank | hcomment | hword | ⟨w, p, hpair⟩
  · exact nomatch (readEntry_blank hblank).symm.trans hentry
  · exact nomatch (readEntry_comment hcomment).symm.trans hentry
  · exact nomatch (readEntry_word hword hnul).symm.trans hentry
  · obtain ⟨rfl, rfl⟩ := Entry.key.inj ((readEntry_pair hpair hnul).symm.trans hentry)
    obtain ⟨a, b, c, rfl, -, -, hb, -⟩ := hpair.shape
    have hpos := List.length_pos_of_ne_nil hb
    simp only [body, List.length_append, List.length_cons] at hshort
    omega

/-- A last line that fits the buffer is told as it is. -/
theorem told_last {x : List UInt8} (hnl : 0x0a ∉ c ++ x)
    (hc : c.length + 1 < lineSize) (hfits : (c ++ x).length < lineSize) :
    told (fgetsAll lineSize c (x ++ [0x0a])) = told [c ++ x] := by
  rw [told_fgetsAll_newline, fgetsAll_fits c x (fun h => hnl (List.mem_append_right c h)) hc hfits]
  split_ifs with hempty
  · rw [hempty]
    rfl
  · rfl

/-- What the loop is told at the end of the file: one piece, if the line fits, and two otherwise. -/
theorem told_newLine (h : NewLine keyId psk) (hc : c.length + 1 < lineSize) (hnl : 0x0a ∉ c) :
    (c.length + (body keyId psk).length < lineSize ∧
      told (fgetsAll lineSize c (body keyId psk ++ [0x0a])) = told [c ++ body keyId psk]) ∨
    ¬ c.length + (body keyId psk).length < lineSize ∧
      ∃ u v, body keyId psk = u ++ v ∧ u ≠ [] ∧ v ≠ [] ∧
        told (fgetsAll lineSize c (body keyId psk ++ [0x0a])) = told [c ++ u] ++ told [v] := by
  have hbody : 0x0a ∉ body keyId psk := fun hx => (h.mem hx).2.2 rfl
  -- with room for the whole line one read takes it
  by_cases hfits : c.length + (body keyId psk).length < lineSize
  · refine .inl ⟨hfits, told_last ?_ hc (by rwa [List.length_append])⟩
    rw [List.mem_append, not_or]
    exact ⟨hnl, hbody⟩
  · -- the buffer takes as much of the line as it has room for
    have hlength : (body keyId psk).length = keyId.length + 65 := body_length h.secretLength
    have hname : keyId.length < 64 := h.nameLength
    have hsize : lineSize = 336 := rfl
    obtain ⟨u, v, huv, hu⟩ : ∃ u v, body keyId psk = u ++ v ∧ c.length + u.length = lineSize - 1 :=
      ⟨_, _, (List.take_append_drop (lineSize - 1 - c.length) _).symm, by
        rw [List.length_take]
        omega⟩
    have hv : u.length + v.length = (body keyId psk).length := by rw [huv, List.length_append]
    have hu₀ : u ≠ [] := fun hnil => by rw [hnil, List.length_nil] at hu; omega
    have hv₀ : v ≠ [] := fun hnil => by rw [hnil, List.length_nil] at hv; omega
    refine .inr ⟨hfits, u, v, huv, hu₀, hv₀, ?_⟩
    rw [huv] at hbody
    rw [huv, List.append_assoc, fgetsAll_fill c hu₀ (fun hx => hbody (List.mem_append_left v hx)) hu,
      told_cons, told_last]
    · rfl
    · exact fun hx => hbody (List.mem_append_right u hx)
    · decide
    · rw [List.nil_append]
      omega

/-- The entry of a line, if it is not ignored, is all that the loop is told. -/
theorem told_single (l : List UInt8) : told [l] = [] ∧ readEntry l = .ignored ∨ told [l] = [readEntry l] := by
  by_cases hl : readEntry l = .ignored
  · exact .inl ⟨by simp [told, hl], hl⟩
  · exact .inr (by simp [told, hl])

/-- A key that the loop takes is the one that it is told. -/
theorem loadTold_one {e : Entry} {es : List Entry} {mid res : List Key}
    (hroom : mid.length < authMaxKeys) (h : loadTold (e :: es) mid = some res) :
    e = .ignored ∧ loadTold es mid = some res ∨
      ∃ w p, e = .key w p ∧ loadTold es (mid ++ [⟨w, p⟩]) = some res := by
  cases e with
  | ignored => exact .inl ⟨rfl, h⟩
  | noSecret | emptySecret => cases h
  | key w p =>
    rw [loadTold, if_neg (Nat.not_le.mpr hroom)] at h
    split_ifs at h
    exact .inr ⟨w, p, rfl, h⟩

/-- The loop only adds keys. -/
theorem loadTold_extends {es : List Entry} {keys res : List Key} (h : loadTold es keys = some res) :
    keys <+: res := by
  induction es generalizing keys with
  | nil => exact Option.some.inj h ▸ List.prefix_rfl
  | cons e es ih =>
    cases e with
    | ignored => exact ih h
    | noSecret | emptySecret => cases h
    | key w p =>
      rw [loadTold] at h
      split_ifs at h
      · exact Option.some.inj h ▸ List.prefix_rfl
      · exact (List.prefix_append ..).trans (ih h)

/-- A key that is there after the last entry and was not before is the one of the last entry. -/
theorem loadTold_last {e : Entry} {mid keys : List Key} (hmid : mid.length = keys.length)
    (hroom : keys.length < authMaxKeys) (h : loadTold [e] mid = some (keys ++ [⟨keyId, psk⟩])) :
    e = .key keyId psk := by
  rcases loadTold_one (hmid ▸ hroom) h with ⟨-, hres⟩ | ⟨w, p, rfl, hres⟩
  · have hlength := congrArg List.length (Option.some.inj hres)
    rw [List.length_append, List.length_singleton] at hlength
    omega
  · obtain ⟨-, hlast⟩ := List.append_inj (Option.some.inj hres) hmid
    cases hlast
    rfl

/-- What the last piece has been read as before. -/
theorem told_old {mid keys : List Key} (hold : loadTold (told [c]) mid = some keys)
    (hroom : keys.length < authMaxKeys) :
    readEntry c = .ignored ∧ keys = mid ∨ ∃ k, keys = mid ++ [k] := by
  have hmid := (loadTold_length hold).1.trans_lt hroom
  rcases told_single c with ⟨htold, hc⟩ | htold
  · rw [htold] at hold
    exact .inl ⟨hc, (Option.some.inj hold).symm⟩
  · rw [htold] at hold
    rcases loadTold_one hmid hold with ⟨hc, hres⟩ | ⟨w, p, -, hres⟩
    · exact .inl ⟨hc, (Option.some.inj hres).symm⟩
    · exact .inr ⟨_, (Option.some.inj hres).symm⟩

/-- A piece that is ignored is blank, or hides what is appended to it. -/
theorem ignored_append (hc : readEntry c = .ignored) :
    Blank c ∨ ∀ x, readEntry (c ++ x) = .ignored := by
  by_cases hnul : 0 ∈ c
  · exact .inr fun x => (readEntry_append_of_nul hnul).trans hc
  rcases line_shape c with hblank | ⟨a, rest, ha, rfl⟩ | hword | ⟨w, p, hpair⟩
  · exact .inl hblank
  · exact .inr fun x => readEntry_comment ⟨a, rest ++ x, ha, by rw [List.append_assoc]; rfl⟩
  · exact nomatch (readEntry_word hword hnul).symm.trans hc
  · exact nomatch (readEntry_pair hpair hnul).symm.trans hc

/-- Blanks at the beginning of a line make no difference. -/
theorem readEntry_blank_append {l : List UInt8} (hnul : 0 ∉ l) (hc : Blank c) :
    readEntry (c ++ l) = readEntry l := by
  have hnul' : 0 ∉ c ++ l := by
    rw [List.mem_append, not_or]
    exact ⟨fun h => absurd (hc 0 h) (by decide), hnul⟩
  rcases line_shape l with hblank | hcomment | hword | ⟨w, p, hpair⟩
  · rw [readEntry_blank hblank, readEntry_blank (hc.append hblank)]
  · rw [readEntry_comment hcomment]
    obtain ⟨a, rest, ha, rfl⟩ := hcomment
    exact readEntry_comment ⟨c ++ a, rest, hc.append ha, by rw [List.append_assoc]⟩
  · rw [readEntry_word hword hnul]
    obtain ⟨a, w, b, rfl, ha, hw, hcomment, hb⟩ := hword.shape
    exact readEntry_word
      ⟨c ++ a, w, b, by simp only [List.append_assoc], hc.append ha, hw, hcomment, hb⟩ hnul'
  · rw [readEntry_pair hpair hnul]
    obtain ⟨a, b, d, rfl, ha, hb, hne, hd⟩ := hpair.shape
    exact readEntry_pair ⟨⟨c ++ a, b, d, by simp only [List.append_assoc], hc.append ha, hb, hne, hd⟩,
      hpair.word, hpair.notComment, hpair.secret⟩ hnul'

/-- The text of the new line is the new key, if it has a name, and a single word otherwise. -/
theorem NewLine.readEntry_body (h : NewLine keyId psk) :
    readEntry (body keyId psk) = if keyId = [] then .noSecret else .key keyId psk := by
  have hnul : 0 ∉ body keyId psk := fun hx => (h.mem hx).2.1 rfl
  have hspace : Blank [0x20] := fun _ hx => List.mem_singleton.mp hx ▸ rfl
  split_ifs with hname
  · refine readEntry_word ⟨[0x20], psk, [], ?_, hspace, h.word, ?_, blank_nil⟩ hnul
    · rw [body, hname, List.append_nil]
      rfl
    · intro hhead
      exact (h.secret _ (List.mem_of_head? hhead)).2.1 rfl
  · refine readEntry_pair ⟨⟨[], [0x20], [], ?_, blank_nil, hspace, nofun, blank_nil⟩,
      ⟨hname, fun x hx => (h.name x hx).1⟩, ?_, h.word.trimmed⟩ hnul
    · simp [body]
    · intro hhead
      exact (h.name _ (List.mem_of_head? hhead)).2.1 rfl

/-- The end of the new line is not ignored. -/
theorem NewLine.end_not_ignored (h : NewLine keyId psk) {u v : List UInt8}
    (huv : body keyId psk = u ++ v) (hv : v ≠ []) : readEntry v ≠ .ignored := by
  have hmem : ∀ x ∈ v, x ∈ body keyId psk := fun x hx => huv ▸ List.mem_append_right u hx
  rcases line_shape v with hblank | ⟨a, rest, -, rfl⟩ | hword | ⟨w, p, hpair⟩
  · -- its last byte is one of the secret's
    have hlast : (body keyId psk).getLast? = psk.getLast? := by
      rw [body, List.getLast?_append_of_ne_nil _ (List.cons_ne_nil _ _), List.getLast?_cons,
        List.getLast?_eq_some_getLast h.word.ne_nil]
      rfl
    have hv' : v.getLast? = psk.getLast? := by
      rw [← hlast, huv, List.getLast?_append_of_ne_nil _ hv]
    rw [List.getLast?_eq_some_getLast hv, List.getLast?_eq_some_getLast h.word.ne_nil,
      Option.some.injEq] at hv'
    have hspace := hblank _ (List.getLast_mem hv)
    rw [hv', (h.secret _ (List.getLast_mem h.word.ne_nil)).1] at hspace
    cases hspace
  · exact absurd rfl (h.mem (hmem 0x23 (by simp))).1
  · rw [readEntry_word hword fun h0 => (h.mem (hmem 0 h0)).2.1 rfl]
    exact nofun
  · rw [readEntry_pair hpair fun h0 => (h.mem (hmem 0 h0)).2.1 rfl]
    exact nofun

/-- A line that is cut in two is not read as the new key. -/
theorem loadTold_cut (h : NewLine keyId psk) {u v : List UInt8} (huv : body keyId psk = u ++ v)
    (hu : u ≠ []) (hv : v ≠ []) {mid keys : List Key} (hold : loadTold (told [c]) mid = some keys)
    (hroom : keys.length < authMaxKeys) :
    loadTold (told [c ++ u] ++ told [v]) mid ≠ some (keys ++ [⟨keyId, psk⟩]) := by
  intro hnew
  have hlength : (body keyId psk).length = u.length + v.length := by rw [huv, List.length_append]
  have hmem : ∀ x, x ∈ u ∨ x ∈ v → x ≠ 0 := fun x hx =>
    (h.mem (huv ▸ List.mem_append.mpr hx)).2.1
  -- neither half of the line is as long as the entry
  have hu₀ : readEntry u ≠ .key keyId psk := readEntry_shorter (fun hx => hmem 0 (.inl hx) rfl)
    (by have := List.length_pos_of_ne_nil hv; omega)
  have hv₀ : readEntry v ≠ .key keyId psk := readEntry_shorter (fun hx => hmem 0 (.inr hx) rfl)
    (by have := List.length_pos_of_ne_nil hu; omega)
  have hend : told [v] = [readEntry v] :=
    (told_single v).resolve_left fun hv' => h.end_not_ignored huv hv hv'.2
  have hmid := (loadTold_length hold).1
  rw [hend] at hnew
  rcases told_single (c ++ u) with ⟨htold, -⟩ | htold
  · -- the first part is ignored, so that the second has to be the key
    rw [htold, List.nil_append] at hnew
    have hlast := (loadTold_length hnew).2
    rw [List.length_append] at hlast
    exact hv₀ (loadTold_last (by simp at hlast; omega) hroom hnew)
  · rw [htold] at hnew
    rcases loadTold_one (hmid.trans_lt hroom) hnew with ⟨-, hnew⟩ | ⟨w, p, hfirst, hnew⟩
    · have hlast := (loadTold_length hnew).2
      rw [List.length_append] at hlast
      exact hv₀ (loadTold_last (by simp at hlast; omega) hroom hnew)
    · rcases told_old hold hroom with ⟨hc, rfl⟩ | ⟨k, rfl⟩
      · -- there was no key in the last piece, so that the first part has to be the key
        obtain ⟨-, hkey⟩ := List.append_inj
          ((loadTold_extends hnew).eq_of_length (by simp)) rfl
        cases hkey
        rcases ignored_append hc with hblank | hhides
        · exact hu₀ ((readEntry_blank_append (fun hx => hmem 0 (.inl hx) rfl) hblank).symm.trans hfirst)
        · exact nomatch (hhides u).symm.trans hfirst
      · exact hv₀ (loadTold_last (by simp) hroom hnew)

/-- The new line is read as the new key exactly when what it is appended to is blank and leaves room
for it, and the key has a name. -/
theorem loadTold_newLine_iff (h : NewLine keyId psk) (hc : c.length + 1 < lineSize) (hnl : 0x0a ∉ c)
    {mid keys : List Key} (hold : loadTold (told [c]) mid = some keys)
    (hroom : keys.length < authMaxKeys) :
    loadTold (told (fgetsAll lineSize c (body keyId psk ++ [0x0a]))) mid =
        some (keys ++ [⟨keyId, psk⟩]) ↔
      keyId ≠ [] ∧ Blank c ∧ c.length + keyId.length + 65 < lineSize := by
  have hlength : (body keyId psk).length = keyId.length + 65 := body_length h.secretLength
  have hmid := (loadTold_length hold).1.trans_lt hroom
  have hnul : 0 ∉ body keyId psk := fun hx => (h.mem hx).2.1 rfl
  -- with the end of the last line before it, the new line fits into one read or is cut
  rcases told_newLine h hc hnl with ⟨hfits, htold⟩ | ⟨hfits, u, v, huv, hu, hv, htold⟩
  · rw [htold]
    by_cases hblank : Blank c
    · rw [told_of_blank hblank] at hold
      obtain rfl := Option.some.inj hold
      have hentry : readEntry (c ++ body keyId psk) = _ :=
        (readEntry_blank_append hnul hblank).trans h.readEntry_body
      -- a line that starts with its blank has the key where the id should be
      by_cases hname : keyId = []
      · rw [if_pos hname] at hentry
        refine iff_of_false ?_ fun hcond => hcond.1 hname
        simp [told, hentry, loadTold]
      · rw [if_neg hname] at hentry
        refine iff_of_true ?_ ⟨hname, hblank, by omega⟩
        have hshort : ¬ (authKeyIdMax ≤ keyId.length ∨ authPskMax ≤ psk.length) := by
          rw [not_or, h.secretLength]
          exact ⟨Nat.not_le.mpr h.nameLength, by decide⟩
        simp [told, hentry, loadTold, Nat.not_le.mpr hmid, hshort]
    · refine iff_of_false (fun hnew => ?_) fun hcond => hblank hcond.2.1
      rcases told_old hold hroom with ⟨hignored, rfl⟩ | ⟨k, rfl⟩
      · simp [told, (ignored_append hignored).resolve_left hblank, loadTold] at hnew
      · -- one piece cannot hold both the old key and the new one
        have hmany := (loadTold_length hnew).2
        have hone := told_length [c ++ body keyId psk]
        simp only [List.length_append, List.length_singleton] at hmany hone
        omega
  · rw [htold]
    exact iff_of_false (loadTold_cut h huv hu hv hold hroom) fun hcond => hfits (by omega)

end

/-! ## Keygen -/

/-- The name that keygen takes is one of its arguments, or the default. -/
theorem keygenOptions_keyId {args : List CStr} {o o' : KeygenOptions}
    (h : keygenOptions args o = .ok o') : o'.keyId ∈ o.keyId :: args := by
  fun_induction keygenOptions args o with
  | case1 o =>
    cases h
    exact List.mem_cons_self
  | case2 o args ih =>
    rcases List.mem_cons.mp (ih h) with heq | hmem
    · rw [heq]
      exact List.mem_cons_self
    · simp [hmem]
  | case3 | case4 | case7 => cases h
  | case5 o value args _ _ ih =>
    rcases List.mem_cons.mp (ih h) with heq | hmem
    · rw [heq]
      exact List.mem_cons_self
    · simp [hmem]
  | case6 o value args _ _ _ ih =>
    exact List.mem_cons_of_mem _ (List.mem_cons_of_mem _ (ih h))

/-- A secret that has been drawn has 32 bytes. The induction is on the answers of the system. -/
theorem drawSecret_length {os : List GetRandom} {raw res : List UInt8} (hraw : raw.length ≤ 32)
    (h : drawSecret os raw = some (true, res)) : res.length = 32 := by
  induction os generalizing raw with
  | nil =>
    rw [drawSecret] at h
    split_ifs at h with hfull
    cases h
    omega
  | cons o os ih =>
    unfold drawSecret at h
    split_ifs at h with hfull
    · cases h
      omega
    · cases o with
      | got bs =>
        refine ih ?_ h
        rw [List.length_append, List.length_take]
        omega
      | eintr => exact ih hraw h
      | fail => cases h

/-- The digits of a secret. -/
theorem authHex_spec (bs : List UInt8) : (authHex bs).length = 2 * bs.length ∧
    ∀ c ∈ authHex bs, isSpace c = false ∧ c ≠ 0x23 ∧ c ≠ 0 := by
  have hbyte : ∀ b : UInt8, (fmtHexByte b).length = 2 ∧
      ∀ c ∈ fmtHexByte b, isSpace c = false ∧ c ≠ 0x23 ∧ c ≠ 0 := by
    have hdigit : ∀ n < 16, isSpace (hexChar n) = false ∧ hexChar n ≠ 0x23 ∧ hexChar n ≠ 0 := by
      decide
    refine fun b => ⟨rfl, fun c hc => ?_⟩
    have hlt : b.toNat < 256 := b.toNat_lt
    rcases List.mem_pair.mp hc with rfl | rfl
    · exact hdigit _ (by omega)
    · exact hdigit _ (by omega)
  constructor
  · rw [authHex, List.length_flatMap]
    simp [hbyte, Nat.mul_comm]
  · intro c hc
    obtain ⟨b, -, hb⟩ := List.mem_flatMap.mp hc
    exact (hbyte b).2 c hb

/-- The line is not cut. -/
theorem keygenLine_eq {keyId psk : CStr} (h : NewLine keyId psk) :
    keygenLine keyId psk = body keyId psk ++ [0x0a] := by
  have hlength : (body keyId psk).length = keyId.length + 65 := body_length h.secretLength
  have hname : keyId.length < 64 := h.nameLength
  have hline : keyId ++ [0x20] ++ psk ++ [0x0a] = body keyId psk ++ [0x0a] := by simp [body]
  rw [keygenLine, hline, List.take_of_length_le]
  rw [List.length_append, hlength, List.length_singleton]
  show _ ≤ 143
  omega

/-- What keygen has done when it reports success. -/
theorem authKeygenMain_success {args : List CStr} {defaultPath : CStr} {env : KeygenEnv}
    {o : KeygenOptions} {psk : CStr} {files : CStr → KeyFile}
    (hargs : ∀ arg ∈ args, 0 ∉ arg)
    (hopts : keygenOptions args ⟨defaultPath, bytes "default", false⟩ = .ok o)
    (hrun : authKeygenMain args defaultPath env = some ⟨0, some psk, files⟩) :
    NewLine o.keyId psk ∧
      files o.path = (env.files o.path).append (body o.keyId psk ++ [0x0a]) := by
  -- the name comes from the arguments, or is the default
  have hname : 0 ∉ o.keyId := by
    rcases List.mem_cons.mp (keygenOptions_keyId hopts) with hdefault | harg
    · rw [hdefault]
      show 0 ∉ bytes "default"
      decide
    · exact hargs _ harg
  -- each check that fails ends with another status
  simp only [authKeygenMain, hopts] at hrun
  split_ifs at hrun with hallowed
  · cases hrun
  cases hload : authKeyringLoad (env.files o.path) with
  | error => simp [hload] at hrun
  | ok keys =>
    simp only [hload] at hrun
    split_ifs at hrun with hknown
    · cases hrun
    obtain ⟨⟨drawn, raw⟩, hdraw, hrun⟩ := Option.bind_eq_some_iff.mp hrun
    dsimp only at hrun
    split_ifs at hrun with hfails hshort
    · cases hrun
    · cases hrun
    · cases hrun
      have hdrawn : drawn = true := by
        cases drawn with
        | false => exact absurd rfl hfails
        | true => rfl
      obtain ⟨hlength, hdigits⟩ := authHex_spec raw
      rw [keyIdAllowed, Bool.not_eq_true', Bool.not_eq_false, Bool.and_eq_true, List.all_eq_true,
        decide_eq_true_eq] at hallowed
      -- the name has been checked, and the secret is 64 digits
      have hnew : NewLine o.keyId (authHex raw) := by
        refine ⟨fun c hc => ?_, hallowed.2, hdigits, ?_⟩
        · have hc' := hallowed.1 c hc
          rw [Bool.and_eq_true, Bool.not_eq_true', decide_eq_true_eq] at hc'
          exact ⟨hc'.1, hc'.2, fun hnul => hname (hnul ▸ hc)⟩
        · have hraw : ([] : List UInt8).length ≤ 32 := Nat.zero_le 32
          rw [hlength, drawSecret_length hraw (hdrawn ▸ hdraw)]
      refine ⟨hnew, ?_⟩
      rw [Function.update_self, keygenLine_eq hnew, List.take_of_length_le]
      exact keygenLine_eq hnew ▸ Nat.le_of_not_lt hshort

/-- The text at the path of the key file. -/
def textOf : KeyFile → List UInt8
  | .content text => text
  | .absent | .unreadable => []

/-- The load, on what the pieces of the text tell. -/
theorem authKeyringLoad_ok_iff {f : KeyFile} (hf : f ≠ .unreadable) (keys : List Key) :
    authKeyringLoad f = .ok keys ↔
      loadTold (told (fgetsAll lineSize [] (textOf f))) [] = some keys := by
  have hok : ∀ res : Except KeyError (List Key), res = .ok keys ↔ res.toOption = some keys := by
    intro res
    cases res with
    | error e => exact iff_of_false nofun nofun
    | ok ks => simp [Except.toOption]
  cases f with
  | absent => exact hok _
  | unreadable => exact absurd rfl hf
  | content text => rw [textOf, ← loadLoop_toOption _ 0, ← hok, authKeyringLoad]

/-- What is appended comes behind the text. -/
theorem textOf_append {f : KeyFile} (hf : f ≠ .unreadable) (bs : List UInt8) :
    textOf (f.append bs) = textOf f ++ bs := by
  cases f with
  | absent | content => rfl
  | unreadable => exact absurd rfl hf

/-- The file that keygen leaves is read as the keys before and the new one exactly when the last
line of the file was ended, or is blank and leaves room for the new one, and the new key has a
name. -/
theorem keygen_then_load_iff {args : List CStr} {defaultPath : CStr} {env : KeygenEnv}
    {o : KeygenOptions} {keys : List Key} {psk : CStr} {files : CStr → KeyFile}
    (hargs : ∀ arg ∈ args, 0 ∉ arg)
    (hopts : keygenOptions args ⟨defaultPath, bytes "default", false⟩ = .ok o)
    (hload : authKeyringLoad (env.files o.path) = .ok keys) (hroom : keys.length < authMaxKeys)
    (hrun : authKeygenMain args defaultPath env = some ⟨0, some psk, files⟩) :
    authKeyringLoad (files o.path) = .ok (keys ++ [⟨o.keyId, psk⟩]) ↔
      o.keyId ≠ [] ∧ Blank (unfinished lineSize [] (textOf (env.files o.path))) ∧
        (unfinished lineSize [] (textOf (env.files o.path))).length + o.keyId.length + 65 <
          lineSize := by
  obtain ⟨hnew, hfiles⟩ := authKeygenMain_success hargs hopts hrun
  have hf : env.files o.path ≠ .unreadable := fun hf => by
    rw [hf] at hload
    cases hload
  have hf' : files o.path ≠ .unreadable := by
    rw [hfiles]
    cases hold : env.files o.path with
    | unreadable => exact absurd hold hf
    | absent | content => exact nofun
  obtain ⟨hc, hnl, -⟩ := unfinished_spec [] (textOf (env.files o.path))
    (show _ < lineSize by decide) List.not_mem_nil
  -- the complete pieces are read as before
  have hold := (authKeyringLoad_ok_iff hf keys).mp hload
  rw [← List.append_nil (textOf _), fgetsAll_append, told_append] at hold
  obtain ⟨mid, hfinished, hmid, hlast⟩ := loadTold_split hold hroom
  rw [authKeyringLoad_ok_iff hf', hfiles, textOf_append hf, fgetsAll_append, told_append,
    loadTold_append hfinished hmid]
  refine loadTold_newLine_iff hnew hc hnl ?_ hroom
  rw [← hlast, fgetsAll]
  split_ifs with hempty
  · rw [hempty]
    rfl
  · rfl

/-- The arguments with which keygen makes a key for bob. -/
def bobArgs : List CStr := [bytes "--keys-file", bytes "k", bytes "--key-id", bytes "bob"]

/-- Surroundings in which keygen finds a key file and nothing fails. -/
def withFile (text : String) : KeygenEnv :=
  { files := fun _ => .content (bytes text)
    random := [.got (List.replicate 32 0)]
    mkdirParent := true
    opens := true
    accepts := 1000 }

/-- The secret that keygen makes there. -/
def zeros : CStr := List.replicate 64 0x30

/-- A file with one key whose line has ended: afterwards there are two. -/
theorem keygen_then_load_ended_line :
    authKeyringLoad ((withFile "alice 0123\n").files (bytes "k")) =
        .ok [⟨bytes "alice", bytes "0123"⟩] ∧
      ∃ files, authKeygenMain bobArgs [] (withFile "alice 0123\n") = some ⟨0, some zeros, files⟩ ∧
        authKeyringLoad (files (bytes "k")) =
          .ok [⟨bytes "alice", bytes "0123"⟩, ⟨bytes "bob", zeros⟩] := by
  have hload : authKeyringLoad ((withFile "alice 0123\n").files (bytes "k")) =
      .ok [⟨bytes "alice", bytes "0123"⟩] := by decide +kernel
  have hrun : (authKeygenMain bobArgs [] (withFile "alice 0123\n")).any
      (fun r => r.code = 0 ∧ r.secret = some zeros) = true := by decide +kernel
  obtain ⟨⟨code, secret, files⟩, hrun, hr⟩ := (Option.any_eq_true ..).mp hrun
  obtain ⟨rfl, rfl⟩ := of_decide_eq_true hr
  refine ⟨hload, files, hrun, ?_⟩
  have hopts : keygenOptions bobArgs ⟨[], bytes "default", false⟩ =
      .ok ⟨bytes "k", bytes "bob", false⟩ := by decide +kernel
  exact (keygen_then_load_iff (by decide +kernel) hopts hload (by decide) hrun).mpr
    ⟨by decide +kernel, by unfold Blank; decide +kernel, by decide +kernel⟩

/-- Where the last line of the file is not ended, the new line alters the key before it. -/
theorem keygen_alters_last_key :
    authKeyringLoad ((withFile "alice 0123").files (bytes "k")) =
        .ok [⟨bytes "alice", bytes "0123"⟩] ∧
      (authKeygenMain bobArgs [] (withFile "alice 0123")).any (fun r => r.code = 0 ∧
        r.secret = some zeros ∧ authKeyringLoad (r.files (bytes "k")) =
          .ok [⟨bytes "alice", bytes "0123bob " ++ zeros⟩]) = true := by
  decide +kernel

end SlcRtld.Property
