import SlcRtld.Auth.KeyLines

/-!
# The key file is read line by line

The format of the key file is about lines, and the daemon reads pieces of at most 335 bytes. The
loop is told what the pieces of each line say (`told_fgetsAll`), and a line that is not longer than
a piece is its only piece. A longer line is read as several: the end of a comment can become a key.
The keys are those of the format if every line that is read is no longer than a piece, or is cut
without harm (`CutWell`); what comes after the first bad line, or after the line for a 33rd key, is
not read (`linesRead`).
-/

namespace SlcRtld.Property

open Libc Auth

/-! ## The format -/

/-- A line that is blank, or whose first character that is not a blank is a `#`. -/
def isIgnored (l : List UInt8) : Bool :=
  match l.dropWhile isSpace with
  | [] => true
  | c :: _ => c = 0x23

/-- A line with a key. -/
structure IsKeyLine (l : List UInt8) (k : Key) : Prop where
  pair : PairLine l k.keyId k.psk
  keyId : k.keyId.length < authKeyIdMax
  psk : k.psk.length < authPskMax

/-- The lines of a file that are to hold keys. -/
def keyLines (text : List UInt8) : List (List UInt8) :=
  (text.splitOn 0x0a).filter fun l => !isIgnored l

/-- What the format says that a file is read as. Of a file with more than 32 lines for keys it says
only which the first 32 are. -/
structure ReadsFile (text : List UInt8) (res : Except KeyError (List Key)) : Prop where
  keys : ∀ ks, List.Forall₂ IsKeyLine (keyLines text) ks → res = .ok (ks.take authMaxKeys)
  refused : (keyLines text).length ≤ authMaxKeys →
    (¬ ∃ ks, List.Forall₂ IsKeyLine (keyLines text) ks) → ∃ e, res = .error e
  first : ∀ ks, res = .ok ks → List.Forall₂ IsKeyLine ((keyLines text).take authMaxKeys) ks

/-! ## Entries -/

section
variable {l : List UInt8}

/-- A line with a key is not ignored. -/
theorem PairLine.not_ignored {w p : List UInt8} (h : PairLine l w p) : isIgnored l = false := by
  obtain ⟨a, b, c, rfl, ha, -⟩ := h.shape
  obtain ⟨x, xs, hx, hx'⟩ := h.word.trimmed.first
  have hcomment := h.notComment
  rw [hx] at hcomment ⊢
  rw [isIgnored, List.append_assoc, List.append_assoc, List.append_assoc, ha.dropWhile,
    List.cons_append, List.dropWhile_cons_of_neg (by rw [hx']; decide)]
  simpa using hcomment

/-- The loop ignores what the format ignores. -/
theorem readEntry_ignored_iff (hnul : 0 ∉ l) : readEntry l = .ignored ↔ isIgnored l = true := by
  rcases line_shape l with hblank | hcomment | hword | ⟨w, p, hpair⟩
  · refine iff_of_true (readEntry_blank hblank) ?_
    rw [isIgnored, ← List.append_nil l, hblank.dropWhile]
    rfl
  · refine iff_of_true (readEntry_comment hcomment) ?_
    obtain ⟨a, rest, ha, rfl⟩ := hcomment
    rw [isIgnored, ha.dropWhile]
    rfl
  · refine iff_of_false (by rw [readEntry_word hword hnul]; exact nofun) ?_
    obtain ⟨a, w, c, rfl, ha, hw, hcomment, -⟩ := hword.shape
    obtain ⟨x, xs, rfl, hx⟩ := hw.trimmed.first
    rw [isIgnored, List.append_assoc, ha.dropWhile, List.cons_append,
      List.dropWhile_cons_of_neg (by rw [hx]; decide)]
    simpa using hcomment
  · exact iff_of_false (by rw [readEntry_pair hpair hnul]; exact nofun)
      (by rw [PairLine.not_ignored hpair]; decide)

/-- Nothing after a NUL is looked at. -/
theorem readEntry_append_of_nul {b : List UInt8} (hnul : 0 ∈ l) : readEntry (l ++ b) = readEntry l := by
  rw [readEntry, readEntry, cstr_append_of_nul hnul]

/-- Blanks at the end of a line make no difference. -/
theorem readEntry_append_blank {b : List UInt8} (hb : Blank b) : readEntry (l ++ b) = readEntry l := by
  by_cases hnul : 0 ∈ l
  · exact readEntry_append_of_nul hnul
  have hnul' : 0 ∉ l ++ b := by
    rw [List.mem_append, not_or]
    exact ⟨hnul, fun h => absurd (hb 0 h) (by decide)⟩
  rcases line_shape l with hblank | hcomment | hword | ⟨w, p, hpair⟩
  · rw [readEntry_blank hblank, readEntry_blank (hblank.append hb)]
  · rw [readEntry_comment hcomment]
    obtain ⟨a, rest, ha, rfl⟩ := hcomment
    exact readEntry_comment ⟨a, rest ++ b, ha, by rw [List.append_assoc]; rfl⟩
  · rw [readEntry_word hword hnul]
    obtain ⟨a, w, c, rfl, ha, hw, hcomment, hc⟩ := hword.shape
    exact readEntry_word ⟨a, w, c ++ b, by rw [List.append_assoc], ha, hw, hcomment, hc.append hb⟩ hnul'
  · rw [readEntry_pair hpair hnul]
    obtain ⟨a, b', c, rfl, ha, hb', hne, hc⟩ := hpair.shape
    exact readEntry_pair ⟨⟨a, b', c ++ b, by rw [List.append_assoc], ha, hb', hne, hc.append hb⟩,
      hpair.word, hpair.notComment, hpair.secret⟩ hnul'

/-- The newline is blank. -/
theorem blank_newline : Blank [0x0a] := fun _ hc => List.mem_singleton.mp hc ▸ rfl

/-- What the lines tell the loop. -/
def told (ls : List (List UInt8)) : List Entry := (ls.map readEntry).filter (· ≠ .ignored)

/-- What the lines say, line by line. -/
theorem told_cons (l : List UInt8) (ls : List (List UInt8)) : told (l :: ls) = told [l] ++ told ls := by
  rw [told, List.map_cons, ← List.singleton_append, List.filter_append]
  rfl

/-- A blank line says nothing. -/
theorem told_of_blank (hl : Blank l) (ls : List (List UInt8)) : told (l :: ls) = told ls := by
  rw [told, List.map_cons, readEntry_blank hl]
  rfl

/-- What the lines say, part by part. -/
theorem told_append (ls ls' : List (List UInt8)) : told (ls ++ ls') = told ls ++ told ls' := by
  rw [told, List.map_append, List.filter_append]
  rfl

/-- A line says one thing, or nothing. -/
theorem told_singleton (l : List UInt8) :
    told [l] = if readEntry l = .ignored then [] else [readEntry l] := by
  rw [told, List.map_singleton]
  split_ifs with h
  · rw [h]
    rfl
  · exact List.filter_cons_of_pos (by simpa using h)

/-! ## Pieces and lines -/

/-- Lines are split byte by byte. -/
theorem splitOn_cons (c : UInt8) (cs : List UInt8) : (c :: cs).splitOn 0x0a =
    if c = 0x0a then [] :: cs.splitOn 0x0a else (cs.splitOn 0x0a).modifyHead (c :: ·) := by
  rw [List.splitOn, List.splitOnP_cons_eq_if_modifyHead]
  simp [List.splitOn]

/-- After a newline the next piece begins. -/
theorem fgetsAll_newline (size : ℕ) (line x cs : List UInt8) : fgetsAll size line (x ++ 0x0a :: cs) =
    fgetsAll size line (x ++ [0x0a]) ++ fgetsAll size [] cs := by
  induction x generalizing line with
  | nil => rw [List.nil_append, List.nil_append, fgetsAll, fgetsAll, if_pos (.inl rfl),
      if_pos (.inl rfl), fgetsAll, if_pos rfl, List.singleton_append]
  | cons c x ih =>
    rw [List.cons_append, List.cons_append, fgetsAll, fgetsAll]
    split_ifs
    · rw [ih, List.cons_append]
    · rw [ih]

/-- The newline at the end of a line tells the loop nothing. -/
theorem told_fgetsAll_newline (size : ℕ) (line x : List UInt8) :
    told (fgetsAll size line (x ++ [0x0a])) = told (fgetsAll size line x) := by
  induction x generalizing line with
  | nil =>
    have hpiece : fgetsAll size line [0x0a] = [line ++ [0x0a]] := by
      rw [fgetsAll, if_pos (.inl rfl), fgetsAll, if_pos rfl]
    rw [List.nil_append, hpiece, told_singleton, readEntry_append_blank blank_newline,
      ← told_singleton, fgetsAll]
    split_ifs with hempty
    · rw [hempty]
      rfl
    · rfl
  | cons c x ih =>
    rw [List.cons_append, fgetsAll, fgetsAll]
    split_ifs
    · rw [told_cons, ih, ← told_cons]
    · rw [ih]

/-- A line that fits the buffer is its own only piece. -/
theorem fgetsAll_fits (line x : List UInt8) (hx : 0x0a ∉ x) (hline : line.length + 1 < lineSize)
    (hfits : (line ++ x).length < lineSize) :
    fgetsAll lineSize line x = if line ++ x = [] then [] else [line ++ x] := by
  induction x generalizing line with
  | nil => rw [fgetsAll, List.append_nil]
  | cons c x ih =>
    rw [List.mem_cons, not_or] at hx
    rw [List.length_append, List.length_cons] at hfits
    have hassoc : line ++ [c] ++ x = line ++ c :: x := by rw [List.append_assoc]; rfl
    rw [fgetsAll]
    by_cases hfull : line.length + 1 = lineSize - 1
    · -- the buffer is full, so that the line has ended too
      obtain rfl : x = [] := List.length_eq_zero_iff.mp (by omega)
      rw [if_pos (.inr hfull), fgetsAll, if_pos rfl, if_neg (by simp)]
    · have hlength : (line ++ [c]).length = line.length + 1 := List.length_append
      rw [if_neg (not_or.mpr ⟨Ne.symm hx.1, hfull⟩), ih (line ++ [c]) hx.2, hassoc]
      · rw [hlength]
        omega
      · rw [hassoc, List.length_append, List.length_cons]
        exact hfits

/-- What the pieces of a line say. -/
def toldInPieces (l : List UInt8) : List Entry := told (fgetsAll lineSize [] l)

/-- What a line says that fits the buffer. -/
theorem toldInPieces_of_fits (hl : 0x0a ∉ l) (hfits : l.length < lineSize) :
    toldInPieces l = told [l] := by
  rw [toldInPieces, fgetsAll_fits [] l hl (by decide) hfits, List.nil_append]
  split_ifs with hempty
  · rw [hempty]
    rfl
  · rfl

/-- The loop is told what the pieces of each line say. -/
theorem told_fgetsAll (text : List UInt8) :
    told (fgetsAll lineSize [] text) = (text.splitOn 0x0a).flatMap toldInPieces := by
  have hlines : ∀ ls : List (List UInt8), ls ≠ [] →
      told (fgetsAll lineSize [] ([0x0a].intercalate ls)) = ls.flatMap toldInPieces := by
    intro ls hls
    induction ls with
    | nil => exact absurd rfl hls
    | cons l ls ih =>
      rw [List.flatMap_cons]
      cases ls with
      | nil =>
        rw [List.intercalate_singleton, List.flatMap_nil, List.append_nil]
        rfl
      | cons l' ls =>
        rw [List.intercalate_cons_cons, List.append_assoc, List.singleton_append, fgetsAll_newline,
          told_append, told_fgetsAll_newline, ih (List.cons_ne_nil l' ls)]
        rfl
  have hne : text.splitOn 0x0a ≠ [] := List.splitOnP_ne_nil (· == (0x0a : UInt8)) text
  rw [← hlines _ hne, List.intercalate_splitOn]

/-- The loop on what it is told, without the numbers of the lines. -/
def loadTold : List Entry → List Key → Option (List Key)
  | [], keys => some keys
  | .ignored :: es, keys => loadTold es keys
  | .noSecret :: _, _ => none
  | .emptySecret _ :: _, _ => none
  | .key keyId psk :: es, keys =>
    if authMaxKeys ≤ keys.length then some keys
    else if authKeyIdMax ≤ keyId.length ∨ authPskMax ≤ psk.length then none
    else loadTold es (keys ++ [⟨keyId, psk⟩])

/-- The loop returns what it is told by the lines. The induction is on the lines. -/
theorem loadLoop_toOption (ls : List (List UInt8)) (n : ℕ) (keys : List Key) :
    (loadLoop ls n keys).toOption = loadTold (told ls) keys := by
  induction ls generalizing n keys with
  | nil => rfl
  | cons l ls ih =>
    rw [loadLoop, told_cons, told, List.map_singleton]
    cases readEntry l with
    | ignored => exact ih (n + 1) keys
    | noSecret | emptySecret => rfl
    | key keyId psk =>
      show _ = loadTold (.key keyId psk :: told ls) keys
      rw [loadTold]
      dsimp only
      split_ifs
      · rfl
      · rfl
      · exact ih (n + 1) (keys ++ [⟨keyId, psk⟩])

/-- What is wrong with an entry that stops the loop: it is not a word and a secret, or one of the
two is too long. -/
inductive Fault where
  | incomplete
  | tooLong
deriving DecidableEq

/-- What is wrong with an entry, if something is. -/
def fault : Entry → Option Fault
  | .ignored => none
  | .noSecret | .emptySecret _ => some .incomplete
  | .key keyId psk =>
    if authKeyIdMax ≤ keyId.length ∨ authPskMax ≤ psk.length then some .tooLong else none

/-- An entry with a fault stops the loop, unless it is a key for which there is no room. -/
theorem loadTold_fault {e : Entry} {f : Fault} (he : fault e = some f) (es : List Entry)
    (keys : List Key) : loadTold (e :: es) keys =
      if f = .tooLong ∧ authMaxKeys ≤ keys.length then some keys else none := by
  cases e with
  | ignored => cases he
  | noSecret | emptySecret =>
    obtain rfl := Option.some.inj he
    rfl
  | key keyId psk =>
    obtain ⟨hlong, hf⟩ := Option.ite_none_right_eq_some.mp he
    obtain rfl := Option.some.inj hf
    rw [loadTold, if_pos hlong]
    split_ifs with hfull hboth hboth
    · rfl
    · exact absurd ⟨rfl, hfull⟩ hboth
    · exact absurd hboth.2 hfull
    · rfl

/-- The lines that are read where `n` keys have been taken: all up to the first one that is not
ignored and either has a fault or finds no room for its key. -/
def linesRead (n : ℕ) : List (List UInt8) → List (List UInt8)
  | [] => []
  | l :: ls =>
    if readEntry l = .ignored then l :: linesRead n ls
    else if n < authMaxKeys ∧ fault (readEntry l) = none then l :: linesRead (n + 1) ls
    else [l]

/-- A line is cut without harm: its pieces say together what it says, or the first thing that they
say has the fault that the line has. -/
def CutWell (l : List UInt8) : Prop :=
  toldInPieces l = told [l] ∨
    ∃ f, (toldInPieces l).head?.bind fault = some f ∧ (told [l]).head?.bind fault = some f

/-- A line with a fault, cut without harm, stops the loop as it would in one piece. -/
theorem CutWell.stops (hcut : CutWell l) (hl : readEntry l ≠ .ignored) {keys : List Key}
    (hstop : ¬ (keys.length < authMaxKeys ∧ fault (readEntry l) = none)) (es es' : List Entry) :
    loadTold (toldInPieces l ++ es) keys = loadTold (told [l] ++ es') keys := by
  have htold : told [l] = [readEntry l] := by rw [told_singleton, if_neg hl]
  rcases hcut with hsame | ⟨f, hpieces, hwhole⟩
  · rw [hsame, htold, List.singleton_append, List.singleton_append]
    cases hfault : fault (readEntry l) with
    | some f => rw [loadTold_fault hfault, loadTold_fault hfault]
    | none =>
      -- a key, and no room for it
      have hfull : authMaxKeys ≤ keys.length := Nat.le_of_not_lt fun h => hstop ⟨h, hfault⟩
      cases hentry : readEntry l with
      | ignored => exact absurd hentry hl
      | noSecret | emptySecret => rw [hentry] at hfault; cases hfault
      | key keyId psk => rw [loadTold, loadTold, if_pos hfull, if_pos hfull]
  · obtain ⟨e, he, hf⟩ := Option.bind_eq_some_iff.mp hpieces
    obtain ⟨rest, hrest⟩ := List.head?_eq_some_iff.mp he
    rw [htold] at hwhole ⊢
    rw [hrest, List.cons_append, List.singleton_append, loadTold_fault hf, loadTold_fault hwhole]

/-- Where every line that is read is cut without harm, the loop does with the pieces what it would
do with the lines. -/
theorem loadTold_pieces (ls : List (List UInt8)) (keys : List Key)
    (hcut : ∀ l ∈ linesRead keys.length ls, CutWell l) :
    loadTold (ls.flatMap toldInPieces) keys = loadTold (told ls) keys := by
  induction ls generalizing keys with
  | nil => rfl
  | cons l ls ih =>
    rw [linesRead] at hcut
    rw [List.flatMap_cons, told_cons]
    by_cases hignored : readEntry l = .ignored
    · rw [if_pos hignored, List.forall_mem_cons] at hcut
      have htold : told [l] = [] := by rw [told_singleton, if_pos hignored]
      have hnothing : toldInPieces l = [] := by
        rcases hcut.1 with hsame | ⟨f, -, hf⟩
        · exact hsame.trans htold
        · rw [htold] at hf
          cases hf
      rw [hnothing, htold, List.nil_append, List.nil_append]
      exact ih keys hcut.2
    rw [if_neg hignored] at hcut
    by_cases hkey : keys.length < authMaxKeys ∧ fault (readEntry l) = none
    · rw [if_pos hkey, List.forall_mem_cons] at hcut
      have htold : told [l] = [readEntry l] := by rw [told_singleton, if_neg hignored]
      have hsame : toldInPieces l = told [l] := by
        refine hcut.1.resolve_right ?_
        rintro ⟨f, -, hf⟩
        rw [htold] at hf
        exact absurd (hkey.2.symm.trans hf) nofun
      rw [hsame, htold, List.singleton_append, List.singleton_append]
      -- the key is taken, and the loop goes on
      cases hentry : readEntry l with
      | ignored => exact absurd hentry hignored
      | noSecret | emptySecret =>
        rw [hentry] at hkey
        cases hkey.2
      | key keyId psk =>
        rw [hentry] at hkey
        have hshort : ¬ (authKeyIdMax ≤ keyId.length ∨ authPskMax ≤ psk.length) := fun hlong => by
          have hfault := hkey.2
          rw [fault, if_pos hlong] at hfault
          cases hfault
        rw [loadTold, loadTold, if_neg (Nat.not_le.mpr hkey.1), if_neg hshort,
          if_neg (Nat.not_le.mpr hkey.1), if_neg hshort]
        refine ih _ ?_
        rw [List.length_append, List.length_singleton]
        exact hcut.2
    · rw [if_neg hkey] at hcut
      exact (hcut l (List.mem_singleton_self l)).stops hignored hkey _ _

/-- The lines of a text tell the loop what the lines for keys say. -/
theorem told_lines {text : List UInt8} (hnul : ∀ l ∈ text.splitOn 0x0a, 0 ∉ l) :
    told (text.splitOn 0x0a) = (keyLines text).map readEntry := by
  rw [told, List.filter_map, keyLines]
  refine congrArg (List.map readEntry) (List.filter_congr fun l hl => ?_)
  rw [Function.comp_apply, Bool.eq_iff_iff]
  simp [readEntry_ignored_iff (hnul l hl)]

/-- The lines of a text have no byte that the text has not, and no newline. -/
theorem mem_of_mem_splitOn {text l : List UInt8} {c : UInt8} (hl : l ∈ text.splitOn 0x0a)
    (hc : c ∈ l) : c ∈ text ∧ c ≠ 0x0a := by
  induction text generalizing l with
  | nil =>
    rw [List.mem_singleton.mp hl] at hc
    cases hc
  | cons x text ih =>
    have hlater {l : List UInt8} (hl : l ∈ text.splitOn 0x0a) (hc : c ∈ l) :
        c ∈ x :: text ∧ c ≠ 0x0a :=
      (ih hl hc).imp_left (List.mem_cons_of_mem x)
    rw [splitOn_cons] at hl
    split_ifs at hl with hx
    · rcases List.mem_cons.mp hl with rfl | hl
      · cases hc
      · exact hlater hl hc
    · -- the byte belongs to the first line of the rest
      obtain ⟨first, others, htext⟩ := List.exists_cons_of_ne_nil
        (List.splitOnP_ne_nil (· == (0x0a : UInt8)) text)
      have htext : text.splitOn 0x0a = first :: others := htext
      rw [htext, List.modifyHead_cons] at hl
      rw [htext] at hlater
      rcases List.mem_cons.mp hl with rfl | hl
      · rcases List.mem_cons.mp hc with rfl | hc
        · exact ⟨List.mem_cons_self .., hx⟩
        · exact hlater (List.mem_cons_self ..) hc
      · exact hlater (List.mem_cons_of_mem first hl) hc

/-! ## Keys -/

/-- A key line is read as its key. -/
theorem IsKeyLine.entry {k : Key} (h : IsKeyLine l k) (hnul : 0 ∉ l) :
    readEntry l = .key k.keyId k.psk := readEntry_pair h.pair hnul

/-- A line for a key is one, or stops the loop. -/
theorem keyLine_cases (hnul : 0 ∉ l) (hl : isIgnored l = false) :
    (∃ k, IsKeyLine l k) ∨ ((¬ ∃ k, IsKeyLine l k) ∧ ∀ es keys, keys.length < authMaxKeys →
      loadTold (readEntry l :: es) keys = none) := by
  rcases line_shape l with hblank | hcomment | hword | ⟨w, p, hpair⟩
  · exact nomatch hl.symm.trans ((readEntry_ignored_iff hnul).mp (readEntry_blank hblank))
  · exact nomatch hl.symm.trans ((readEntry_ignored_iff hnul).mp (readEntry_comment hcomment))
  · have hentry := readEntry_word hword hnul
    refine .inr ⟨fun ⟨k, hk⟩ => ?_, fun es keys _ => by rw [hentry]; rfl⟩
    exact nomatch hentry.symm.trans (readEntry_pair hk.pair hnul)
  · have hentry := readEntry_pair hpair hnul
    by_cases hlong : authKeyIdMax ≤ w.length ∨ authPskMax ≤ p.length
    · refine .inr ⟨fun ⟨k, hk⟩ => ?_, fun es keys hroom => ?_⟩
      · -- the word and the secret of a line are determined by it
        obtain ⟨rfl, rfl⟩ := Entry.key.inj (hentry.symm.trans (readEntry_pair hk.pair hnul))
        rcases hlong with hlong | hlong
        · exact absurd hk.keyId (Nat.not_lt.mpr hlong)
        · exact absurd hk.psk (Nat.not_lt.mpr hlong)
      · rw [hentry, loadTold, if_neg (Nat.not_le.mpr hroom), if_pos hlong]
    · rw [not_or, Nat.not_le, Nat.not_le] at hlong
      exact .inl ⟨⟨w, p⟩, hpair, hlong.1, hlong.2⟩

/-- A key is taken as long as there is room. -/
theorem loadTold_key {k : Key} (h : IsKeyLine l k) (hnul : 0 ∉ l) (es : List Entry) {keys : List Key}
    (hroom : keys.length < authMaxKeys) :
    loadTold (readEntry l :: es) keys = loadTold es (keys ++ [k]) := by
  rw [h.entry hnul, loadTold, if_neg (Nat.not_le.mpr hroom), if_neg]
  exact not_or.mpr ⟨Nat.not_le.mpr h.keyId, Nat.not_le.mpr h.psk⟩

/-- When there is no room for a key, none is taken. -/
theorem loadTold_full {es : List Entry} {keys res : List Key} (hfull : authMaxKeys ≤ keys.length)
    (hres : loadTold es keys = some res) : res = keys := by
  induction es with
  | nil => exact (Option.some.inj hres).symm
  | cons e es ih =>
    cases e with
    | ignored => exact ih hres
    | noSecret | emptySecret => cases hres
    | key keyId psk =>
      rw [loadTold, if_pos hfull] at hres
      exact (Option.some.inj hres).symm

section
variable {L : List (List UInt8)}

/-- Lines that all hold keys. -/
theorem loadTold_keys (hnul : ∀ l ∈ L, 0 ∉ l) {ks : List Key} (hks : List.Forall₂ IsKeyLine L ks)
    (keys : List Key) (hkeys : keys.length ≤ authMaxKeys) :
    loadTold (L.map readEntry) keys = some (keys ++ ks.take (authMaxKeys - keys.length)) := by
  induction hks generalizing keys with
  | nil => rw [List.take_nil, List.append_nil]; rfl
  | @cons l k L ks hl hks ih =>
    obtain ⟨hl₀, hL⟩ := List.forall_mem_cons.mp hnul
    rw [List.map_cons]
    rcases Nat.lt_or_eq_of_le hkeys with hroom | hfull
    · have hlength : (keys ++ [k]).length = keys.length + 1 := List.length_append
      rw [loadTold_key hl hl₀ _ hroom, ih hL _ (by rw [hlength]; exact hroom), hlength,
        List.append_assoc, show authMaxKeys - keys.length = authMaxKeys - (keys.length + 1) + 1 by omega,
        List.take_succ_cons]
      rfl
    · rw [hl.entry hl₀, loadTold, if_pos hfull.ge, hfull, Nat.sub_self, List.take_zero,
        List.append_nil]

/-- What the loop has taken are the keys of the first lines. -/
theorem loadTold_some (hnul : ∀ l ∈ L, 0 ∉ l) (hignored : ∀ l ∈ L, isIgnored l = false)
    {keys res : List Key} (hres : loadTold (L.map readEntry) keys = some res) :
    ∃ ks, res = keys ++ ks ∧ List.Forall₂ IsKeyLine (L.take (authMaxKeys - keys.length)) ks := by
  induction L generalizing keys with
  | nil =>
    obtain rfl := Option.some.inj hres
    exact ⟨[], (List.append_nil _).symm, by rw [List.take_nil]; exact .nil⟩
  | cons l L ih =>
    obtain ⟨hl₀, hL⟩ := List.forall_mem_cons.mp hnul
    obtain ⟨hl, hL'⟩ := List.forall_mem_cons.mp hignored
    rw [List.map_cons] at hres
    by_cases hroom : keys.length < authMaxKeys
    · rcases keyLine_cases hl₀ hl with ⟨k, hk⟩ | ⟨-, hstop⟩
      · rw [loadTold_key hk hl₀ _ hroom] at hres
        obtain ⟨ks, rfl, hks⟩ := ih hL hL' hres
        refine ⟨k :: ks, by rw [List.append_assoc]; rfl, ?_⟩
        rw [List.length_append, List.length_singleton] at hks
        rw [show authMaxKeys - keys.length = authMaxKeys - (keys.length + 1) + 1 by omega,
          List.take_succ_cons]
        exact .cons hk hks
      · rw [hstop _ keys hroom] at hres
        cases hres
    · have hfull : authMaxKeys ≤ keys.length := Nat.le_of_not_lt hroom
      refine ⟨[], by rw [loadTold_full hfull hres, List.append_nil], ?_⟩
      rw [Nat.sub_eq_zero_of_le hfull, List.take_zero]
      exact .nil

end

/-! ## The file -/

/-- The lines that are read are lines of the file. -/
theorem mem_of_mem_linesRead {n : ℕ} {ls : List (List UInt8)} (h : l ∈ linesRead n ls) : l ∈ ls := by
  induction ls generalizing n with
  | nil => cases h
  | cons l' ls ih =>
    rw [linesRead] at h
    split_ifs at h
    · rcases List.mem_cons.mp h with rfl | h
      · exact List.mem_cons_self ..
      · exact List.mem_cons_of_mem l' (ih h)
    · rcases List.mem_cons.mp h with rfl | h
      · exact List.mem_cons_self ..
      · exact List.mem_cons_of_mem l' (ih h)
    · rw [List.mem_singleton.mp h]
      exact List.mem_cons_self ..

/-- Where every line that is read fits the buffer or is cut without harm, the file is read as its
format says. -/
theorem readsFile_of_linesRead {text : List UInt8} (hnul : 0 ∉ text)
    (hlines : ∀ l ∈ linesRead 0 (text.splitOn 0x0a), l.length < lineSize ∨ CutWell l) :
    ReadsFile text (authKeyringLoad (.content text)) := by
  have hnul₀ : ∀ l ∈ text.splitOn 0x0a, 0 ∉ l := fun l hl h => hnul (mem_of_mem_splitOn hl h).1
  have hnul₁ : ∀ l ∈ keyLines text, 0 ∉ l := fun l hl => hnul₀ l (List.mem_of_mem_filter hl)
  have hignored : ∀ l ∈ keyLines text, isIgnored l = false := fun l hl => by
    simpa using List.of_mem_filter hl
  -- a line that fits one read is told as it is
  have hcut : ∀ l ∈ linesRead 0 (text.splitOn 0x0a), CutWell l := fun l hl =>
    (hlines l hl).elim
      (fun hfits => .inl (toldInPieces_of_fits
        (fun h => (mem_of_mem_splitOn (mem_of_mem_linesRead hl) h).2 rfl) hfits)) id
  -- so the file loads as the list of its lines does
  have hload : (authKeyringLoad (.content text)).toOption =
      loadTold ((keyLines text).map readEntry) [] := by
    rw [authKeyringLoad, loadLoop_toOption, told_fgetsAll, loadTold_pieces _ [] hcut,
      told_lines hnul₀]
  cases hres : authKeyringLoad (.content text) with
  | ok res =>
    rw [hres] at hload
    obtain ⟨ks, hks, hread⟩ := loadTold_some hnul₁ hignored hload.symm
    obtain rfl : res = ks := hks
    -- the keys that were loaded are those the lines mean
    refine ⟨fun ks hall => ?_, fun hfew hbad => ?_, fun ks' hks' => ?_⟩
    · have hkeys := loadTold_keys hnul₁ hall [] (Nat.zero_le _)
      exact congrArg Except.ok (Option.some.inj (hload.trans hkeys))
    · rw [List.length_nil, Nat.sub_zero, List.take_of_length_le hfew] at hread
      exact absurd ⟨_, hread⟩ hbad
    · obtain rfl := Except.ok.inj hks'
      exact hread
  | error e =>
    rw [hres] at hload
    refine ⟨fun ks hall => ?_, fun _ _ => ⟨e, rfl⟩, nofun⟩
    exact nomatch hload.trans (loadTold_keys hnul₁ hall [] (Nat.zero_le _))

/-- A comment that is longer than a piece by one byte, which is a word of its own. -/
def longComment : List UInt8 := 0x23 :: List.replicate 334 0x61 ++ [0x62]

/-- The end of the comment is taken for a bad line. -/
theorem longComment_misread : ¬ ReadsFile longComment (authKeyringLoad (.content longComment)) := by
  intro h
  have hlines : keyLines longComment = [] := by decide +kernel
  have hload : authKeyringLoad (.content longComment) = .error (.expected 2) := by decide +kernel
  have hkeys := h.keys [] (by rw [hlines]; exact .nil)
  rw [hload] at hkeys
  cases hkeys

/-- A file is read as its format says if every line that is read has at most 335 bytes or is cut
without harm. Files whose lines have at most `n` bytes are all read so if and only if such a line
fits the buffer. -/
theorem key_file_read_by_lines (text : List UInt8) (n : ℕ) :
    (0 ∉ text → (∀ l ∈ linesRead 0 (text.splitOn 0x0a), l.length < lineSize ∨ CutWell l) →
      ReadsFile text (authKeyringLoad (.content text))) ∧
    ((∀ text' : List UInt8, 0 ∉ text' → (∀ l ∈ text'.splitOn 0x0a, l.length ≤ n) →
      ReadsFile text' (authKeyringLoad (.content text'))) ↔ n < lineSize) := by
  refine ⟨fun hnul hlines => readsFile_of_linesRead hnul hlines, fun h => ?_, ?_⟩
  · by_contra hn
    have hlines : ∀ l ∈ longComment.splitOn 0x0a, l.length ≤ lineSize := by decide +kernel
    exact longComment_misread (h longComment (by decide +kernel) fun l hl =>
      (hlines l hl).trans (Nat.le_of_not_lt hn))
  · intro hn text' hnul hlines
    exact readsFile_of_linesRead hnul fun l hl =>
      .inl ((hlines l (mem_of_mem_linesRead hl)).trans_lt hn)

/-- A rule of 400 `#`, and a key. -/
def ruledFile : List UInt8 := List.replicate 400 0x23 ++ bytes "\nradio secret\n"

/-- Both pieces of the rule are comments, so the file is read as its format says. -/
theorem key_file_read_ruled :
    ReadsFile ruledFile (authKeyringLoad (.content ruledFile)) ∧
      authKeyringLoad (.content ruledFile) = .ok [⟨bytes "radio", bytes "secret"⟩] := by
  have hlines : ∀ l ∈ linesRead 0 (ruledFile.splitOn 0x0a),
      l.length < lineSize ∨ toldInPieces l = told [l] := by decide +kernel
  exact ⟨(key_file_read_by_lines ruledFile 0).1 (by decide +kernel)
    fun l hl => (hlines l hl).imp_right .inl, by decide +kernel⟩

/-- A comment, and in the piece after the first two words more. -/
def smuggled : List UInt8 :=
  0x23 :: List.replicate 334 0x61 ++ bytes "intruder secret\n"

/-- The end of a comment becomes a key. -/
theorem comment_becomes_key :
    authKeyringLoad (.content smuggled) = .ok [⟨bytes "intruder", bytes "secret"⟩] ∧
      ¬ ReadsFile smuggled (authKeyringLoad (.content smuggled)) := by
  have hload : authKeyringLoad (.content smuggled) = .ok [⟨bytes "intruder", bytes "secret"⟩] := by
    decide +kernel
  refine ⟨hload, fun h => ?_⟩
  have hlines : keyLines smuggled = [] := by decide +kernel
  have hkeys := h.keys [] (by rw [hlines]; exact .nil)
  rw [hload] at hkeys
  cases hkeys

end

end SlcRtld.Property
