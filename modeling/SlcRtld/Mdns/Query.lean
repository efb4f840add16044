import SlcRtld.Mdns.Packet

/-!
# Reading names

`dns_read_name` against the wire format. Where a name stands in a packet, each round of its loop
takes one label, follows one pointer or finds the end (`readNameLoop_label` and the like). The loop
makes 64 rounds at most, so that it reads the labels that are among the first 64 labels and pointers
of the name; it leaves the position behind the name when there were fewer labels than rounds, or
when it had followed a pointer before (`readNameLoop_spec`).
-/

namespace SlcRtld.Mdns

open Dns

/-- The last label of the name at a position is among its first `n` labels and pointers. -/
inductive Within (pkt : List UInt8) : ℕ → ℕ → Prop where
  | rest {n p q : ℕ} (h : NameAt pkt p [] q) : Within pkt n p
  | label {n p : ℕ} {x : Label} (hne : x ≠ []) (hshort : x.length ≤ 63)
      (hlength : pkt[p]? = some x.length.toUInt8) (hrest : Within pkt n (p + 1 + x.length)) :
      Within pkt (n + 1) p
  | pointer {n p : ℕ} {hi lo : UInt8} (hhi : pkt[p]? = some hi) (hmark : 0xc0 ≤ hi)
      (hlo : pkt[p + 1]? = some lo) (hthere : Within pkt n ((hi.toNat - 0xc0) * 256 + lo.toNat)) :
      Within pkt (n + 1) p

/-- A label behind the labels that have been read. -/
def joinLabel (out x : CStr) : CStr := if out = [] then x else out ++ 0x2e :: x

/-- Labels behind the labels that have been read. -/
def joinOnto (out : CStr) (n : Name) : CStr := n.foldl joinLabel out

/-- The labels of a name, with dots between them. -/
def joined (n : Name) : CStr := [0x2e].intercalate n

section
variable {pkt : List UInt8} {cap guard p : ℕ} {pos : Option ℕ} {out : CStr}

/-! ## Bytes -/

/-- The two bits that mark a pointer. -/
theorem and_mark_iff (x : UInt8) : x &&& 0xc0 = 0xc0 ↔ 0xc0 ≤ x :=
  toNat_induction (P := fun x => x &&& 0xc0 = 0xc0 ↔ 0xc0 ≤ x) (by decide +kernel) x

/-- The offset of a pointer without its mark. -/
theorem and_offset (x : UInt8) : 0xc0 ≤ x → (x &&& 0x3f).toNat = x.toNat - 0xc0 :=
  toNat_induction (P := fun x => 0xc0 ≤ x → (x &&& 0x3f).toNat = x.toNat - 0xc0) (by decide +kernel) x

/-- Two bytes make a number. -/
theorem shiftLeft_or (n : ℕ) (lo : UInt8) : n <<< 8 ||| lo.toNat = n * 256 + lo.toNat := by
  have hlo : lo.toNat < 2 ^ 8 := lo.toNat_lt
  rw [← Nat.shiftLeft_add_eq_or_of_lt hlo, Nat.shiftLeft_eq]

/-! ## One round -/

/-- A byte that is there is inside the packet. -/
theorem lt_of_getElem? {x : UInt8} (h : pkt[p]? = some x) : ¬ pkt.length ≤ p :=
  Nat.not_le.mpr (List.getElem?_eq_some_iff.mp h).1

/-- A round at the root ends the name. -/
theorem readNameLoop_root (hzero : pkt[p]? = some 0) :
    readNameLoop pkt cap (guard + 1) p pos out = readNameEnd cap (pos.getD (p + 1)) out := by
  rw [readNameLoop, if_neg (lt_of_getElem? hzero), hzero]
  rfl

/-- A round at a pointer goes on where it points to. -/
theorem readNameLoop_pointer {hi lo : UInt8} (hhi : pkt[p]? = some hi) (hmark : 0xc0 ≤ hi)
    (hlo : pkt[p + 1]? = some lo) :
    readNameLoop pkt cap (guard + 1) p pos out =
      readNameLoop pkt cap guard ((hi.toNat - 0xc0) * 256 + lo.toNat) (some (pos.getD (p + 2))) out := by
  have hne : hi ≠ 0 := by
    rintro rfl
    exact absurd hmark (by decide)
  rw [readNameLoop, if_neg (lt_of_getElem? hhi), hhi]
  show (if hi = 0 then _ else _) = _
  rw [if_neg hne, if_pos ((and_mark_iff hi).mpr hmark), if_neg (lt_of_getElem? hlo), hlo]
  show readNameLoop pkt cap guard ((hi &&& 0x3f).toNat <<< 8 ||| lo.toNat) _ out = _
  rw [shiftLeft_or, and_offset hi hmark]

/-- A label that fits is copied behind the others. -/
theorem readNameLoop_copy {l : UInt8} (hl : pkt[p]? = some l) (hzero : l ≠ 0)
    (hmark : ¬ l &&& 0xc0 = 0xc0) (hfits : p + 1 + l.toNat ≤ pkt.length)
    (hcap : out.length + l.toNat + 2 ≤ cap) :
    readNameLoop pkt cap (guard + 1) p pos out = readNameLoop pkt cap guard (p + 1 + l.toNat) pos
      (joinLabel out ((pkt.drop (p + 1)).take l.toNat)) := by
  have hlength : ((pkt.drop (p + 1)).take l.toNat).length = l.toNat := by
    rw [List.length_take, List.length_drop]
    omega
  have hfetch : fetch pkt (p + 1) l.toNat = some ((pkt.drop (p + 1)).take l.toNat) := if_pos hfits
  rw [readNameLoop, if_neg (lt_of_getElem? hl), hl]
  show (if l = 0 then _ else _) = _
  rw [if_neg hzero, if_neg hmark, if_neg (Nat.not_lt.mpr hfits), if_neg (Nat.not_lt.mpr hcap), hfetch,
    joinLabel]
  generalize (pkt.drop (p + 1)).take l.toNat = x at hlength
  by_cases hout : out = []
  · rw [if_pos hout, if_pos hout, hout]
    show (store cap [] x).bind _ = _
    rw [store, if_pos (by simp only [List.length_nil]; omega)]
    rfl
  · have hdot : store cap out [0x2e] = some (out ++ [0x2e]) :=
      if_pos (by simp only [List.length_singleton]; omega)
    have hlabel : store cap (out ++ [0x2e]) x = some (out ++ 0x2e :: x) := by
      rw [store, if_pos (by simp only [List.length_append, List.length_singleton]; omega),
        List.append_assoc]
      rfl
    rw [if_neg hout, if_neg hout, hdot]
    show (store cap (out ++ [0x2e]) x).bind _ = _
    rw [hlabel]
    rfl

/-- A round at a label appends it, or refuses the name if there is no room. -/
theorem readNameLoop_label {x : Label} (hne : x ≠ []) (hshort : x.length ≤ 63)
    (hlength : pkt[p]? = some x.length.toUInt8) (hbytes : Has pkt (p + 1) x) :
    readNameLoop pkt cap (guard + 1) p pos out =
      if cap < out.length + x.length + 2 then some none
      else readNameLoop pkt cap guard (p + 1 + x.length) pos (joinLabel out x) := by
  obtain ⟨hzero, hmark⟩ := length_byte hne hshort
  have hfits := hbytes.fits hne
  have hnat : x.length.toUInt8.toNat = x.length := toUInt8_toNat (by omega)
  by_cases hcap : cap < out.length + x.length + 2
  · rw [if_pos hcap, readNameLoop, if_neg (lt_of_getElem? hlength), hlength]
    show (if x.length.toUInt8 = 0 then _ else _) = _
    rw [if_neg hzero, if_neg (mt (and_mark_iff _).mp hmark), hnat, if_neg (by omega), if_pos hcap]
  · rw [if_neg hcap, readNameLoop_copy hlength hzero (mt (and_mark_iff _).mp hmark)
      (by rw [hnat]; exact hfits) (by rw [hnat]; omega), hnat, ← List.prefix_iff_eq_take.mp hbytes]

/-! ## A whole name -/

/-- What stands at a position decides which rounds there are. -/
theorem within_label_iff {x : Label} {rest : Name} {q n : ℕ} (hne : x ≠ []) (hshort : x.length ≤ 63)
    (hlength : pkt[p]? = some x.length.toUInt8) (h : NameAt pkt p (x :: rest) q) :
    Within pkt (n + 1) p ↔ Within pkt n (p + 1 + x.length) := by
  refine ⟨fun hwithin => ?_, .label hne hshort hlength⟩
  cases hwithin with
  | rest hrest => exact absurd (h.unique hrest).1 (List.cons_ne_nil _ _)
  | @label _ _ x' _ _ hlength' hrest =>
    have hsame := congrArg UInt8.toNat (Option.some.inj (hlength.symm.trans hlength'))
    rw [toUInt8_toNat (by omega), toUInt8_toNat (by omega)] at hsame
    rwa [hsame]
  | pointer hhi hmark =>
    rw [Option.some.inj (hhi.symm.trans hlength)] at hmark
    exact absurd hmark (length_byte hne hshort).2

/-- A pointer is one step on the way. -/
theorem within_pointer_iff {hi lo : UInt8} {name : Name} {q n : ℕ} (hhi : pkt[p]? = some hi)
    (hmark : 0xc0 ≤ hi) (hlo : pkt[p + 1]? = some lo)
    (hthere : NameAt pkt ((hi.toNat - 0xc0) * 256 + lo.toNat) name q) (h : NameAt pkt p name (p + 2)) :
    Within pkt (n + 1) p ↔ Within pkt n ((hi.toNat - 0xc0) * 256 + lo.toNat) := by
  refine ⟨fun hwithin => ?_, .pointer hhi hmark hlo⟩
  cases hwithin with
  | rest hrest =>
    obtain rfl := (h.unique hrest).1
    exact .rest hthere
  | label hne hshort hlength =>
    rw [Option.some.inj (hhi.symm.trans hlength)] at hmark
    exact absurd hmark (length_byte hne hshort).2
  | pointer hhi' _ hlo' hrest =>
    obtain rfl := Option.some.inj (hhi.symm.trans hhi')
    obtain rfl := Option.some.inj (hlo.symm.trans hlo')
    exact hrest

/-- Without rounds only a name without labels is read. -/
theorem within_zero_iff {n : Name} {q : ℕ} (h : NameAt pkt p n q) : Within pkt 0 p ↔ n = [] := by
  constructor
  · rintro ⟨hrest⟩
    exact (h.unique hrest).1
  · rintro rfl
    exact .rest h

/-- A name that is not refused has ended here. -/
theorem readNameEnd_some {cap pos : ℕ} {out : CStr} {res : CStr × ℕ}
    (h : readNameEnd cap pos out = some (some res)) : res = (out, pos) := by
  obtain ⟨_, _, h⟩ := Option.bind_eq_some_iff.mp h
  exact (Option.some.inj (Option.some.inj h)).symm

/-- When the rounds are used up, then only a pointer has settled the position. -/
theorem stopped_pos {p q : ℕ} (h : 0 < 0 ∨ pos.isSome) : pos.getD p = pos.getD q := by
  cases pos with
  | none =>
    rcases h with h | h
    · exact absurd h (Nat.lt_irrefl 0)
    · cases h
  | some s => rfl

/-- What the loop reads of a name: the labels among the first labels and pointers. -/
theorem readNameLoop_spec {n : Name} {q : ℕ} (h : NameAt pkt p n q) {res : CStr × ℕ}
    (hread : readNameLoop pkt cap guard p pos out = some (some res)) :
    ∃ j ≤ n.length, res.1 = joinOnto out (n.take j) ∧ (j = n.length ↔ Within pkt guard p) ∧
      (j < guard ∨ pos.isSome → res.2 = pos.getD q) := by
  -- the induction is on the way through the name, with the guard, the return position and the text
  -- so far
  induction h generalizing guard pos out with
  | @root p hzero =>
    refine ⟨0, Nat.le_refl _, ?_⟩
    have hwithin : 0 = ([] : Name).length ↔ Within pkt guard p :=
      ⟨fun _ => .rest (.root hzero), fun _ => rfl⟩
    cases guard with
    | zero =>
      obtain rfl := readNameEnd_some hread
      exact ⟨rfl, hwithin, stopped_pos⟩
    | succ guard =>
      rw [readNameLoop_root hzero] at hread
      obtain rfl := readNameEnd_some hread
      exact ⟨rfl, hwithin, fun _ => rfl⟩
  | @label p q x rest hne hshort hlength hbytes hrest ih =>
    have hname := NameAt.label hne hshort hlength hbytes hrest
    cases guard with
    | zero =>
      -- no round is left, and the name is cut here
      obtain rfl := readNameEnd_some hread
      refine ⟨0, Nat.zero_le _, rfl, ?_, stopped_pos⟩
      rw [within_zero_iff hname]
      exact ⟨nofun, nofun⟩
    | succ guard =>
      rw [readNameLoop_label hne hshort hlength hbytes] at hread
      -- there is room for the label, since the name has been read
      by_cases hcap : cap < out.length + x.length + 2
      · rw [if_pos hcap] at hread
        cases hread
      rw [if_neg hcap] at hread
      obtain ⟨j, hj, hout, hwithin, hpos⟩ := ih hread
      refine ⟨j + 1, Nat.succ_le_succ hj, hout, ?_, fun h => hpos (h.imp_left Nat.lt_of_succ_lt_succ)⟩
      rw [within_label_iff hne hshort hlength hname, ← hwithin, List.length_cons, Nat.succ_inj]
  | @pointer p q hi lo name hhi hmark hlo hback hthere ih =>
    have hname := NameAt.pointer hhi hmark hlo hback hthere
    cases guard with
    | zero =>
      obtain rfl := readNameEnd_some hread
      refine ⟨0, Nat.zero_le _, rfl, ?_, stopped_pos⟩
      rw [within_zero_iff hname]
      exact ⟨fun h => List.length_eq_zero_iff.mp h.symm, fun h => h ▸ rfl⟩
    | succ guard =>
      rw [readNameLoop_pointer hhi hmark hlo] at hread
      obtain ⟨j, hj, hout, hwithin, hpos⟩ := ih hread
      refine ⟨j, hj, hout, ?_, fun _ => hpos (.inr rfl)⟩
      rw [within_pointer_iff hhi hmark hlo hthere hname, hwithin]

/-- The name fits the buffer when it is written in full. -/
theorem readNameLoop_isSome {n : Name} {q : ℕ} (h : NameAt pkt p n q)
    (hcap : out.length + n.octets < cap) :
    ∃ res, readNameLoop pkt cap guard p pos out = some (some res) := by
  -- at the end only the terminating zero needs room
  have hend : ∀ pos out, out.length + 1 ≤ cap →
      ∃ res, readNameEnd cap pos out = some (some res) := by
    intro pos out hroom
    refine ⟨(out, pos), ?_⟩
    rw [readNameEnd, store, List.length_singleton, if_pos hroom]
    rfl
  induction h generalizing guard pos out with
  | root hzero =>
    have hroom : out.length + 1 ≤ cap := Nat.le_of_lt hcap
    cases guard with
    | zero => exact hend _ _ hroom
    | succ guard =>
      rw [readNameLoop_root hzero]
      exact hend _ _ hroom
  -- the octets count the dot that joins the label, or the zero that ends the name
  | @label p q x rest hne hshort hlength hbytes hrest ih =>
    have hoctets : Name.octets (x :: rest) = x.length + 1 + Name.octets rest := by
      simp only [Name.octets, nameBytes, List.flatMap_cons, List.length_append, List.length_cons]
      omega
    have hone : 1 ≤ Name.octets rest := by simp [Name.octets, nameBytes]
    rw [hoctets] at hcap
    cases guard with
    | zero => exact hend _ _ (by omega)
    | succ guard =>
      rw [readNameLoop_label hne hshort hlength hbytes, if_neg (by omega)]
      refine ih ?_
      unfold joinLabel
      split_ifs
      · omega
      · rw [List.length_append, List.length_cons]
        omega
  -- a pointer copies nothing
  | pointer hhi hmark hlo hback hthere ih =>
    cases guard with
    | zero => exact hend _ _ (by omega)
    | succ guard =>
      rw [readNameLoop_pointer hhi hmark hlo]
      exact ih hcap

/-- A looser bound. -/
theorem Within.mono {n m : ℕ} (h : Within pkt n p) (hle : n ≤ m) : Within pkt m p := by
  induction h generalizing m with
  | rest hrest => exact .rest hrest
  | label hne hshort hlength _ ih =>
    cases m with
    | zero => exact absurd hle (Nat.not_succ_le_zero _)
    | succ m => exact .label hne hshort hlength (ih (Nat.le_of_succ_le_succ hle))
  | pointer hhi hmark hlo _ ih =>
    cases m with
    | zero => exact absurd hle (Nat.not_succ_le_zero _)
    | succ m => exact .pointer hhi hmark hlo (ih (Nat.le_of_succ_le_succ hle))

/-- A name that is written in full has no pointers. -/
theorem within_of_bytes {n : Name} (hn : Name.Valid n) (h : Has pkt p (nameBytes n)) :
    Within pkt n.length p := by
  induction n generalizing p with
  | nil => exact .rest (nameAt_of_bytes hn h)
  | cons x rest ih =>
    obtain ⟨⟨hne, hshort⟩, hrest⟩ := List.forall_mem_cons.mp hn
    have hbytes : nameBytes (x :: rest) = x.length.toUInt8 :: (x ++ nameBytes rest) := by
      simp [nameBytes]
    rw [hbytes] at h
    obtain ⟨hlength, h⟩ := has_cons.mp h
    exact .label hne hshort hlength (ih hrest (has_append.mp h).2)

/-- A pointer is one more on the way to the last label. -/
theorem within_of_pointer {off n : ℕ} (hreach : off < 0x4000)
    (h : Has pkt p [(0xc0 + off / 256).toUInt8, (off % 256).toUInt8]) (hthere : Within pkt n off) :
    Within pkt (n + 1) p := by
  obtain ⟨hi, lo, hhi, hmark, hlo, rfl⟩ := pointer_bytes hreach h
  exact .pointer hhi hmark hlo hthere

/-- There are no more labels than steps. -/
theorem Within.length_le {n : Name} {q m : ℕ} (hwithin : Within pkt m p) (h : NameAt pkt p n q) :
    n.length ≤ m := by
  induction h generalizing m with
  | root => exact Nat.zero_le m
  | label hne hshort hlength hbytes hrest ih =>
    have hname := NameAt.label hne hshort hlength hbytes hrest
    cases m with
    | zero => exact absurd ((within_zero_iff hname).mp hwithin) (List.cons_ne_nil _ _)
    | succ m => exact Nat.succ_le_succ (ih ((within_label_iff hne hshort hlength hname).mp hwithin))
  | pointer hhi hmark hlo hback hthere ih =>
    have hname := NameAt.pointer hhi hmark hlo hback hthere
    cases m with
    | zero =>
      rw [(within_zero_iff hname).mp hwithin]
      exact Nat.le_refl 0
    | succ m =>
      exact Nat.le_succ_of_le (ih ((within_pointer_iff hhi hmark hlo hthere hname).mp hwithin))

/-! ## Names and texts -/

/-- Behind other labels each label comes with a dot. -/
theorem joinOnto_of_ne_nil (hout : out ≠ []) (n : Name) :
    joinOnto out n = out ++ n.flatMap (fun x => 0x2e :: x) := by
  induction n generalizing out with
  | nil => exact (List.append_nil out).symm
  | cons x rest ih =>
    have hjoin : joinLabel out x = out ++ 0x2e :: x := if_neg hout
    have hne : out ++ 0x2e :: x ≠ [] := List.append_ne_nil_of_right_ne_nil _ (List.cons_ne_nil _ _)
    calc joinOnto out (x :: rest) = joinOnto (out ++ 0x2e :: x) rest := by rw [← hjoin]; rfl
      _ = out ++ (x :: rest).flatMap (fun x => 0x2e :: x) := by
        rw [ih hne, List.flatMap_cons, List.append_assoc]

/-- The first label comes without a dot. -/
theorem joined_cons (x : Label) (rest : Name) :
    joined (x :: rest) = x ++ rest.flatMap (fun x => 0x2e :: x) := by
  induction rest generalizing x with
  | nil => simp [joined]
  | cons y rest ih =>
    have hstep : joined (x :: y :: rest) = x ++ 0x2e :: joined (y :: rest) := by
      simp [joined, List.intercalate, List.intersperse]
    rw [hstep, ih, List.flatMap_cons]
    rfl

/-- What the loop has put together is the name. -/
theorem joinOnto_nil {n : Name} (hn : Name.Valid n) : joinOnto [] n = joined n := by
  cases n with
  | nil => rfl
  | cons x rest =>
    have hx := (List.forall_mem_cons.mp hn).1.1
    rw [joined_cons, ← joinOnto_of_ne_nil hx]
    rfl

/-- A name whose last label is early enough is read, and so is what follows it: of the 64 rounds one
is left for the end, or one has followed a pointer. -/
theorem dnsReadName_eq {n : Name} {q : ℕ} (h : NameAt pkt p n q) (hshort : n.octets ≤ 255)
    (hwithin : Within pkt 64 p) (hfew : n.length ≤ 63) :
    dnsReadName pkt p 256 = some (some (joined n, q)) := by
  have hcap : ([] : CStr).length + n.octets < 256 := by
    rw [List.length_nil]
    omega
  have hsome : ∃ res, readNameLoop pkt 256 64 p none [] = some (some res) := readNameLoop_isSome h hcap
  obtain ⟨⟨name, pos⟩, hread⟩ := hsome
  obtain ⟨j, -, hname, hj, hpos⟩ := readNameLoop_spec h hread
  have hall := hj.mpr hwithin
  rw [hall, List.take_length, joinOnto_nil h.valid] at hname
  have hpos := hpos (.inl (by omega))
  rw [dnsReadName, hread]
  exact congrArg (some ∘ some) (Prod.ext hname hpos)

end

end SlcRtld.Mdns
