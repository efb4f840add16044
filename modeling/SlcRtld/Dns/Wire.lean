import Mathlib.Data.List.Basic
import Mathlib.Order.Basic

/-!
# Domain names on the wire

The format of DNS messages (RFC 1035, section 4.1) as relations: what stands at a position of a
packet, and the position after it. A name is a list of labels; it stands in a packet as its labels,
up to a zero or up to a pointer to an earlier name. Each relation determines what stands there and
where it ends (`NameAt.unique`, `Sections.unique`), so that a packet decodes in at most one way.

`Has` says that a packet has given bytes at a position; what an encoder has written is found again
by splitting it (`has_append`).
-/

namespace SlcRtld.Dns

/-- A label, without its length. -/
abbrev Label := List UInt8

/-- A domain name, from its first label to the last one before the root. -/
abbrev Name := List Label

variable {pkt : List UInt8}

/-! ## Bytes at a position -/

/-- The packet has these bytes at a position. -/
def Has (pkt : List UInt8) (p : ℕ) (bs : List UInt8) : Prop := bs <+: pkt.drop p

/-- A number of two bytes. -/
def u16At (pkt : List UInt8) (p : ℕ) : Option ℕ := do
  let hi ← pkt[p]?
  let lo ← pkt[p + 1]?
  return hi.toNat * 256 + lo.toNat

/-- A number of four bytes. -/
def u32At (pkt : List UInt8) (p : ℕ) : Option ℕ := do
  let hi ← u16At pkt p
  let lo ← u16At pkt (p + 2)
  return hi * 65536 + lo

/-- The packet itself. -/
theorem has_self (pkt : List UInt8) : Has pkt 0 pkt := List.prefix_rfl

/-- One part after the other. -/
theorem has_append {p : ℕ} {a b : List UInt8} :
    Has pkt p (a ++ b) ↔ Has pkt p a ∧ Has pkt (p + a.length) b := by
  unfold Has
  constructor
  · intro h
    obtain ⟨t, ht⟩ := h
    refine ⟨⟨b ++ t, by rw [← ht, List.append_assoc]⟩, ⟨t, ?_⟩⟩
    rw [← List.drop_drop, ← ht, List.append_assoc, List.drop_left]
  · rintro ⟨⟨s, hs⟩, ⟨t, ht⟩⟩
    rw [← List.drop_drop, ← hs, List.drop_left] at ht
    exact ⟨t, by rw [← hs, ← ht, List.append_assoc]⟩

/-- Byte by byte. -/
theorem has_cons {p : ℕ} {x : UInt8} {xs : List UInt8} :
    Has pkt p (x :: xs) ↔ pkt[p]? = some x ∧ Has pkt (p + 1) xs := by
  rw [Has, Has, ← List.head?_drop, ← List.tail_drop]
  cases pkt.drop p with
  | nil => simp
  | cons y ys => simp [List.cons_prefix_cons, eq_comm]

/-- The bytes at a position, when there are enough. -/
theorem Has.unique {p : ℕ} {a b : List UInt8} (ha : Has pkt p a) (hb : Has pkt p b)
    (hlength : a.length = b.length) : a = b :=
  (List.prefix_of_prefix_length_le ha hb (Nat.le_of_eq hlength)).eq_of_length hlength

/-- What is there is inside the packet. -/
theorem Has.fits {p : ℕ} {a : List UInt8} (ha : Has pkt p a) (hne : a ≠ []) :
    p + a.length ≤ pkt.length := by
  have hle := List.IsPrefix.length_le ha
  have hpos := List.length_pos_of_ne_nil hne
  rw [List.length_drop] at hle
  omega

/-! ## Names -/

/-- A name stands at a position, and the position after it. A pointer ends it; what it points to is
earlier in the packet. -/
inductive NameAt (pkt : List UInt8) : ℕ → Name → ℕ → Prop where
  | root {p : ℕ} (hzero : pkt[p]? = some 0) : NameAt pkt p [] (p + 1)
  | label {p q : ℕ} {x : Label} {rest : Name} (hne : x ≠ []) (hshort : x.length ≤ 63)
      (hlength : pkt[p]? = some x.length.toUInt8) (hbytes : Has pkt (p + 1) x)
      (hrest : NameAt pkt (p + 1 + x.length) rest q) : NameAt pkt p (x :: rest) q
  | pointer {p q : ℕ} {hi lo : UInt8} {name : Name} (hhi : pkt[p]? = some hi) (hmark : 0xc0 ≤ hi)
      (hlo : pkt[p + 1]? = some lo) (hback : (hi.toNat - 0xc0) * 256 + lo.toNat < p)
      (hthere : NameAt pkt ((hi.toNat - 0xc0) * 256 + lo.toNat) name q) : NameAt pkt p name (p + 2)

/-- The bytes of a name that is written in full. -/
def nameBytes (n : Name) : List UInt8 := n.flatMap (fun x => x.length.toUInt8 :: x) ++ [0]

/-- The labels of a name can be written. -/
def Name.Valid (n : Name) : Prop := ∀ x ∈ n, x ≠ [] ∧ x.length ≤ 63

/-- The number of octets that a name takes when it is written in full. -/
def Name.octets (n : Name) : ℕ := (nameBytes n).length

/-- A byte holds its number. -/
theorem toUInt8_toNat {n : ℕ} (h : n ≤ 255) : n.toUInt8.toNat = n := by
  rw [Nat.toUInt8, UInt8.toNat_ofNat']
  omega

/-- The length of a label is neither the end of a name nor a pointer. -/
theorem length_byte {x : Label} (hne : x ≠ []) (hshort : x.length ≤ 63) :
    x.length.toUInt8 ≠ 0 ∧ ¬ 0xc0 ≤ x.length.toUInt8 := by
  have hx : x.length.toUInt8.toNat = x.length := toUInt8_toNat (by omega)
  have hpos := List.length_pos_of_ne_nil hne
  constructor
  · intro hzero
    rw [hzero] at hx
    have hzero : (0 : UInt8).toNat = 0 := rfl
    omega
  · intro hmark
    have hmark : 0xc0 ≤ x.length.toUInt8.toNat := hmark
    omega

/-- What stands at a position is determined. -/
theorem NameAt.unique {p q q' : ℕ} {n n' : Name} (h : NameAt pkt p n q) (h' : NameAt pkt p n' q') :
    n = n' ∧ q = q' := by
  -- the first byte says which of the three forms the name has
  induction h generalizing n' q' with
  | root hzero =>
    cases h' with
    | root => exact ⟨rfl, rfl⟩
    | label hne hshort hlength =>
      exact absurd (Option.some.inj (hlength.symm.trans hzero)) (length_byte hne hshort).1
    | pointer hhi hmark =>
      rw [Option.some.inj (hhi.symm.trans hzero)] at hmark
      exact absurd hmark (by decide)
  | @label p q x rest hne hshort hlength hbytes _ ih =>
    cases h' with
    | root hzero =>
      exact absurd (Option.some.inj (hlength.symm.trans hzero)) (length_byte hne hshort).1
    | @label _ _ x' rest' hne' hshort' hlength' hbytes' hrest' =>
      have hsame := congrArg UInt8.toNat (Option.some.inj (hlength.symm.trans hlength'))
      rw [toUInt8_toNat (by omega), toUInt8_toNat (by omega)] at hsame
      obtain rfl := hbytes.unique hbytes' hsame
      obtain ⟨rfl, rfl⟩ := ih hrest'
      exact ⟨rfl, rfl⟩
    | pointer hhi hmark =>
      rw [Option.some.inj (hhi.symm.trans hlength)] at hmark
      exact absurd hmark (length_byte hne hshort).2
  | @pointer p q hi lo name hhi hmark hlo _ _ ih =>
    cases h' with
    | root hzero =>
      rw [Option.some.inj (hhi.symm.trans hzero)] at hmark
      exact absurd hmark (by decide)
    | label hne hshort hlength =>
      rw [Option.some.inj (hhi.symm.trans hlength)] at hmark
      exact absurd hmark (length_byte hne hshort).2
    | pointer hhi' _ hlo' _ hthere' =>
      obtain rfl := Option.some.inj (hhi.symm.trans hhi')
      obtain rfl := Option.some.inj (hlo.symm.trans hlo')
      exact ⟨(ih hthere').1, rfl⟩

/-- The labels that are read are labels of the protocol. The induction is on the way through the
name. -/
theorem NameAt.valid {p q : ℕ} {n : Name} (h : NameAt pkt p n q) : Name.Valid n := by
  induction h with
  | root => exact nofun
  | label hne hshort _ _ _ ih => exact List.forall_mem_cons.mpr ⟨⟨hne, hshort⟩, ih⟩
  | pointer _ _ _ _ _ ih => exact ih

/-- A name that is written in full is found again. -/
theorem nameAt_of_bytes {p : ℕ} {n : Name} (hn : Name.Valid n) (h : Has pkt p (nameBytes n)) :
    NameAt pkt p n (p + (nameBytes n).length) := by
  induction n generalizing p with
  | nil => exact .root (has_cons.mp h).1
  | cons x rest ih =>
    obtain ⟨⟨hne, hshort⟩, hrest⟩ := List.forall_mem_cons.mp hn
    have hbytes : nameBytes (x :: rest) = x.length.toUInt8 :: (x ++ nameBytes rest) := by
      simp [nameBytes]
    rw [hbytes] at h ⊢
    obtain ⟨hlength, h⟩ := has_cons.mp h
    obtain ⟨hx, h⟩ := has_append.mp h
    have hend : p + (x.length.toUInt8 :: (x ++ nameBytes rest)).length =
        p + 1 + x.length + (nameBytes rest).length := by
      rw [List.length_cons, List.length_append]
      omega
    rw [hend]
    exact .label hne hshort hlength hx (ih hrest h)

/-- The two bytes of a pointer hold the position that it leads to. -/
theorem pointer_bytes {p off : ℕ} (hreach : off < 0x4000)
    (h : Has pkt p [(0xc0 + off / 256).toUInt8, (off % 256).toUInt8]) :
    ∃ hi lo : UInt8, pkt[p]? = some hi ∧ 0xc0 ≤ hi ∧ pkt[p + 1]? = some lo ∧
      (hi.toNat - 0xc0) * 256 + lo.toNat = off := by
  obtain ⟨hhi, h⟩ := has_cons.mp h
  obtain ⟨hlo, -⟩ := has_cons.mp h
  have hhi' : (0xc0 + off / 256).toUInt8.toNat = 0xc0 + off / 256 := toUInt8_toNat (by omega)
  have hlo' : (off % 256).toUInt8.toNat = off % 256 := toUInt8_toNat (by omega)
  refine ⟨_, _, hhi, ?_, hlo, ?_⟩
  · show 0xc0 ≤ (0xc0 + off / 256).toUInt8.toNat
    omega
  · omega

/-- A name that has been written before is found again by a pointer to it. -/
theorem nameAt_of_pointer {p off q : ℕ} {n : Name} (hoff : off < p) (hreach : off < 0x4000)
    (h : Has pkt p [(0xc0 + off / 256).toUInt8, (off % 256).toUInt8]) (hthere : NameAt pkt off n q) :
    NameAt pkt p n (p + 2) := by
  obtain ⟨hi, lo, hhi, hmark, hlo, rfl⟩ := pointer_bytes hreach h
  exact .pointer hhi hmark hlo hoff hthere

/-! ## Sequences -/

/-- Things that stand one after the other. -/
inductive SeqAt {α : Type} (item : ℕ → α → ℕ → Prop) : ℕ → List α → ℕ → Prop where
  | nil {p : ℕ} : SeqAt item p [] p
  | cons {p q r : ℕ} {x : α} {xs : List α} (hx : item p x q) (hxs : SeqAt item q xs r) :
      SeqAt item p (x :: xs) r

section
variable {α : Type} {item : ℕ → α → ℕ → Prop}

/-- As many things as are asked for are determined. -/
theorem SeqAt.unique {p q q' : ℕ} {xs xs' : List α} (h : SeqAt item p xs q)
    (hitem : ∀ {p x q x' q'}, item p x q → item p x' q' → x = x' ∧ q = q') (h' : SeqAt item p xs' q')
    (hlength : xs.length = xs'.length) : xs = xs' ∧ q = q' := by
  induction h generalizing xs' with
  | nil =>
    cases h' with
    | nil => exact ⟨rfl, rfl⟩
    | cons => cases hlength
  | cons hx _ ih =>
    cases h' with
    | nil => cases hlength
    | cons hx' hxs' =>
      obtain ⟨rfl, rfl⟩ := hitem hx hx'
      obtain ⟨rfl, rfl⟩ := ih hxs' (Nat.succ.inj hlength)
      exact ⟨rfl, rfl⟩

/-- Another kind of item. -/
theorem SeqAt.imp {item' : ℕ → α → ℕ → Prop} {p q : ℕ} {xs : List α} (h : SeqAt item p xs q)
    (himp : ∀ {p x q}, item p x q → item' p x q) : SeqAt item' p xs q := by
  induction h with
  | nil => exact .nil
  | cons hx _ ih => exact .cons (himp hx) ih

/-- The end is not before the beginning. -/
theorem SeqAt.le {p q : ℕ} {xs : List α} (h : SeqAt item p xs q)
    (hitem : ∀ {p x q}, item p x q → p < q) : p ≤ q := by
  induction h with
  | nil => exact Nat.le_refl _
  | cons hx _ ih => exact Nat.le_trans (Nat.le_of_lt (hitem hx)) ih

/-- One item more. -/
theorem SeqAt.concat {p q r : ℕ} {xs : List α} {x : α} (h : SeqAt item p xs q) (hx : item q x r) :
    SeqAt item p (xs ++ [x]) r := by
  induction h with
  | nil => exact .cons hx .nil
  | cons hy _ ih => exact .cons hy (ih hx)

/-- The things that fill a range are determined. -/
theorem SeqAt.unique_of_end {p q : ℕ} {xs xs' : List α} (h : SeqAt item p xs q)
    (hitem : ∀ {p x q x' q'}, item p x q → item p x' q' → x = x' ∧ q = q')
    (hlt : ∀ {p x q}, item p x q → p < q) (h' : SeqAt item p xs' q) : xs = xs' := by
  induction h generalizing xs' with
  | nil =>
    cases h' with
    | nil => rfl
    | cons hx hxs => exact absurd (hxs.le hlt) (Nat.not_le.mpr (hlt hx))
  | cons hx hxs ih =>
    cases h' with
    | nil => exact absurd (hxs.le hlt) (Nat.not_le.mpr (hlt hx))
    | cons hx' hxs' =>
      obtain ⟨rfl, rfl⟩ := hitem hx hx'
      rw [ih hxs']

end

/-! ## Questions and records -/

/-- A question. -/
structure Question where
  name : Name
  type : ℕ
  cls : ℕ

/-- The data of a record, for the types that are known here. -/
inductive RData where
  | a (address : List UInt8)
  | ptr (name : Name)
  | txt (strings : List (List UInt8))
  | srv (priority weight port : ℕ) (target : Name)

/-- The code of a record's type. -/
def RData.type : RData → ℕ
  | .a _ => 1
  | .ptr _ => 12
  | .txt _ => 16
  | .srv .. => 33

/-- A record. -/
structure Record where
  owner : Name
  cls : ℕ
  ttl : ℕ
  rdata : RData

/-- A string with its length before it. -/
inductive StringAt (pkt : List UInt8) : ℕ → List UInt8 → ℕ → Prop where
  | intro {p : ℕ} {s : List UInt8} (hshort : s.length ≤ 255)
      (hlength : pkt[p]? = some s.length.toUInt8) (hbytes : Has pkt (p + 1) s) :
      StringAt pkt p s (p + 1 + s.length)

/-- The data of a record stands in a range. -/
inductive RDataAt (pkt : List UInt8) : ℕ → RData → ℕ → Prop where
  | a {p : ℕ} {address : List UInt8} (hlength : address.length = 4) (h : Has pkt p address) :
      RDataAt pkt p (.a address) (p + 4)
  | ptr {p q : ℕ} {name : Name} (h : NameAt pkt p name q) : RDataAt pkt p (.ptr name) q
  | txt {p q : ℕ} {strings : List (List UInt8)} (h : SeqAt (StringAt pkt) p strings q) :
      RDataAt pkt p (.txt strings) q
  | srv {p q priority weight port : ℕ} {target : Name} (hpriority : u16At pkt p = some priority)
      (hweight : u16At pkt (p + 2) = some weight) (hport : u16At pkt (p + 4) = some port)
      (htarget : NameAt pkt (p + 6) target q) : RDataAt pkt p (.srv priority weight port target) q

/-- A question stands at a position. -/
inductive QuestionAt (pkt : List UInt8) : ℕ → Question → ℕ → Prop where
  | intro {p q : ℕ} {x : Question} (hname : NameAt pkt p x.name q) (htype : u16At pkt q = some x.type)
      (hcls : u16At pkt (q + 2) = some x.cls) : QuestionAt pkt p x (q + 4)

/-- A record stands at a position. Its data ends where its length says. -/
inductive RecordAt (pkt : List UInt8) : ℕ → Record → ℕ → Prop where
  | intro {p q n : ℕ} {r : Record} (howner : NameAt pkt p r.owner q)
      (htype : u16At pkt q = some r.rdata.type) (hcls : u16At pkt (q + 2) = some r.cls)
      (httl : u32At pkt (q + 4) = some r.ttl) (hlength : u16At pkt (q + 8) = some n)
      (hrdata : RDataAt pkt (q + 10) r.rdata (q + 10 + n)) : RecordAt pkt p r (q + 10 + n)

/-- A string is read in one way. -/
theorem StringAt.unique {p q q' : ℕ} {s s' : List UInt8} (h : StringAt pkt p s q)
    (h' : StringAt pkt p s' q') : s = s' ∧ q = q' := by
  obtain ⟨hshort, hlength, hbytes⟩ := h
  obtain ⟨hshort', hlength', hbytes'⟩ := h'
  have hsame := congrArg UInt8.toNat (Option.some.inj (hlength.symm.trans hlength'))
  rw [toUInt8_toNat (by omega), toUInt8_toNat (by omega)] at hsame
  obtain rfl := hbytes.unique hbytes' hsame
  exact ⟨rfl, rfl⟩

/-- A string takes at least its length. -/
theorem StringAt.lt {p q : ℕ} {s : List UInt8} (h : StringAt pkt p s q) : p < q := by
  obtain ⟨-, -, -⟩ := h
  omega

/-- Data of a given type that fills a range is determined. -/
theorem RDataAt.unique {p q : ℕ} {x x' : RData} (h : RDataAt pkt p x q) (h' : RDataAt pkt p x' q)
    (htype : x.type = x'.type) : x = x' := by
  cases h with
  | a hlength hbytes =>
    cases h' with
    | a hlength' hbytes' => rw [hbytes.unique hbytes' (hlength.trans hlength'.symm)]
    | ptr | txt | srv => cases htype
  | ptr hname =>
    cases h' with
    | ptr hname' => rw [(hname.unique hname').1]
    | a | txt | srv => cases htype
  | txt hstrings =>
    cases h' with
    | txt hstrings' => rw [hstrings.unique_of_end StringAt.unique StringAt.lt hstrings']
    | a | ptr | srv => cases htype
  | srv hpriority hweight hport htarget =>
    cases h' with
    | srv hpriority' hweight' hport' htarget' =>
      obtain rfl := Option.some.inj (hpriority.symm.trans hpriority')
      obtain rfl := Option.some.inj (hweight.symm.trans hweight')
      obtain rfl := Option.some.inj (hport.symm.trans hport')
      rw [(htarget.unique htarget').1]
    | a | ptr | txt => cases htype

/-- A question is read in one way. -/
theorem QuestionAt.unique {p q q' : ℕ} {x x' : Question} (h : QuestionAt pkt p x q)
    (h' : QuestionAt pkt p x' q') : x = x' ∧ q = q' := by
  obtain ⟨hname, htype, hcls⟩ := h
  obtain ⟨hname', htype', hcls'⟩ := h'
  obtain ⟨hname, rfl⟩ := hname.unique hname'
  have htype := Option.some.inj (htype.symm.trans htype')
  have hcls := Option.some.inj (hcls.symm.trans hcls')
  cases x
  cases x'
  cases hname
  cases htype
  cases hcls
  exact ⟨rfl, rfl⟩

/-- A record is read in one way. -/
theorem RecordAt.unique {p q q' : ℕ} {r r' : Record} (h : RecordAt pkt p r q)
    (h' : RecordAt pkt p r' q') : r = r' ∧ q = q' := by
  obtain ⟨howner, htype, hcls, httl, hlength, hrdata⟩ := h
  obtain ⟨howner', htype', hcls', httl', hlength', hrdata'⟩ := h'
  obtain ⟨howner, rfl⟩ := howner.unique howner'
  obtain rfl := Option.some.inj (hlength.symm.trans hlength')
  have hrdata := hrdata.unique hrdata' (Option.some.inj (htype.symm.trans htype'))
  have hcls := Option.some.inj (hcls.symm.trans hcls')
  have httl := Option.some.inj (httl.symm.trans httl')
  cases r
  cases r'
  cases howner
  cases hcls
  cases httl
  cases hrdata
  exact ⟨rfl, rfl⟩

/-! ## Messages -/

/-- A message. -/
structure Message where
  id : ℕ
  flags : ℕ
  questions : List Question
  answers : List Record
  authority : List Record
  additional : List Record

/-- The packet is the message, and nothing else. -/
structure Decodes (pkt : List UInt8) (m : Message) : Prop where
  id : u16At pkt 0 = some m.id
  flags : u16At pkt 2 = some m.flags
  qdcount : u16At pkt 4 = some m.questions.length
  ancount : u16At pkt 6 = some m.answers.length
  nscount : u16At pkt 8 = some m.authority.length
  arcount : u16At pkt 10 = some m.additional.length
  sections : ∃ p₁ p₂ p₃, SeqAt (QuestionAt pkt) 12 m.questions p₁ ∧
    SeqAt (RecordAt pkt) p₁ m.answers p₂ ∧ SeqAt (RecordAt pkt) p₂ m.authority p₃ ∧
    SeqAt (RecordAt pkt) p₃ m.additional pkt.length

/-- A packet decodes in at most one way. -/
theorem Decodes.unique {m m' : Message} (h : Decodes pkt m) (h' : Decodes pkt m') : m = m' := by
  obtain ⟨p₁, p₂, p₃, hquestions, hanswers, hauthority, hadditional⟩ := h.sections
  obtain ⟨p₁', p₂', p₃', hquestions', hanswers', hauthority', hadditional'⟩ := h'.sections
  have hid := Option.some.inj (h.id.symm.trans h'.id)
  have hflags := Option.some.inj (h.flags.symm.trans h'.flags)
  obtain ⟨hquestions, rfl⟩ := hquestions.unique QuestionAt.unique hquestions'
    (Option.some.inj (h.qdcount.symm.trans h'.qdcount))
  obtain ⟨hanswers, rfl⟩ := hanswers.unique RecordAt.unique hanswers'
    (Option.some.inj (h.ancount.symm.trans h'.ancount))
  obtain ⟨hauthority, rfl⟩ := hauthority.unique RecordAt.unique hauthority'
    (Option.some.inj (h.nscount.symm.trans h'.nscount))
  obtain ⟨hadditional, -⟩ := hadditional.unique RecordAt.unique hadditional'
    (Option.some.inj (h.arcount.symm.trans h'.arcount))
  cases m
  cases m'
  cases hid
  cases hflags
  cases hquestions
  cases hanswers
  cases hauthority
  cases hadditional
  rfl

end SlcRtld.Dns
