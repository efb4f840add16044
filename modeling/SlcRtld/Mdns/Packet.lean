import SlcRtld.Dns.Wire
import SlcRtld.Mdns.Builtin

/-!
# What the builder writes

Each function of the packet builder appends bytes that do not depend on the packet, as long as the
packet does not overflow (`Extends`). The bytes of a record with its length patched in are
`recordBytes`.
-/

namespace SlcRtld.Mdns

open Dns

/-- `_sdr-slc._tcp.local`. -/
def serviceLabels : Name := [bytes "_sdr-slc", bytes "_tcp", bytes "local"]

/-- The labels of the service are labels of the protocol. -/
theorem serviceLabels_valid : Name.Valid serviceLabels :=
  (by decide : ∀ x ∈ serviceLabels, x ≠ [] ∧ x.length ≤ 63)

variable {d d' d'' : DNS} {a b : List UInt8}

/-- The bytes of a number of two bytes. -/
def u16Bytes (v : UInt16) : List UInt8 := [(v >>> 8).toUInt8, (v &&& 0xff).toUInt8]

/-- The bytes of a number of four bytes. -/
def u32Bytes (v : UInt32) : List UInt8 :=
  u16Bytes (v >>> 16).toUInt16 ++ u16Bytes (v &&& 0xffff).toUInt16

/-- When the packet has not overflown, then it has grown by these bytes. -/
structure Appended (d : DNS) (bs : List UInt8) (d' : DNS) : Prop where
  before : d.overflow = false
  buf : d'.buf = d.buf ++ bs
  fits : d.buf.length ≤ dnsBufSize → d'.buf.length ≤ dnsBufSize

/-- The packet grows by these bytes, or overflows. -/
def Extends (d : DNS) (bs : List UInt8) (d' : DNS) : Prop :=
  d'.overflow = false → Appended d bs d'

/-- Nothing is written. -/
theorem Extends.rfl : Extends d [] d := fun h => ⟨h, (List.append_nil _).symm, id⟩

/-- One after the other. -/
theorem Extends.trans (h : Extends d a d') (h' : Extends d' b d'') : Extends d (a ++ b) d'' := by
  intro hoverflow
  obtain ⟨hbefore, hbuf, hfits⟩ := h' hoverflow
  obtain ⟨hbefore', hbuf', hfits'⟩ := h hbefore
  exact ⟨hbefore', by rw [hbuf, hbuf', List.append_assoc], hfits ∘ hfits'⟩

/-- One byte is written, or the packet overflows. -/
theorem dnsPut8_extends (v : UInt8) (d : DNS) : Extends d [v] (dnsPut8 v d) := by
  intro hoverflow
  unfold dnsPut8 at hoverflow ⊢
  by_cases hroom : d.buf.length < dnsBufSize
  · rw [if_pos hroom] at hoverflow ⊢
    refine ⟨hoverflow, rfl, fun _ => ?_⟩
    rw [List.length_append]
    exact hroom
  · rw [if_neg hroom] at hoverflow
    cases hoverflow

/-- Two bytes, the high one first. -/
theorem dnsPut16_extends (v : UInt16) (d : DNS) : Extends d (u16Bytes v) (dnsPut16 v d) :=
  (dnsPut8_extends _ d).trans (dnsPut8_extends _ _)

/-- Four bytes, the high one first. -/
theorem dnsPut32_extends (v : UInt32) (d : DNS) : Extends d (u32Bytes v) (dnsPut32 v d) :=
  (dnsPut16_extends _ d).trans (dnsPut16_extends _ _)

/-- Several bytes. -/
theorem dnsPutAll_extends (vs : List UInt8) (d : DNS) : Extends d vs (dnsPutAll vs d) := by
  induction vs generalizing d with
  | nil => exact .rfl
  | cons v vs ih => exact (dnsPut8_extends v d).trans (ih _)

/-! ## Names -/

/-- A name as the builder takes it, with a dot behind each label. -/
def dotted (n : Name) : CStr := n.flatMap fun x => x ++ [0x2e]

/-- A label, a dot, and the rest. -/
theorem dotted_cons (x : Label) (rest : Name) : dotted (x :: rest) = x ++ 0x2e :: dotted rest := by
  simp [dotted]

/-- A label that a dotted name gives back. -/
def Undotted (x : Label) : Prop := (0x2e : UInt8) ∉ x

/-- Whether a label has a dot is decided byte by byte. -/
instance (x : Label) : Decidable (Undotted x) := inferInstanceAs (Decidable (_ ∉ _))

/-- The bytes up to the next dot are one label. -/
theorem dnsNameLoop_label (label x : Label) (rest : CStr) (hx : Undotted x) (d : DNS) :
    dnsNameLoop label (x ++ 0x2e :: rest) d =
      dnsNameLoop [] rest (dnsPutAll (label ++ x) (dnsPut8 (label ++ x).length.toUInt8 d)) := by
  induction x generalizing label with
  | nil => rw [List.append_nil, List.nil_append, dnsNameLoop, if_pos rfl]
  | cons c cs ih =>
    have hc := List.ne_of_not_mem_cons hx
    have hcs := List.not_mem_of_not_mem_cons hx
    rw [List.cons_append, dnsNameLoop, if_neg (Ne.symm hc), ih _ hcs, List.append_cons label c cs]

/-- The loop of `dns_name` writes label by label. The induction is on the labels. -/
theorem dnsNameLoop_extends (n : Name) (hn : ∀ x ∈ n, Undotted x) (d : DNS) :
    Extends d (n.flatMap fun x => x.length.toUInt8 :: x) (dnsNameLoop [] (dotted n) d) := by
  induction n generalizing d with
  | nil => exact .rfl
  | cons x rest ih =>
    obtain ⟨hx, hrest⟩ := List.forall_mem_cons.mp hn
    rw [dotted_cons, dnsNameLoop_label [] x _ hx]
    exact ((dnsPut8_extends _ d).trans (dnsPutAll_extends _ _)).trans (ih hrest _)

/-- The text is a name with a dot behind each label. -/
structure Spells (text : CStr) (n : Name) : Prop where
  text : text = dotted n
  undotted : ∀ x ∈ n, Undotted x

/-- `dns_name` returns where the name begins. -/
theorem dnsName_fst (text : CStr) (d : DNS) : (dnsName text d).1 = d.buf.length := rfl

/-- A name is written in full. -/
theorem dnsName_extends {text : CStr} {n : Name} (h : Spells text n) (d : DNS) :
    Extends d (nameBytes n) (dnsName text d).2 := by
  rw [h.text]
  exact (dnsNameLoop_extends n h.undotted d).trans (dnsPut8_extends 0 _)

/-- The bytes of a pointer. -/
def pointerBytes (off : ℕ) : List UInt8 := [(0xc0 ||| off >>> 8).toUInt8, (off &&& 0xff).toUInt8]

/-- A pointer to an earlier name. -/
theorem dnsPtr_extends (off : ℕ) (d : DNS) : Extends d (pointerBytes off) (dnsPtr off d) :=
  (dnsPut8_extends _ d).trans (dnsPut8_extends _ _)

/-- The bytes of an owner: a pointer to it, or the name. -/
def ownerBytes (nameOff : Option ℕ) (n : Name) : List UInt8 :=
  match nameOff with
  | some off => pointerBytes off
  | none => nameBytes n

/-! ## Records -/

/-- The bytes of a record before its data. -/
def headBytes (owner : List UInt8) (type cls : UInt16) (ttl : UInt32) : List UInt8 :=
  owner ++ (u16Bytes type ++ (u16Bytes cls ++ u32Bytes ttl))

/-- The bytes of a length. -/
def lengthBytes (n : ℕ) : List UInt8 := [(n >>> 8).toUInt8, (n &&& 0xff).toUInt8]

/-- The bytes of a record. -/
def recordBytes (owner : List UInt8) (type cls : UInt16) (ttl : UInt32) (rdata : List UInt8) :
    List UInt8 :=
  headBytes owner type cls ttl ++ (lengthBytes rdata.length ++ rdata)

/-- A record up to its length, which `dns_rr` leaves open and returns the place of. -/
theorem dnsRr_extends (nameOff : Option ℕ) {text : CStr} {n : Name} (h : Spells text n)
    (type cls : UInt16) (ttl : UInt32) (d : DNS) :
    ∃ d₁, Extends d (headBytes (ownerBytes nameOff n) type cls ttl) d₁ ∧
      dnsRr nameOff text type cls ttl d = (d₁.buf.length, dnsPut16 0 d₁) := by
  refine ⟨_, ?_, rfl⟩
  cases nameOff with
  | none =>
    exact (dnsName_extends h d).trans
      ((dnsPut16_extends _ _).trans ((dnsPut16_extends _ _).trans (dnsPut32_extends _ _)))
  | some off =>
    exact (dnsPtr_extends off d).trans
      ((dnsPut16_extends _ _).trans ((dnsPut16_extends _ _).trans (dnsPut32_extends _ _)))

/-- Two bytes in the middle are replaced. -/
theorem set_two (a b : List UInt8) (x y x' y' : UInt8) :
    ((a ++ ([x, y] ++ b)).set a.length x').set (a.length + 1) y' = a ++ ([x', y'] ++ b) := by
  rw [List.set_append_right _ _ (Nat.le_refl _), Nat.sub_self,
    List.set_append_right _ _ (Nat.le_add_right _ 1), Nat.add_sub_cancel_left]
  rfl

/-- The length of the data is patched in once the data has been written. -/
theorem dnsPatchRdlen_extends {head rdata : List UInt8} {d₁ : DNS} (hhead : Extends d head d₁)
    (hrdata : Extends (dnsPut16 0 d₁) rdata d') :
    Extends d (head ++ (lengthBytes rdata.length ++ rdata)) (dnsPatchRdlen d₁.buf.length d') := by
  intro hoverflow
  obtain ⟨hbefore, hbuf, hfits⟩ := (dnsPut16_extends 0 d₁).trans hrdata hoverflow
  obtain ⟨hbefore', hbuf', hfits'⟩ := hhead hbefore
  have hlength : d'.buf.length - d₁.buf.length - 2 = rdata.length := by
    have htwo : (u16Bytes 0).length = 2 := rfl
    rw [hbuf, List.length_append, List.length_append, htwo]
    omega
  refine ⟨hbefore', ?_, fun h => ?_⟩
  · simp only [dnsPatchRdlen, hlength]
    rw [hbuf, u16Bytes, set_two, hbuf', lengthBytes, List.append_assoc]
  · simp only [dnsPatchRdlen, List.length_set]
    exact hfits (hfits' h)

/-- A record is appended. -/
theorem record_extends {nameOff : Option ℕ} {text : CStr} {n : Name} (h : Spells text n)
    {type cls : UInt16} {ttl : UInt32} {rdata : List UInt8}
    (hrdata : Extends (dnsRr nameOff text type cls ttl d).2 rdata d') :
    Extends d (recordBytes (ownerBytes nameOff n) type cls ttl rdata)
      (dnsPatchRdlen (dnsRr nameOff text type cls ttl d).1 d') := by
  obtain ⟨d₁, hhead, hrr⟩ := dnsRr_extends nameOff h type cls ttl d
  rw [hrr] at hrdata ⊢
  exact dnsPatchRdlen_extends hhead hrdata

/-- Where the data of a record has got to. -/
theorem dnsRr_length {nameOff : Option ℕ} {text : CStr} {n : Name} (h : Spells text n)
    {type cls : UInt16} {ttl : UInt32} {written : List UInt8}
    (hwritten : Extends (dnsRr nameOff text type cls ttl d).2 written d')
    (hoverflow : d'.overflow = false) :
    d'.buf.length =
      d.buf.length + ((headBytes (ownerBytes nameOff n) type cls ttl).length + 2) + written.length := by
  obtain ⟨d₁, hhead, hrr⟩ := dnsRr_extends nameOff h type cls ttl d
  rw [hrr] at hwritten
  obtain ⟨-, hbuf, -⟩ := (hhead.trans ((dnsPut16_extends 0 d₁).trans hwritten)) hoverflow
  have htwo : (u16Bytes 0).length = 2 := rfl
  rw [hbuf, List.length_append, List.length_append, List.length_append, htwo]
  omega

/-! ## Room -/

/-- A packet that has room for `n` bytes does not overflow, and grows by no more than these. -/
def Grows (n : ℕ) (f : DNS → DNS) : Prop :=
  ∀ d, d.overflow = false → d.buf.length + n ≤ dnsBufSize →
    (f d).overflow = false ∧ (f d).buf.length ≤ d.buf.length + n

/-- One after the other. -/
theorem Grows.comp {m n : ℕ} {f g : DNS → DNS} (hf : Grows m f) (hg : Grows n g) :
    Grows (m + n) (g ∘ f) := by
  intro d hoverflow hroom
  obtain ⟨hoverflow', hle⟩ := hf d hoverflow (by omega)
  obtain ⟨hoverflow'', hle'⟩ := hg (f d) hoverflow' (by omega)
  exact ⟨hoverflow'', by rw [Function.comp_apply]; omega⟩

/-- A looser bound. -/
theorem Grows.mono {m n : ℕ} {f : DNS → DNS} (hf : Grows m f) (h : m ≤ n) : Grows n f := by
  intro d hoverflow hroom
  obtain ⟨hoverflow', hle⟩ := hf d hoverflow (by omega)
  exact ⟨hoverflow', by omega⟩

/-- A byte. -/
theorem dnsPut8_grows (v : UInt8) : Grows 1 (dnsPut8 v) := by
  intro d hoverflow hroom
  rw [dnsPut8, if_pos (by omega)]
  exact ⟨hoverflow, by rw [List.length_append, List.length_singleton]⟩

/-- Two bytes. -/
theorem dnsPut16_grows (v : UInt16) : Grows 2 (dnsPut16 v) := (dnsPut8_grows _).comp (dnsPut8_grows _)

/-- Four bytes. -/
theorem dnsPut32_grows (v : UInt32) : Grows 4 (dnsPut32 v) :=
  (dnsPut16_grows _).comp (dnsPut16_grows _)

/-- A pointer. -/
theorem dnsPtr_grows (off : ℕ) : Grows 2 (dnsPtr off) := (dnsPut8_grows _).comp (dnsPut8_grows _)

/-- Several bytes. -/
theorem dnsPutAll_grows (vs : List UInt8) : Grows vs.length (dnsPutAll vs) := by
  induction vs with
  | nil => exact fun d hoverflow _ => ⟨hoverflow, Nat.le_refl _⟩
  | cons v vs ih => exact ((dnsPut8_grows v).comp ih).mono (by rw [List.length_cons]; omega)

/-- A dot makes room for the length of its label. -/
theorem dnsNameLoop_grows (label cs : CStr) :
    Grows (label.length + cs.length) (dnsNameLoop label cs) := by
  induction cs generalizing label with
  | nil => exact fun d hoverflow _ => ⟨hoverflow, by rw [dnsNameLoop]; omega⟩
  | cons c cs ih =>
    by_cases hdot : c = 0x2e
    · have hloop : dnsNameLoop label (c :: cs) =
          dnsNameLoop [] cs ∘ (dnsPutAll label ∘ dnsPut8 label.length.toUInt8) := by
        funext d
        rw [dnsNameLoop, if_pos hdot]
        rfl
      rw [hloop]
      refine (((dnsPut8_grows _).comp (dnsPutAll_grows label)).comp (ih [])).mono ?_
      rw [List.length_nil, List.length_cons]
      omega
    · have hloop : dnsNameLoop label (c :: cs) = dnsNameLoop (label ++ [c]) cs := by
        funext d
        rw [dnsNameLoop, if_neg hdot]
      rw [hloop]
      refine (ih (label ++ [c])).mono ?_
      rw [List.length_append, List.length_singleton, List.length_cons]
      omega

/-- A name takes a byte more than its text. -/
theorem dnsName_grows (text : CStr) : Grows (text.length + 1) fun d => (dnsName text d).2 :=
  ((dnsNameLoop_grows [] text).comp (dnsPut8_grows 0)).mono (by rw [List.length_nil]; omega)

/-- An owner is a name or a pointer. -/
theorem dnsOwner_grows (nameOff : Option ℕ) (text : CStr) :
    Grows (text.length + 2) (dnsOwner nameOff text) := by
  cases nameOff with
  | none => exact (dnsName_grows text).mono (by omega)
  | some off => exact (dnsPtr_grows off).mono (by omega)

/-- The packet after `dns_rr`, as one function after the other. -/
theorem dnsRr_snd (nameOff : Option ℕ) (text : CStr) (type cls : UInt16) (ttl : UInt32) :
    (fun d => (dnsRr nameOff text type cls ttl d).2) =
      dnsPut16 0 ∘ (dnsPut32 ttl ∘ (dnsPut16 cls ∘ (dnsPut16 type ∘ dnsOwner nameOff text))) := by
  funext d
  simp only [dnsRr, Function.comp_apply]

/-- A record up to its length takes twelve bytes more than its name's text. -/
theorem dnsRr_grows (nameOff : Option ℕ) (text : CStr) (type cls : UInt16) (ttl : UInt32) :
    Grows (text.length + 12) fun d => (dnsRr nameOff text type cls ttl d).2 := by
  rw [dnsRr_snd]
  exact ((((dnsOwner_grows nameOff text).comp (dnsPut16_grows type)).comp (dnsPut16_grows cls)).comp
    (dnsPut32_grows ttl)).comp (dnsPut16_grows 0)

/-- Filling in the length takes no room. -/
theorem dnsPatchRdlen_grows (rdlenPos : ℕ) : Grows 0 (dnsPatchRdlen rdlenPos) := by
  intro d hoverflow _
  refine ⟨hoverflow, ?_⟩
  simp only [dnsPatchRdlen, List.length_set]
  omega

/-- A record has room, when its data has. -/
theorem record_grows (nameOff : Option ℕ) (text : CStr) (type cls : UInt16) (ttl : UInt32) {n : ℕ}
    {put : DNS → DNS} (hput : Grows n put) :
    Grows (text.length + 12 + n) fun d => dnsPatchRdlen (dnsRr nameOff text type cls ttl d).1
      (put (dnsRr nameOff text type cls ttl d).2) := by
  intro d hoverflow hroom
  obtain ⟨hoverflow', hle⟩ := (dnsRr_grows nameOff text type cls ttl).comp hput d hoverflow hroom
  obtain ⟨hoverflow'', hle'⟩ := dnsPatchRdlen_grows (dnsRr nameOff text type cls ttl d).1 _ hoverflow'
    (by rw [Nat.add_zero]; exact Nat.le_trans hle hroom)
  exact ⟨hoverflow'', Nat.le_trans hle' hle⟩

/-! ## Reading it back -/

section
variable {pkt : List UInt8} {p : ℕ}

/-- The high byte of a length. -/
theorem shiftRight_eight (n : ℕ) : n >>> 8 = n / 256 := Nat.shiftRight_eq_div_pow n 8

/-- The low byte of a length. -/
theorem and_ff (n : ℕ) : n &&& 0xff = n % 256 := Nat.and_two_pow_sub_one_eq_mod n 8

/-- Two bytes of a packet are a number. -/
theorem u16At_of_has {hi lo : UInt8} (h : Has pkt p [hi, lo]) :
    u16At pkt p = some (hi.toNat * 256 + lo.toNat) := by
  obtain ⟨hhi, h⟩ := has_cons.mp h
  obtain ⟨hlo, -⟩ := has_cons.mp h
  simp only [u16At, hhi, hlo]
  rfl

/-- Two bytes that have been written are read as the number. -/
theorem u16At_of_bytes {v : UInt16} (h : Has pkt p (u16Bytes v)) : u16At pkt p = some v.toNat := by
  have hhi : (v >>> 8).toUInt8.toNat = v.toNat / 256 := by
    have hlt := v.toNat_lt
    rw [UInt16.toNat_toUInt8, UInt16.toNat_shiftRight]
    show (v.toNat >>> 8) % 2 ^ 8 = v.toNat / 256
    rw [shiftRight_eight]
    omega
  have hlo : (v &&& 0xff).toUInt8.toNat = v.toNat % 256 := by
    rw [UInt16.toNat_toUInt8, UInt16.toNat_and]
    show (v.toNat &&& 0xff) % 2 ^ 8 = v.toNat % 256
    rw [and_ff, Nat.mod_mod]
  rw [u16At_of_has h, hhi, hlo]
  exact congrArg some (by omega)

/-- Four bytes that have been written are read as the number. -/
theorem u32At_of_bytes {v : UInt32} (h : Has pkt p (u32Bytes v)) : u32At pkt p = some v.toNat := by
  obtain ⟨hhi, hlo⟩ := has_append.mp h
  have hhi' : (v >>> 16).toUInt16.toNat = v.toNat / 65536 := by
    have hlt := v.toNat_lt
    rw [UInt32.toNat_toUInt16, UInt32.toNat_shiftRight]
    show (v.toNat >>> 16) % 2 ^ 16 = v.toNat / 65536
    rw [Nat.shiftRight_eq_div_pow]
    omega
  have hlo' : (v &&& 0xffff).toUInt16.toNat = v.toNat % 65536 := by
    rw [UInt32.toNat_toUInt16, UInt32.toNat_and]
    show (v.toNat &&& (2 ^ 16 - 1)) % 2 ^ 16 = v.toNat % 65536
    rw [Nat.and_two_pow_sub_one_eq_mod, Nat.mod_mod]
  have htwo : (u16Bytes (v >>> 16).toUInt16).length = 2 := rfl
  rw [htwo] at hlo
  simp only [u32At, u16At_of_bytes hhi, u16At_of_bytes hlo, hhi', hlo']
  exact congrArg some (by omega)

/-- A length that has been filled in is read as the length. -/
theorem u16At_of_lengthBytes {n : ℕ} (hn : n < 65536) (h : Has pkt p (lengthBytes n)) :
    u16At pkt p = some n := by
  rw [u16At_of_has h, shiftRight_eight, and_ff, toUInt8_toNat (by omega), toUInt8_toNat (by omega)]
  exact congrArg some (by omega)

/-- The marks of a pointer leave the offset as it is. -/
theorem pointerBytes_eq {off : ℕ} (h : off < 0x4000) :
    pointerBytes off = [(0xc0 + off / 256).toUInt8, (off % 256).toUInt8] := by
  have hor : 0xc0 ||| off / 256 = 0xc0 + off / 256 := by
    have hlt : off / 256 < 2 ^ 6 := by omega
    exact (Nat.two_pow_add_eq_or_of_lt hlt 3).symm
  rw [pointerBytes, shiftRight_eight, and_ff, hor]

/-- An owner is found again: where a pointer leads there is the name. -/
theorem nameAt_of_ownerBytes {nameOff : Option ℕ} {n : Name} (hn : Name.Valid n) (hp : p ≤ dnsBufSize)
    (hoff : ∀ off, nameOff = some off → off < p ∧ ∃ q, NameAt pkt off n q)
    (h : Has pkt p (ownerBytes nameOff n)) :
    NameAt pkt p n (p + (ownerBytes nameOff n).length) := by
  cases nameOff with
  | none => exact nameAt_of_bytes hn h
  | some off =>
    obtain ⟨hlt, q, hname⟩ := hoff off rfl
    unfold dnsBufSize at hp
    rw [ownerBytes, pointerBytes_eq (by omega)] at h
    exact nameAt_of_pointer hlt (by omega) h hname

/-- A record is found again, with its data in the range that its length gives. -/
theorem recordAt_of_bytes {owner rdata : List UInt8} {type cls : UInt16} {ttl : UInt32} {x : Record}
    (hshort : rdata.length < 65536) (htype : type.toNat = x.rdata.type) (hcls : cls.toNat = x.cls)
    (httl : ttl.toNat = x.ttl) (h : Has pkt p (recordBytes owner type cls ttl rdata))
    (howner : NameAt pkt p x.owner (p + owner.length))
    (hrdata : ∀ q, Has pkt q rdata → RDataAt pkt q x.rdata (q + rdata.length)) :
    RecordAt pkt p x (p + (recordBytes owner type cls ttl rdata).length) := by
  obtain ⟨h₁, h₂⟩ := has_append.mp h
  obtain ⟨-, h₁⟩ := has_append.mp h₁
  obtain ⟨hTYPE, h₁⟩ := has_append.mp h₁
  obtain ⟨hCLS, hTTL⟩ := has_append.mp h₁
  obtain ⟨hLENGTH, hRDATA⟩ := has_append.mp h₂
  have hhead : (headBytes owner type cls ttl).length = owner.length + 8 := by
    simp [headBytes, u16Bytes, u32Bytes]
  have hlength : (lengthBytes rdata.length).length = 2 := rfl
  have hsix : ∀ v : UInt16, (u16Bytes v).length = 2 := fun _ => rfl
  rw [hsix] at hCLS hTTL
  rw [hsix] at hTTL
  rw [hhead] at hLENGTH hRDATA
  rw [hlength] at hRDATA
  have hend : p + (recordBytes owner type cls ttl rdata).length =
      p + owner.length + 10 + rdata.length := by
    rw [recordBytes, List.length_append, List.length_append, hhead, hlength]
    omega
  rw [hend]
  refine .intro howner ?_ ?_ ?_ (u16At_of_lengthBytes hshort hLENGTH) (hrdata _ hRDATA)
  · rw [u16At_of_bytes hTYPE, htype]
  · rw [u16At_of_bytes hCLS, hcls]
  · rw [u32At_of_bytes hTTL, httl]

/-- The name at the end of a record's data is found again. -/
theorem nameAt_in_record {owner written : List UInt8} {type cls : UInt16} {ttl : UInt32} {n : Name}
    (hn : Name.Valid n) (h : Has pkt p (recordBytes owner type cls ttl (written ++ nameBytes n))) :
    ∃ q, NameAt pkt (p + ((headBytes owner type cls ttl).length + 2) + written.length) n q := by
  obtain ⟨-, h⟩ := has_append.mp h
  obtain ⟨-, h⟩ := has_append.mp h
  obtain ⟨-, h⟩ := has_append.mp h
  rw [Nat.add_assoc p] at h
  exact ⟨_, nameAt_of_bytes hn h⟩

end

end SlcRtld.Mdns
