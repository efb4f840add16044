import SlcRtld.Mdns.Packet

/-!
# Responses decode to the records meant

`send_records` builds the records of a set one after the other. What it keeps between them are the
offsets of the two names that it may point to; the invariant of a packet that is being built is that
its records so far stand in every packet that begins with it, and that the names stand at the
offsets (`Built`). Each of the four branches keeps it (`putPtr_built` and the like), whichever
records came before. So a response decodes to the records of the set, in order and with nothing
after them, and to nothing else (`response_decodes`).
-/

namespace SlcRtld.Property

open Libc Dns Mdns

/-! ## The names -/

/-- The name of the instance. -/
def instanceLabels (i : CStr) : Name := i :: serviceLabels

/-- The name of the host. -/
def hostLabels (i : CStr) : Name := [i, bytes "local"]

/-- A name that an instance can have. -/
structure InstanceName (i : CStr) : Prop where
  nonempty : 1 ≤ i.length
  short : i.length ≤ 63
  undotted : (0x2e : UInt8) ∉ i
  noNul : (0 : UInt8) ∉ i

section
variable {i : CStr} (hi : InstanceName i)
include hi

/-- The name of an instance is a label. -/
theorem InstanceName.label : i ≠ [] ∧ i.length ≤ 63 :=
  ⟨List.ne_nil_of_length_pos hi.nonempty, hi.short⟩

/-- The labels of the instance are labels of the protocol. -/
theorem instanceLabels_valid : Name.Valid (instanceLabels i) :=
  List.forall_mem_cons.mpr ⟨hi.label, by decide⟩

/-- So are those of the host. -/
theorem hostLabels_valid : Name.Valid (hostLabels i) :=
  List.forall_mem_cons.mpr ⟨hi.label, by decide⟩

end

/-- The constant of the source spells the labels of the service. -/
theorem svcType_spells : Spells Responder.svcType serviceLabels := ⟨by decide, by decide⟩

section
variable {r : Responder} (hi : InstanceName r.instanceName)
include hi

/-- The buffers have room for the names. -/
theorem instFqdn_spells : Spells r.instFqdn (instanceLabels r.instanceName) := by
  have hshort := hi.short
  have htext : r.instanceName ++ bytes "." ++ slcServiceType ++ bytes ".local." =
      dotted (instanceLabels r.instanceName) := by
    have hrest : bytes "." ++ (slcServiceType ++ bytes ".local.") = 0x2e :: dotted serviceLabels := by
      decide
    rw [List.append_assoc, List.append_assoc, hrest, instanceLabels, dotted_cons]
  have hlength : (dotted (instanceLabels r.instanceName)).length ≤ 95 := by
    have hrest : (0x2e :: dotted serviceLabels).length = 21 := by decide
    rw [instanceLabels, dotted_cons, List.length_append, hrest]
    omega
  refine ⟨?_, List.forall_mem_cons.mpr ⟨hi.undotted, by decide⟩⟩
  rw [Responder.instFqdn, htext, snprintf]
  exact List.take_of_length_le hlength

/-- The host's name with its domain spells its labels. -/
theorem hostFqdn_spells : Spells r.hostFqdn (hostLabels r.instanceName) := by
  have hshort := hi.short
  have htext : r.instanceName ++ bytes ".local." = dotted (hostLabels r.instanceName) := by
    have hrest : bytes ".local." = 0x2e :: dotted [bytes "local"] := by decide
    rw [hostLabels, dotted_cons r.instanceName, hrest]
  have hlength : (dotted (hostLabels r.instanceName)).length ≤ 79 := by
    have hrest : (0x2e :: dotted [bytes "local"]).length = 7 := by decide
    rw [hostLabels, dotted_cons, List.length_append, hrest]
    omega
  refine ⟨?_, List.forall_mem_cons.mpr ⟨hi.undotted, by decide⟩⟩
  rw [Responder.hostFqdn, htext, snprintf]
  exact List.take_of_length_le hlength

end

/-! ## The records -/

/-- What is announced. -/
structure Service where
  name : CStr
  port : ℕ
  strings : List CStr
  address : List UInt8

/-- The records of a service. -/
def ptrRecord (s : Service) (ttl : ℕ) : Record := ⟨serviceLabels, 1, ttl, .ptr (instanceLabels s.name)⟩

@[inherit_doc ptrRecord]
def srvRecord (s : Service) (ttl : ℕ) : Record :=
  ⟨instanceLabels s.name, 0x8001, ttl, .srv 0 0 s.port (hostLabels s.name)⟩

@[inherit_doc ptrRecord]
def txtRecord (s : Service) (ttl : ℕ) : Record :=
  ⟨instanceLabels s.name, 0x8001, ttl, .txt s.strings⟩

@[inherit_doc ptrRecord]
def aRecord (s : Service) (ttl : ℕ) : Record := ⟨hostLabels s.name, 0x8001, ttl, .a s.address⟩

/-- The records of a set, in order. -/
def recordsOf (s : Service) (which ttl : ℕ) : List Record :=
  (if which &&& rPtr ≠ 0 then [ptrRecord s ttl] else []) ++
    (if which &&& rSrv ≠ 0 then [srvRecord s ttl] else []) ++
    (if which &&& rTxt ≠ 0 then [txtRecord s ttl] else []) ++
    (if which &&& rA ≠ 0 then [aRecord s ttl] else [])

/-- The message that carries the records of a set: a response (QR) with authority (AA). -/
def responseMessage (s : Service) (which ttl : ℕ) : Message :=
  ⟨0, 2 ^ 15 + 2 ^ 10, [], recordsOf s which ttl, [], []⟩

/-- There are at most four records. -/
theorem recordsOf_length (s : Service) (which ttl : ℕ) : (recordsOf s which ttl).length ≤ 4 := by
  unfold recordsOf
  split_ifs <;> simp

/-- The bytes of an address. -/
def addressBytes (ip : UInt32) : List UInt8 :=
  [ip.toUInt8, (ip >>> 8).toUInt8, (ip >>> 16).toUInt8, (ip >>> 24).toUInt8]

/-- What a responder announces. -/
def service (r : Responder) : Service := ⟨r.instanceName, r.port.toNat, r.txt, addressBytes r.ip⟩

/-- The bytes of an address in the order of the network. -/
theorem addressBytes_sAddr (a b c d : UInt8) : addressBytes (sAddr a b c d) = [a, b, c, d] := by
  have ha := a.toNat_lt
  have hb := b.toNat_lt
  have hc := c.toNat_lt
  have hd := d.toNat_lt
  have hword : (sAddr a b c d).toNat =
      a.toNat + 2 ^ 8 * b.toNat + 2 ^ 16 * c.toNat + 2 ^ 24 * d.toNat := by
    rw [sAddr, UInt32.toNat_ofNat']
    omega
  have hbyte : ∀ (k : UInt32) (x : UInt8), (sAddr a b c d).toNat / 2 ^ (k.toNat % 32) % 2 ^ 8 = x.toNat →
      (sAddr a b c d >>> k).toUInt8 = x := by
    intro k x hx
    rw [← UInt8.toNat_inj, UInt32.toNat_toUInt8, UInt32.toNat_shiftRight, Nat.shiftRight_eq_div_pow]
    exact hx
  have h8 := hbyte 8 b (by rw [hword]; show _ / 2 ^ 8 % 2 ^ 8 = _; omega)
  have h16 := hbyte 16 c (by rw [hword]; show _ / 2 ^ 16 % 2 ^ 8 = _; omega)
  have h24 := hbyte 24 d (by rw [hword]; show _ / 2 ^ 24 % 2 ^ 8 = _; omega)
  have h0 : (sAddr a b c d).toUInt8 = a := by
    rw [← UInt8.toNat_inj, UInt32.toNat_toUInt8, hword]
    omega
  rw [addressBytes, h0, h8, h16, h24]

/-! ## A packet that is being built -/

/-- The packet begins with what has been built, the header apart. -/
def Shows (pkt : List UInt8) (b : Building) : Prop := Has pkt 12 (b.d.buf.drop 12)

/-- A name stands at an offset that is kept. -/
def KeptAt (b : Building) (off : Option ℕ) (n : Name) : Prop :=
  ∀ p, off = some p → p < b.d.buf.length ∧ ∀ pkt, Shows pkt b → ∃ q, NameAt pkt p n q

/-- The records so far stand in every packet that begins with what has been built, and the names
that may be pointed to stand at the offsets. -/
structure Built (r : Responder) (b : Building) (answers : List Record) : Prop where
  count : b.ancount = answers.length
  header : 12 ≤ b.d.buf.length
  zeros : b.d.buf.take 12 = List.replicate 12 0
  fits : b.d.buf.length ≤ dnsBufSize
  records : ∀ pkt, Shows pkt b → SeqAt (RecordAt pkt) 12 answers b.d.buf.length
  inst : KeptAt b b.instOff (instanceLabels r.instanceName)
  host : KeptAt b b.hostOff (hostLabels r.instanceName)

/-- No name has been kept. -/
theorem kept_none {b : Building} {n : Name} : KeptAt b none n := fun _ h => nomatch h

section
variable {r : Responder} {b b' : Building} {answers : List Record} {chunk : List UInt8}

/-- What has been built stands in every packet that begins with more. -/
theorem Shows.earlier {pkt : List UInt8} (h : Shows pkt b') (hbuf : b'.d.buf = b.d.buf ++ chunk)
    (hheader : 12 ≤ b.d.buf.length) : Shows pkt b ∧ Has pkt b.d.buf.length chunk := by
  rw [Shows, hbuf, List.drop_append_of_le_length hheader] at h
  obtain ⟨hbefore, hchunk⟩ := has_append.mp h
  rw [List.length_drop, Nat.add_sub_cancel' hheader] at hchunk
  exact ⟨hbefore, hchunk⟩

/-- A name that is kept stays where it is. -/
theorem KeptAt.later {off : Option ℕ} {n : Name} (h : KeptAt b off n)
    (hbuf : b'.d.buf = b.d.buf ++ chunk) (hheader : 12 ≤ b.d.buf.length) : KeptAt b' off n := by
  intro p hp
  obtain ⟨hlt, hname⟩ := h p hp
  refine ⟨?_, fun pkt hshows => hname pkt (hshows.earlier hbuf hheader).1⟩
  rw [hbuf, List.length_append]
  omega

/-- A name that a chunk has at a position is kept from then on. -/
theorem kept_of_has {n : Name} {p : ℕ} (hchunk : Appended b.d chunk b'.d) (hheader : 12 ≤ b.d.buf.length)
    (hlt : p < b'.d.buf.length)
    (hname : ∀ pkt, Shows pkt b → Has pkt b.d.buf.length chunk → ∃ q, NameAt pkt p n q) :
    KeptAt b' (some p) n := by
  rintro _ ⟨⟩
  refine ⟨hlt, fun pkt hshows => ?_⟩
  obtain ⟨hbefore, hhas⟩ := hshows.earlier hchunk.buf hheader
  exact hname pkt hbefore hhas

/-- The owner of a record is found again. -/
theorem owner_nameAt {pkt : List UInt8} {nameOff : Option ℕ} {n : Name} {type cls : UInt16}
    {ttl : UInt32} {rdata : List UInt8} (hb : Built r b answers) (hn : Name.Valid n)
    (hkept : KeptAt b nameOff n) (hshows : Shows pkt b)
    (h : Has pkt b.d.buf.length (recordBytes (ownerBytes nameOff n) type cls ttl rdata)) :
    NameAt pkt b.d.buf.length n (b.d.buf.length + (ownerBytes nameOff n).length) := by
  refine nameAt_of_ownerBytes hn hb.fits (fun off hoff => ?_) (has_append.mp (has_append.mp h).1).1
  obtain ⟨hlt, hname⟩ := hkept off hoff
  exact ⟨hlt, hname pkt hshows⟩

/-- A name that has not been written before is kept where a record has it as its owner. -/
theorem owner_kept {nameOff : Option ℕ} {n : Name} {type cls : UInt16} {ttl : UInt32}
    {rdata : List UInt8} (hb : Built r b answers) (hn : Name.Valid n) (hkept : KeptAt b nameOff n)
    (hchunk : Appended b.d (recordBytes (ownerBytes nameOff n) type cls ttl rdata) b'.d) :
    KeptAt b' (some (nameOff.getD b.d.buf.length)) n := by
  cases nameOff with
  | some off => exact hkept.later hchunk.buf hb.header
  | none =>
    refine kept_of_has hchunk hb.header ?_
      (fun pkt hshows hhas => ⟨_, owner_nameAt hb hn hkept hshows hhas⟩)
    rw [hchunk.buf, List.length_append]
    simp [recordBytes, headBytes, u16Bytes]

/-- A name at the end of a record's data is kept. -/
theorem data_kept {owner written : List UInt8} {n : Name} {type cls : UInt16} {ttl : UInt32} {off : ℕ}
    (hheader : 12 ≤ b.d.buf.length) (hn : Name.Valid n)
    (hchunk : Appended b.d (recordBytes owner type cls ttl (written ++ nameBytes n)) b'.d)
    (hoff : off =
      b.d.buf.length + ((headBytes owner type cls ttl).length + 2) + written.length) :
    KeptAt b' (some off) n := by
  refine kept_of_has hchunk hheader ?_ (fun pkt _ hhas => ?_)
  · have htwo : (lengthBytes (written ++ nameBytes n).length).length = 2 := rfl
    have hend : 1 ≤ (nameBytes n).length := by simp [nameBytes]
    rw [hoff, hchunk.buf, List.length_append, recordBytes, List.length_append, List.length_append,
      htwo, List.length_append]
    omega
  · rw [hoff]
    exact nameAt_in_record hn hhas

/-- A record is added: it stands where the packet ended before. -/
theorem Built.add {nameOff : Option ℕ} {n : Name} {type cls : UInt16} {ttl : UInt32}
    {rdata : List UInt8} {x : RData} (hb : Built r b answers) (hn : Name.Valid n)
    (hkept : KeptAt b nameOff n)
    (hchunk : Appended b.d (recordBytes (ownerBytes nameOff n) type cls ttl rdata) b'.d)
    (hcount : b'.ancount = b.ancount + 1) (htype : type.toNat = x.type)
    (hrdata : ∀ pkt q, Has pkt q rdata → RDataAt pkt q x (q + rdata.length))
    (hinst : KeptAt b' b'.instOff (instanceLabels r.instanceName))
    (hhost : KeptAt b' b'.hostOff (hostLabels r.instanceName)) :
    Built r b' (answers ++ [⟨n, cls.toNat, ttl.toNat, x⟩]) where
  count := by rw [hcount, hb.count, List.length_append, List.length_singleton]
  header := by
    rw [hchunk.buf, List.length_append]
    exact Nat.le_trans hb.header (Nat.le_add_right _ _)
  zeros := by rw [hchunk.buf, List.take_append_of_le_length hb.header, hb.zeros]
  fits := hchunk.fits hb.fits
  records := by
    intro pkt hshows
    have hshort : rdata.length < 65536 := by
      have hfits := hchunk.fits hb.fits
      rw [hchunk.buf, List.length_append, recordBytes, List.length_append, List.length_append,
        dnsBufSize] at hfits
      omega
    obtain ⟨hbefore, hhas⟩ := hshows.earlier hchunk.buf hb.header
    rw [hchunk.buf, List.length_append]
    exact (hb.records pkt hbefore).concat (recordAt_of_bytes hshort htype rfl rfl hhas
      (owner_nameAt hb hn hkept hbefore hhas) (hrdata pkt))
  inst := hinst
  host := hhost

end

/-! ## The branches -/

/-- Before the first record. -/
theorem built_init (r : Responder) : Built r ⟨dnsInit, 0, none, none⟩ [] where
  count := rfl
  header := by decide
  zeros := by decide
  fits := by decide
  records := fun _ _ => .nil
  inst := kept_none
  host := kept_none

/-- The bytes of the strings, each with its length before it. -/
def stringBytes (txt : List CStr) : List UInt8 := txt.flatMap fun s => s.length.toUInt8 :: s

/-- The strings are written one after the other, each behind its length. The induction is on the
strings. -/
theorem putStrings_extends (r : Responder) (d : DNS) :
    Extends d (stringBytes r.txt) (r.putStrings d) := by
  unfold Responder.putStrings
  induction r.txt generalizing d with
  | nil => exact .rfl
  | cons s txt ih => exact ((dnsPut8_extends _ d).trans (dnsPutAll_extends s _)).trans (ih _)

/-- The four bytes of the address are written. -/
theorem putAddress_extends (r : Responder) (d : DNS) :
    Extends d (addressBytes r.ip) (r.putAddress d) :=
  (dnsPut8_extends _ d).trans
    ((dnsPut8_extends _ _).trans ((dnsPut8_extends _ _).trans (dnsPut8_extends _ _)))

/-- Strings that have been written are read back. The induction is on the strings. -/
theorem stringsAt_of_bytes {pkt : List UInt8} {p : ℕ} {txt : List CStr}
    (hshort : ∀ s ∈ txt, s.length ≤ 255) (h : Has pkt p (stringBytes txt)) :
    SeqAt (StringAt pkt) p txt (p + (stringBytes txt).length) := by
  induction txt generalizing p with
  | nil => exact .nil
  | cons s txt ih =>
    obtain ⟨hs, hrest⟩ := List.forall_mem_cons.mp hshort
    have hbytes : stringBytes (s :: txt) = s.length.toUInt8 :: (s ++ stringBytes txt) := rfl
    rw [hbytes] at h ⊢
    obtain ⟨hlength, h⟩ := has_cons.mp h
    obtain ⟨hs', h⟩ := has_append.mp h
    have hend : p + (s.length.toUInt8 :: (s ++ stringBytes txt)).length =
        p + 1 + s.length + (stringBytes txt).length := by
      rw [List.length_cons, List.length_append]
      omega
    rw [hend]
    exact .cons ⟨hs, hlength, hs'⟩ (ih hrest h)

section
variable {r : Responder} (hi : InstanceName r.instanceName) {ttl : UInt32} {b : Building}
  {answers : List Record}
include hi

/-- The pointer from the service to the instance. -/
theorem putPtr_built (h : b.d.overflow = false → Built r b answers)
    (hoverflow : (r.putPtr ttl b).d.overflow = false) :
    Built r (r.putPtr ttl b) (answers ++ [ptrRecord (service r) ttl.toNat]) := by
  have hname := dnsName_extends (instFqdn_spells hi)
    (dnsRr none Responder.svcType dnsTypePtr dnsClassIn ttl b.d).2
  have hchunk : Appended b.d (recordBytes (ownerBytes none serviceLabels) dnsTypePtr dnsClassIn ttl
      ([] ++ nameBytes (instanceLabels r.instanceName))) (r.putPtr ttl b).d :=
    record_extends svcType_spells hname hoverflow
  have hb := h hchunk.before
  refine hb.add serviceLabels_valid kept_none hchunk rfl rfl
    (fun pkt q hq => .ptr (nameAt_of_bytes (instanceLabels_valid hi) hq))
    (data_kept hb.header (instanceLabels_valid hi) hchunk ?_) (hb.host.later hchunk.buf hb.header)
  simp only [Responder.putPtr, dnsPatchRdlen] at hoverflow
  rw [dnsName_fst]
  exact dnsRr_length svcType_spells .rfl (hname hoverflow).before

/-- The host and the port of the instance. -/
theorem putSrv_built (h : b.d.overflow = false → Built r b answers)
    (hoverflow : (r.putSrv ttl b).d.overflow = false) :
    Built r (r.putSrv ttl b) (answers ++ [srvRecord (service r) ttl.toNat]) := by
  have hnumbers := fun d => (dnsPut16_extends 0 d).trans
    ((dnsPut16_extends 0 _).trans (dnsPut16_extends r.port _))
  have hname := fun d => dnsName_extends (hostFqdn_spells hi)
    (dnsPut16 r.port (dnsPut16 0 (dnsPut16 0 d)))
  have hchunk : Appended b.d (recordBytes (ownerBytes b.instOff (instanceLabels r.instanceName))
      dnsTypeSrv (dnsClassIn ||| dnsCacheFlush) ttl
      (u16Bytes 0 ++ (u16Bytes 0 ++ u16Bytes r.port) ++ nameBytes (hostLabels r.instanceName)))
      (r.putSrv ttl b).d :=
    record_extends (instFqdn_spells hi) ((hnumbers _).trans (hname _)) hoverflow
  have hb := h hchunk.before
  refine hb.add (instanceLabels_valid hi) hb.inst hchunk rfl rfl (fun pkt q hq => ?_)
    (owner_kept hb (instanceLabels_valid hi) hb.inst hchunk)
    (data_kept hb.header (hostLabels_valid hi) hchunk ?_)
  · obtain ⟨hfirst, htarget⟩ := has_append.mp hq
    obtain ⟨hpriority, hfirst⟩ := has_append.mp hfirst
    obtain ⟨hweight, hport⟩ := has_append.mp hfirst
    rw [List.length_append, ← Nat.add_assoc]
    exact .srv (u16At_of_bytes hpriority) (u16At_of_bytes hweight) (u16At_of_bytes hport)
      (nameAt_of_bytes (hostLabels_valid hi) htarget)
  · simp only [Responder.putSrv, dnsPatchRdlen] at hoverflow
    rw [dnsName_fst]
    exact dnsRr_length (instFqdn_spells hi) (hnumbers _) (hname _ hoverflow).before

/-- The strings of the instance. -/
theorem putTxt_built (hshort : ∀ s ∈ r.txt, s.length ≤ 255)
    (h : b.d.overflow = false → Built r b answers)
    (hoverflow : (r.putTxt ttl b).d.overflow = false) :
    Built r (r.putTxt ttl b) (answers ++ [txtRecord (service r) ttl.toNat]) := by
  have hchunk : Appended b.d (recordBytes (ownerBytes b.instOff (instanceLabels r.instanceName))
      dnsTypeTxt (dnsClassIn ||| dnsCacheFlush) ttl (stringBytes r.txt)) (r.putTxt ttl b).d :=
    record_extends (instFqdn_spells hi) (putStrings_extends r _) hoverflow
  have hb := h hchunk.before
  exact hb.add (instanceLabels_valid hi) hb.inst hchunk rfl rfl
    (fun pkt q hq => .txt (stringsAt_of_bytes hshort hq))
    (owner_kept hb (instanceLabels_valid hi) hb.inst hchunk) (hb.host.later hchunk.buf hb.header)

/-- The address of the host. -/
theorem putA_built (h : b.d.overflow = false → Built r b answers)
    (hoverflow : (r.putA ttl b).d.overflow = false) :
    Built r (r.putA ttl b) (answers ++ [aRecord (service r) ttl.toNat]) := by
  have hchunk : Appended b.d (recordBytes (ownerBytes b.hostOff (hostLabels r.instanceName))
      dnsTypeA (dnsClassIn ||| dnsCacheFlush) ttl (addressBytes r.ip)) (r.putA ttl b).d :=
    record_extends (hostFqdn_spells hi) (putAddress_extends r _) hoverflow
  have hb := h hchunk.before
  have hinst : (r.putA ttl b).instOff = b.instOff := by cases b; rfl
  have hhost : (r.putA ttl b).hostOff = b.hostOff := by cases b; rfl
  refine hb.add (hostLabels_valid hi) hb.host hchunk rfl rfl (fun pkt q hq => .a rfl hq) ?_ ?_
  · rw [hinst]
    exact hb.inst.later hchunk.buf hb.header
  · rw [hhost]
    exact hb.host.later hchunk.buf hb.header

/-- The records of a set have been built. -/
theorem build_built (hshort : ∀ s ∈ r.txt, s.length ≤ 255) (which : ℕ)
    (hoverflow : (r.build which ttl).d.overflow = false) :
    Built r (r.build which ttl) (recordsOf (service r) which ttl.toNat) := by
  -- A branch that is not taken adds nothing.
  have hbranch : ∀ (bit : ℕ) (put : Building → Building) (x : Record) (b : Building)
      (answers : List Record), (b.d.overflow = false → Built r b answers) →
      ((put b).d.overflow = false → Built r (put b) (answers ++ [x])) →
      (if which &&& bit ≠ 0 then put b else b).d.overflow = false →
        Built r (if which &&& bit ≠ 0 then put b else b)
          (answers ++ if which &&& bit ≠ 0 then [x] else []) := by
    intro bit put x b answers hb hput
    split_ifs
    · exact hput
    · rw [List.append_nil]
      exact hb
  have hinit := fun _ : (⟨dnsInit, 0, none, none⟩ : Building).d.overflow = false => built_init r
  have hptr := hbranch rPtr (r.putPtr ttl) _ _ _ hinit (putPtr_built hi hinit)
  have hsrv := hbranch rSrv (r.putSrv ttl) _ _ _ hptr (putSrv_built hi hptr)
  have htxt := hbranch rTxt (r.putTxt ttl) _ _ _ hsrv (putTxt_built hi hshort hsrv)
  exact hbranch rA (r.putA ttl) _ _ _ htxt (putA_built hi htxt) hoverflow

end

/-! ## The response -/

/-- The header of a response with a number of records. -/
def headerBytes (n : ℕ) : List UInt8 := [0, 0, 0x84, 0, 0, 0, (n >>> 8).toUInt8, n.toUInt8, 0, 0, 0, 0]

/-- The response is its header and the records. -/
theorem sendRecords_eq {r : Responder} {which : ℕ} {ttl : UInt32} {answers : List Record}
    {pkt : List UInt8} (hb : Built r (r.build which ttl) answers)
    (h : r.sendRecords which ttl = some pkt) :
    pkt = headerBytes answers.length ++ (r.build which ttl).d.buf.drop 12 := by
  rw [Responder.sendRecords] at h
  obtain ⟨-, h⟩ := Option.ite_none_left_eq_some.mp h
  rw [← Option.some.inj h, ← hb.count]
  generalize (r.build which ttl).ancount = n
  have hbuf := (List.take_append_drop 12 (r.build which ttl).d.buf).symm
  rw [hb.zeros] at hbuf
  generalize (r.build which ttl).d.buf.drop 12 = body at hbuf
  rw [hbuf]
  rfl

/-- The header of a response is followed by its records. -/
theorem decodes_of_built {r : Responder} {which : ℕ} {ttl : UInt32} {pkt : List UInt8}
    (hb : Built r (r.build which ttl) (recordsOf (service r) which ttl.toNat))
    (h : r.sendRecords which ttl = some pkt) :
    Decodes pkt (responseMessage (service r) which ttl.toNat) := by
  have hpkt := sendRecords_eq hb h
  have hshows : Shows pkt (r.build which ttl) := by
    rw [Shows, hpkt]
    exact List.prefix_rfl
  have hlength : (r.build which ttl).d.buf.length = pkt.length := by
    have hheader := hb.header
    have htwelve : (headerBytes (recordsOf (service r) which ttl.toNat).length).length = 12 := rfl
    rw [hpkt, List.length_append, htwelve, List.length_drop]
    omega
  have hrecords := hb.records pkt hshows
  have hcount := recordsOf_length (service r) which ttl.toNat
  rw [hlength] at hrecords
  have hancount : u16At pkt 6 = some (recordsOf (service r) which ttl.toNat).length := by
    rw [hpkt]
    generalize (recordsOf (service r) which ttl.toNat).length = n at hcount
    have hhi : (n >>> 8).toUInt8.toNat = 0 := by
      rw [shiftRight_eight, toUInt8_toNat (by omega)]
      omega
    have hlo : n.toUInt8.toNat = n := toUInt8_toNat (by omega)
    have hat : ∀ body, u16At (headerBytes n ++ body) 6 =
      some ((n >>> 8).toUInt8.toNat * 256 + n.toUInt8.toNat) := fun _ => rfl
    rw [hat, hhi, hlo, Nat.zero_mul, Nat.zero_add]
  refine ⟨?_, ?_, ?_, hancount, ?_, ?_, ⟨12, pkt.length, pkt.length, .nil, hrecords, .nil, .nil⟩⟩
  all_goals
    rw [hpkt]
    rfl

/-- A response that is sent decodes to the records of its set. -/
theorem sendRecords_decodes {r : Responder} (hi : InstanceName r.instanceName)
    (hshort : ∀ s ∈ r.txt, s.length ≤ 255) {which : ℕ} {ttl : UInt32} {pkt : List UInt8}
    (h : r.sendRecords which ttl = some pkt) :
    Decodes pkt (responseMessage (service r) which ttl.toNat) := by
  have hoverflow := (Option.ite_none_left_eq_some.mp h).1
  exact decodes_of_built (build_built hi hshort which (Bool.not_eq_true _ ▸ hoverflow)) h

/-- The strings that are announced fit the length before them. -/
theorem mdnsBuiltinStart_txt (i : CStr) (port : UInt16) (txt : MdnsTxt) (ip : UInt32) :
    ∀ s ∈ (mdnsBuiltinStart i port txt ip).txt, s.length ≤ 255 := by
  intro s hs
  obtain ⟨t, -, rfl⟩ := List.mem_map.mp hs
  rw [snprintf, List.length_take]
  omega

/-- The responder keeps the name that it is started with. -/
theorem mdnsBuiltinStart_instanceName {i : CStr} (hi : InstanceName i) (port : UInt16) (txt : MdnsTxt)
    (ip : UInt32) : (mdnsBuiltinStart i port txt ip).instanceName = i :=
  List.take_of_length_le hi.short

/-- What `send_records` builds decodes to the records of the set in order, with nothing after them,
and to nothing else. The strings are those that `mdns_builtin_start` has built. -/
theorem response_decodes {i : CStr} (hi : InstanceName i) (port : UInt16) (txt : MdnsTxt)
    (a b c d : UInt8) (which : ℕ) (ttl : UInt32) {pkt : List UInt8}
    (h : (mdnsBuiltinStart i port txt (sAddr a b c d)).sendRecords which ttl = some pkt) (m : Message) :
    Decodes pkt m ↔ m = responseMessage
      ⟨i, port.toNat, (mdnsBuiltinStart i port txt (sAddr a b c d)).txt, [a, b, c, d]⟩ which ttl.toNat := by
  have hname := mdnsBuiltinStart_instanceName hi port txt (sAddr a b c d)
  have hservice : service (mdnsBuiltinStart i port txt (sAddr a b c d)) =
      ⟨i, port.toNat, (mdnsBuiltinStart i port txt (sAddr a b c d)).txt, [a, b, c, d]⟩ := by
    rw [service, hname]
    exact congrArg (Service.mk i port.toNat _) (addressBytes_sAddr a b c d)
  have hi' : InstanceName (mdnsBuiltinStart i port txt (sAddr a b c d)).instanceName := hname.symm ▸ hi
  have hdecodes := sendRecords_decodes hi' (mdnsBuiltinStart_txt i port txt _) h
  rw [hservice] at hdecodes
  exact ⟨fun hm => hm.unique hdecodes, fun hm => hm ▸ hdecodes⟩

/-- Strings to announce. -/
def announcedTxt : MdnsTxt where
  name := bytes "sdr"
  proto := bytes "sdr-slc"
  protoVer := bytes "1.0"
  functions := bytes "rx"
  hw := bytes "rtl2832u"
  fw := bytes "0.20"
  minhz := 24000000
  maxhz := 1766000000

/-- A set of records of a responder is sent and decodes to them. -/
def SetDecodes (which : ℕ) : Prop :=
  ∃ pkt, (mdnsBuiltinStart (bytes "sdr-0001") 5555 announcedTxt (sAddr 192 168 1 7)).sendRecords
    which 120 = some pkt ∧ Decodes pkt (responseMessage ⟨bytes "sdr-0001", 5555,
      (mdnsBuiltinStart (bytes "sdr-0001") 5555 announcedTxt (sAddr 192 168 1 7)).txt,
      [192, 168, 1, 7]⟩ which 120)

/-- All records, and the address and the strings without the records that name them first. -/
theorem response_decodes_sets : SetDecodes 15 ∧ SetDecodes 4 ∧ SetDecodes 8 ∧ SetDecodes 12 := by
  have hsent : ∀ which ∈ [15, 4, 8, 12], ((mdnsBuiltinStart (bytes "sdr-0001") 5555 announcedTxt
      (sAddr 192 168 1 7)).sendRecords which 120).isSome := by decide +kernel
  have hset : ∀ which ∈ [15, 4, 8, 12], SetDecodes which := by
    intro which hwhich
    obtain ⟨pkt, hpkt⟩ := Option.isSome_iff_exists.mp (hsent which hwhich)
    refine ⟨pkt, hpkt, ?_⟩
    exact (response_decodes ⟨by decide, by decide, by decide, by decide⟩ 5555 announcedTxt 192 168 1 7
      which 120 hpkt _).mpr rfl
  exact ⟨hset 15 (by decide), hset 4 (by decide), hset 8 (by decide), hset 12 (by decide)⟩

end SlcRtld.Property
