import SlcRtld.Mdns.Query

/-!
# Queries are read question by question

What `records_for_query` returns for a query, against what its questions ask for one by one. A name
is read and the next question is found when the name has at most 63 labels, and the last of them is
among its first 64 labels and pointers; then the result is the union over the questions
(`recordsForQuery_eq`). With one more label the loop of `dns_read_name` stops before it has seen the
end of the name, and what follows is read from the wrong position; with one more pointer the name is
cut (`query_read_iff`).

Whatever a packet holds, nothing is read outside of it, and names stay inside the buffer that they
are written to (`query_parsing_safe`): an access outside would leave the reader without a result.
-/

namespace SlcRtld.Property

open Libc Dns Mdns

/-- The texts agree up to upper and lower case. -/
def SameText (a b : CStr) : Prop := a.map toLower = b.map toLower

/-- Texts are compared byte by byte. -/
instance (a b : CStr) : Decidable (SameText a b) := inferInstanceAs (Decidable (_ = _))

/-- The records that a question asks for: those of the service and of the services enumeration for
PTR, those of the instance for SRV and TXT, that of the host for A, and each also for ANY. -/
def questionSet (i : CStr) (x : Question) : ℕ :=
  let asks (name : String) (type : UInt16) := SameText (joined x.name) (bytes name) ∧
    (x.type = type.toNat ∨ x.type = dnsTypeAny.toNat)
  let asksOf (rest : String) (type : UInt16) := SameText (joined x.name) (i ++ bytes rest) ∧
    (x.type = type.toNat ∨ x.type = dnsTypeAny.toNat)
  (if asks "_sdr-slc._tcp.local" dnsTypePtr then rAll else 0) |||
    (if asks "_services._dns-sd._udp.local" dnsTypePtr then rAll else 0) |||
    (if asksOf "._sdr-slc._tcp.local" dnsTypeSrv then rSrv ||| rA else 0) |||
    (if asksOf "._sdr-slc._tcp.local" dnsTypeTxt then rTxt else 0) |||
    (if asksOf ".local" dnsTypeA then rA else 0)

/-- The union over the questions. -/
def querySet (i : CStr) (qs : List Question) : ℕ := qs.foldl (fun which x => which ||| questionSet i x) 0

/-- The packet is a query for the questions. Each name is at most 255 octets long, its labels have
no dot and no NUL, and the last of them is among the first `n` labels and pointers. -/
structure Query (n : ℕ) (pkt : List UInt8) (qs : List Question) : Prop where
  header : 12 ≤ pkt.length
  flags : ∃ f, u16At pkt 2 = some f ∧ f < 2 ^ 15
  qdcount : u16At pkt 4 = some qs.length
  names : ∀ x ∈ qs, x.name.octets ≤ 255 ∧ ∀ l ∈ x.name, (0x2e : UInt8) ∉ l ∧ (0 : UInt8) ∉ l
  questions : ∃ e, SeqAt (fun p x q => QuestionAt pkt p x q ∧ Within pkt n p) 12 qs e

/-- A looser bound on the way through the names. -/
theorem Query.mono {n m : ℕ} {pkt : List UInt8} {qs : List Question} (h : Query n pkt qs)
    (hle : n ≤ m) : Query m pkt qs := by
  obtain ⟨header, flags, qdcount, names, e, questions⟩ := h
  exact ⟨header, flags, qdcount, names, e, questions.imp fun hx => ⟨hx.1, hx.2.mono hle⟩⟩

/-- Where the last label is so early there are not more labels. -/
theorem Query.few {n : ℕ} {pkt : List UInt8} {qs : List Question} (h : Query n pkt qs) :
    ∀ x ∈ qs, x.name.length ≤ n := by
  have hseq : ∀ {p e : ℕ} {xs : List Question},
      SeqAt (fun p x q => QuestionAt pkt p x q ∧ Within pkt n p) p xs e → ∀ x ∈ xs, x.name.length ≤ n := by
    intro p e xs hxs
    induction hxs with
    | nil => exact List.forall_mem_nil _
    | cons hx _ ih =>
      obtain ⟨⟨hname, -⟩, hwithin⟩ := hx
      exact List.forall_mem_cons.mpr ⟨hwithin.length_le hname, ih⟩
  obtain ⟨e, hquestions⟩ := h.questions
  exact hseq hquestions

/-! ## Reading the questions -/

section
variable {pkt : List UInt8}

/-- A number of two bytes. -/
theorem u16At_some {p v : ℕ} (h : u16At pkt p = some v) :
    ∃ hi lo, pkt[p]? = some hi ∧ pkt[p + 1]? = some lo ∧ hi.toNat <<< 8 ||| lo.toNat = v := by
  obtain ⟨hi, hhi, h⟩ := Option.bind_eq_some_iff.mp h
  obtain ⟨lo, hlo, h⟩ := Option.bind_eq_some_iff.mp h
  refine ⟨hi, lo, hhi, hlo, ?_⟩
  rw [shiftLeft_or]
  exact Option.some.inj h

/-- The bit that marks a response. -/
theorem and_response (x : UInt8) : x.toNat < 128 → x &&& 0x80 = 0 :=
  toNat_induction (P := fun x => x.toNat < 128 → x &&& 0x80 = 0) (by decide +kernel) x

/-- One round of the loop, when the name has been read. -/
theorem readQuestions_succ {n start pos type cls : ℕ} {name : CStr}
    (hname : dnsReadName pkt start 256 = some (some (name, pos))) (htype : u16At pkt pos = some type)
    (hcls : u16At pkt (pos + 2) = some cls) :
    readQuestions pkt (n + 1) start =
      (readQuestions pkt n (pos + 4)).map (⟨start, name, type⟩ :: ·) := by
  obtain ⟨hi, lo, hhi, hlo, rfl⟩ := u16At_some htype
  obtain ⟨_, _, -, hlast, -⟩ := u16At_some hcls
  have hfits : ¬ pkt.length < pos + 4 := by
    have := lt_of_getElem? hlast
    omega
  rw [readQuestions, hname]
  show (if pkt.length < pos + 4 then _ else _) = _
  rw [if_neg hfits, hhi, hlo]
  cases readQuestions pkt n (pos + 4) <;> rfl

/-- The questions are read as they stand in the packet. -/
theorem readQuestions_eq {p e : ℕ} {qs : List Question}
    (hnames : ∀ x ∈ qs, x.name.octets ≤ 255 ∧ x.name.length ≤ 63)
    (h : SeqAt (fun p x q => QuestionAt pkt p x q ∧ Within pkt 64 p) p qs e) :
    ∃ asked, readQuestions pkt qs.length p = some asked ∧
      asked.map (fun a => (a.name, a.qtype)) = qs.map (fun x => (joined x.name, x.type)) := by
  induction h with
  | nil => exact ⟨[], rfl, rfl⟩
  | @cons p q r x xs hx _ ih =>
    obtain ⟨⟨hshort, hfew⟩, hnames⟩ := List.forall_mem_cons.mp hnames
    obtain ⟨asked, hread, hasked⟩ := ih hnames
    obtain ⟨⟨hname, htype, hcls⟩, hwithin⟩ := hx
    refine ⟨⟨p, joined x.name, x.type⟩ :: asked, ?_, ?_⟩
    · rw [List.length_cons, readQuestions_succ (dnsReadName_eq hname hshort hwithin hfew) htype hcls, hread]
      rfl
    · rw [List.map_cons, List.map_cons, hasked]

/-- The questions of a query are read. -/
theorem queryQuestions_eq {qs : List Question} (h : Query 64 pkt qs)
    (hfew : ∀ x ∈ qs, x.name.length ≤ 63) :
    ∃ asked, queryQuestions pkt = some asked ∧
      asked.map (fun a => (a.name, a.qtype)) = qs.map (fun x => (joined x.name, x.type)) := by
  obtain ⟨f, hflags, hf⟩ := h.flags
  obtain ⟨b₂, b₃, hb₂, -, rfl⟩ := u16At_some hflags
  obtain ⟨b₄, b₅, hb₄, hb₅, hqd⟩ := u16At_some h.qdcount
  obtain ⟨e, hquestions⟩ := h.questions
  obtain ⟨asked, hread, hasked⟩ := readQuestions_eq (fun x hx => ⟨(h.names x hx).1, hfew x hx⟩) hquestions
  have hquery : b₂ &&& 0x80 = 0 := by
    rw [shiftLeft_or] at hf
    exact and_response b₂ (by omega)
  refine ⟨asked, ?_, hasked⟩
  rw [queryQuestions, if_neg (Nat.not_lt.mpr h.header), hb₂]
  show (if b₂ &&& 0x80 ≠ 0 then _ else _) = _
  rw [if_neg (not_not.mpr hquery), hb₄, hb₅]
  show (if b₄.toNat <<< 8 ||| b₅.toNat = 0 then _ else readQuestions pkt (b₄.toNat <<< 8 ||| b₅.toNat) 12) = _
  rw [hqd, hread]
  split_ifs with hzero
  · rw [List.length_eq_zero_iff.mp hzero] at hasked
    rw [List.map_eq_nil_iff.mp hasked]
    rfl
  · rfl

end

/-! ## What a question asks for -/

/-- The instance name of a responder, as its buffer holds it. -/
structure Named (r : Responder) : Prop where
  short : r.instanceName.length ≤ 63
  noNul : (0 : UInt8) ∉ r.instanceName

/-- The comparison of the code is the comparison up to case. -/
theorem sameCaseless_iff {a b : CStr} (ha : (0 : UInt8) ∉ a) (hb : (0 : UInt8) ∉ b) :
    sameCaseless a b = true ↔ SameText a b := by
  rw [sameCaseless, decide_eq_true_iff, cstr_of_no_nul ha, cstr_of_no_nul hb, SameText]

/-- A name without NULs. -/
theorem joined_noNul {n : Name} (hn : ∀ l ∈ n, (0 : UInt8) ∉ l) : (0 : UInt8) ∉ joined n := by
  cases n with
  | nil => exact List.not_mem_nil
  | cons x rest =>
    obtain ⟨hx, hrest⟩ := List.forall_mem_cons.mp hn
    rw [joined_cons, List.mem_append, List.mem_flatMap]
    rintro (h | ⟨l, hl, h⟩)
    · exact hx h
    · rcases List.mem_cons.mp h with h | h
      · cases h
      · exact hrest l hl h

/-- A chain of branches is a union when a later branch does not add to an earlier one. -/
theorem chain_eq_union {svc services inst srv txt host : Prop} [Decidable svc] [Decidable services]
    [Decidable inst] [Decidable srv] [Decidable txt] [Decidable host] (h : inst → ¬ host) :
    (if svc then rAll else if services then rAll else
      if inst then (if srv then rSrv ||| rA else 0) ||| (if txt then rTxt else 0)
      else if host then rA else 0) =
    (if svc then rAll else 0) ||| (if services then rAll else 0) |||
      (if inst ∧ srv then rSrv ||| rA else 0) ||| (if inst ∧ txt then rTxt else 0) |||
      (if host then rA else 0) := by
  by_cases hsvc : svc
  · simp only [if_pos hsvc]
    split_ifs <;> rfl
  by_cases hservices : services
  · simp only [if_neg hsvc, if_pos hservices]
    split_ifs <;> rfl
  by_cases hinst : inst
  · simp only [if_neg hsvc, if_neg hservices, if_neg (h hinst), hinst, true_and, if_true, Nat.zero_or,
      Nat.or_zero]
  · simp only [if_neg hsvc, if_neg hservices, hinst, false_and, if_false, Nat.zero_or]

section
variable {r : Responder} (hr : Named r)
include hr

/-- The instance's name is built in one buffer. -/
theorem inst_eq : r.inst = r.instanceName ++ bytes "._sdr-slc._tcp.local" := by
  have hrest : bytes "." ++ (slcServiceType ++ bytes ".local") = bytes "._sdr-slc._tcp.local" := by
    decide
  have hshort := hr.short
  have hlength : (bytes "._sdr-slc._tcp.local").length = 20 := by decide
  rw [Responder.inst, snprintf, List.append_assoc, List.append_assoc, hrest]
  refine List.take_of_length_le ?_
  rw [List.length_append, hlength]
  omega

/-- The host's name is built in one buffer. -/
theorem host_eq : r.host = r.instanceName ++ bytes ".local" := by
  have hshort := hr.short
  have hlength : (bytes ".local").length = 6 := by decide
  rw [Responder.host, snprintf]
  refine List.take_of_length_le ?_
  rw [List.length_append, hlength]
  omega

/-- The instance and the host have different names. -/
theorem not_inst_and_host {name : CStr} (hinst : SameText name r.inst) (hhost : SameText name r.host) :
    False := by
  have hlength := congrArg List.length (hinst.symm.trans hhost)
  have hi : (bytes "._sdr-slc._tcp.local").length = 20 := by decide
  have hh : (bytes ".local").length = 6 := by decide
  rw [List.length_map, List.length_map, inst_eq hr, host_eq hr, List.length_append, List.length_append,
    hi, hh] at hlength
  omega

/-- The branches of `records_for_query` make up the set of a question. -/
theorem recordsForQuestion_eq {x : Question} (hx : ∀ l ∈ x.name, (0 : UInt8) ∉ l) :
    r.recordsForQuestion (joined x.name) x.type = questionSet r.instanceName x := by
  have hname := joined_noNul hx
  have hinst : (0 : UInt8) ∉ r.inst := by
    rw [inst_eq hr, List.mem_append]
    exact not_or.mpr ⟨hr.noNul, by decide⟩
  have hhost : (0 : UInt8) ∉ r.host := by
    rw [host_eq hr, List.mem_append]
    exact not_or.mpr ⟨hr.noNul, by decide⟩
  have hsvc : Responder.svc = bytes "_sdr-slc._tcp.local" := by decide
  have hservices : servicesName = bytes "_services._dns-sd._udp.local" := rfl
  simp only [Responder.recordsForQuestion, questionSet, sameCaseless_iff hname hinst,
    sameCaseless_iff hname hhost, sameCaseless_iff hname (by decide : (0 : UInt8) ∉ Responder.svc),
    sameCaseless_iff hname (by decide : (0 : UInt8) ∉ servicesName), ← inst_eq hr, ← host_eq hr, ← hsvc,
    ← hservices, or_comm (a := x.type = dnsTypeAny.toNat)]
  refine chain_eq_union ?_
  rintro hi ⟨hh, -⟩
  exact not_inst_and_host hr hi hh

/-- A query whose names are read gets the union over its questions. -/
theorem recordsForQuery_eq {pkt : List UInt8} {qs : List Question} (h : Query 64 pkt qs)
    (hfew : ∀ x ∈ qs, x.name.length ≤ 63) :
    r.recordsForQuery pkt = some (querySet r.instanceName qs) := by
  obtain ⟨asked, hread, hasked⟩ := queryQuestions_eq h hfew
  have hfold : ∀ which : ℕ, asked.foldl (fun which a => which ||| r.recordsForQuestion a.name a.qtype)
      which = qs.foldl (fun which x => which ||| questionSet r.instanceName x) which := by
    have hnames := fun x hx l hl => ((h.names x hx).2 l hl).2
    clear h hread hfew
    induction qs generalizing asked with
    | nil =>
      rw [List.map_eq_nil_iff.mp hasked]
      exact fun _ => rfl
    | cons x qs ih =>
      obtain ⟨a, rest, rfl, ha, hrest⟩ := List.map_eq_cons_iff.mp hasked
      obtain ⟨hx, hqs⟩ := List.forall_mem_cons.mp hnames
      intro which
      have hset : r.recordsForQuestion a.name a.qtype = questionSet r.instanceName x := by
        rw [← recordsForQuestion_eq hr hx, ← (Prod.mk.inj ha).1, ← (Prod.mk.inj ha).2]
      rw [List.foldl_cons, List.foldl_cons, hset, ih rest hrest hqs]
  rw [Responder.recordsForQuery, hread]
  exact congrArg some (hfold 0)

end

/-! ## Names that are too long -/

/-- The bytes of a question whose name is written in full. -/
def questionBytes (x : Question) : List UInt8 :=
  nameBytes x.name ++ (lengthBytes x.type ++ lengthBytes x.cls)

/-- The packet of a query whose names are written in full. -/
def queryBytes (qs : List Question) : List UInt8 :=
  [0, 0, 0, 0] ++ (lengthBytes qs.length ++ [0, 0, 0, 0, 0, 0]) ++ qs.flatMap questionBytes

/-- A question whose name is written in full is found again. -/
theorem questionAt_of_bytes {pkt : List UInt8} {p n : ℕ} {x : Question} (hname : Name.Valid x.name)
    (htype : x.type < 65536) (hcls : x.cls < 65536) (hfew : x.name.length ≤ n)
    (h : Has pkt p (questionBytes x)) :
    QuestionAt pkt p x (p + (questionBytes x).length) ∧ Within pkt n p := by
  obtain ⟨hbytes, h⟩ := has_append.mp h
  obtain ⟨htype', hcls'⟩ := has_append.mp h
  have hend : p + (questionBytes x).length = p + (nameBytes x.name).length + 4 := by
    rw [questionBytes, List.length_append]
    rfl
  rw [hend]
  exact ⟨.intro (nameAt_of_bytes hname hbytes) (u16At_of_lengthBytes htype htype')
    (u16At_of_lengthBytes hcls hcls'), (within_of_bytes hname hbytes).mono hfew⟩

/-- Questions whose names are written in full are a query. -/
theorem query_of_bytes {n : ℕ} {qs : List Question} (hcount : qs.length < 65536)
    (hqs : ∀ x ∈ qs, Name.Valid x.name ∧ x.type < 65536 ∧ x.cls < 65536 ∧ x.name.length ≤ n)
    (hnames : ∀ x ∈ qs, x.name.octets ≤ 255 ∧ ∀ l ∈ x.name, (0x2e : UInt8) ∉ l ∧ (0 : UInt8) ∉ l) :
    Query n (queryBytes qs) qs := by
  have hseq : ∀ (xs : List Question) (p : ℕ), (∀ x ∈ xs, x ∈ qs) →
      Has (queryBytes qs) p (xs.flatMap questionBytes) →
      ∃ e, SeqAt (fun p x q => QuestionAt (queryBytes qs) p x q ∧ Within (queryBytes qs) n p) p xs e := by
    intro xs
    induction xs with
    | nil => exact fun p _ _ => ⟨p, .nil⟩
    | cons x xs ih =>
      intro p hsub hhas
      obtain ⟨hx, hxs⟩ := List.forall_mem_cons.mp hsub
      obtain ⟨hthis, hrest⟩ := has_append.mp hhas
      obtain ⟨hname, htype, hcls, hfew⟩ := hqs x hx
      obtain ⟨e, he⟩ := ih _ hxs hrest
      exact ⟨e, .cons (questionAt_of_bytes hname htype hcls hfew hthis) he⟩
  have hsplit := has_append.mp (has_self (queryBytes qs))
  have hheader := has_append.mp hsplit.1
  exact {
    header := by
      rw [queryBytes, List.length_append]
      exact Nat.le_add_right 12 _
    flags := ⟨0, rfl, by decide⟩
    qdcount := u16At_of_lengthBytes hcount (has_append.mp hheader.2).1
    names := hnames
    questions := hseq qs 12 (fun _ h => h) hsplit.2 }

/-- A name of labels of one byte. -/
def longName (n : ℕ) : Name := List.replicate n [0x61]

/-- A question for a long name, and a question for the service. -/
def longQuestions : List Question :=
  [⟨longName 64, 1, 1⟩, ⟨[bytes "_sdr-slc", bytes "_tcp", bytes "local"], 12, 1⟩]

/-- The packet asks the two questions. -/
theorem longQuestions_query : Query 64 (queryBytes longQuestions) longQuestions := by
  refine query_of_bytes (by decide) ?_ ?_
  · show ∀ x ∈ longQuestions, (∀ l ∈ x.name, l ≠ [] ∧ l.length ≤ 63) ∧ _
    decide
  · decide +kernel

/-- A responder. -/
def someResponder : Responder :=
  mdnsBuiltinStart (bytes "SLC-6107C0") 5555
    ⟨bytes "SLC-6107C0", bytes "sdr-slc", bytes "1.0", bytes "rx", bytes "rtl2832u", bytes "0.20",
      24000000, 1766000000⟩ (sAddr 192 168 1 7)

/-- The responder has a short name without NULs. -/
theorem someResponder_named : Named someResponder := ⟨by decide, by decide⟩

/-- It does not see the second question. -/
theorem longQuestions_missed : someResponder.recordsForQuery (queryBytes longQuestions) = some 0 := by
  decide +kernel

/-- Where the pointers of a chain stand that runs through two labels. -/
def chainAt (k : ℕ) : ℕ := if k < 30 then 39 + 2 * k else 40 + 2 * k

/-- The second question of the chained query: its labels hold pointers, each to the one before it,
and the first to the service in the first question. -/
def chainLabels : Name :=
  [0x61 :: (0xc0 :: 12 :: (List.range 29).flatMap fun k => [0xc0, (chainAt k).toUInt8]),
    (List.range 31).flatMap fun k => [0xc0, (chainAt (29 + k)).toUInt8]]

/-- A question for the service, one whose labels hold a chain of pointers, and one for the service
whose name is a pointer to the end of the chain. -/
def chainedQuery : List UInt8 :=
  [0, 0, 0, 0, 0, 3, 0, 0, 0, 0, 0, 0] ++ questionBytes ⟨serviceLabels, 1, 1⟩ ++
    questionBytes ⟨chainLabels, 1, 1⟩ ++ [0xc0, 160, 0, 12, 0, 1]

@[inherit_doc chainedQuery]
def chainedQuestions : List Question := [⟨serviceLabels, 1, 1⟩, ⟨chainLabels, 1, 1⟩, ⟨serviceLabels, 12, 1⟩]

/-- The labels are labels of the protocol. -/
theorem chainLabels_valid : Name.Valid chainLabels :=
  (by decide : ∀ x ∈ chainLabels, x ≠ [] ∧ x.length ≤ 63)

/-- The induction goes up the chain: each pointer is one more on the way to the service. -/
theorem chainedQuery_chain {k : ℕ} (hk : k < 61) :
    NameAt chainedQuery (chainAt k) serviceLabels (chainAt k + 2) ∧
      Within chainedQuery (k + 4) (chainAt k) := by
  have hbytes : ∀ k < 61, Has chainedQuery (chainAt k)
      [(0xc0 + (if k = 0 then 12 else chainAt (k - 1)) / 256).toUInt8,
        ((if k = 0 then 12 else chainAt (k - 1)) % 256).toUInt8] := by
    unfold Has
    decide
  have hservice : Has chainedQuery 12 (nameBytes serviceLabels) := ⟨_, rfl⟩
  induction k with
  | zero =>
    exact ⟨nameAt_of_pointer (by decide) (by decide) (hbytes 0 hk) (nameAt_of_bytes serviceLabels_valid hservice),
      within_of_pointer (by decide) (hbytes 0 hk) (within_of_bytes serviceLabels_valid hservice)⟩
  | succ k ih =>
    obtain ⟨hname, hwithin⟩ := ih (by omega)
    have hbefore : chainAt k < chainAt (k + 1) ∧ chainAt k < 0x4000 := by
      unfold chainAt
      split_ifs <;> omega
    have hthis := hbytes (k + 1) hk
    rw [if_neg (Nat.succ_ne_zero k), Nat.add_sub_cancel] at hthis
    exact ⟨nameAt_of_pointer hbefore.1 hbefore.2 hthis hname, within_of_pointer hbefore.2 hthis hwithin⟩

/-- The packet asks the three questions. -/
theorem chainedQuestions_query : Query 65 chainedQuery chainedQuestions where
  header := by decide +kernel
  flags := ⟨0, by decide, by decide⟩
  qdcount := by decide
  names := by decide +kernel
  questions := by
    obtain ⟨hname, hwithin⟩ := chainedQuery_chain (k := 60) (by decide)
    have hpointer : Has chainedQuery 167 [(0xc0 + 160 / 256).toUInt8, (160 % 256).toUInt8] := by
      unfold Has
      decide
    have hservice : Has chainedQuery 12 (questionBytes ⟨serviceLabels, 1, 1⟩) := ⟨_, rfl⟩
    have hchain : Has chainedQuery 37 (questionBytes ⟨chainLabels, 1, 1⟩) := by
      unfold Has
      decide
    obtain ⟨hfirst, hfirst'⟩ := questionAt_of_bytes (n := 65) serviceLabels_valid (by decide)
      (by decide) (by decide) hservice
    obtain ⟨hsecond, hsecond'⟩ := questionAt_of_bytes (n := 65) chainLabels_valid (by decide)
      (by decide) (by decide) hchain
    have hend : 12 + (questionBytes ⟨serviceLabels, 1, 1⟩).length = 37 := by decide
    have hend' : 37 + (questionBytes ⟨chainLabels, 1, 1⟩).length = 167 := by decide +kernel
    rw [hend] at hfirst
    rw [hend'] at hsecond
    have hthird : QuestionAt chainedQuery 167 ⟨serviceLabels, 12, 1⟩ 173 :=
      .intro (nameAt_of_pointer (by decide) (by decide) hpointer hname) (by decide)
        (by decide)
    exact ⟨173, .cons ⟨hfirst, hfirst'⟩ (.cons ⟨hsecond, hsecond'⟩
      (.cons ⟨hthird, within_of_pointer (by decide) hpointer hwithin⟩ .nil))⟩

/-- The responder does not see the last question. -/
theorem chainedQuestions_missed : someResponder.recordsForQuery chainedQuery = some 0 := by
  decide +kernel

/-- Queries whose names have at most 63 labels get the union over their questions as long as the
last label of each name is among its first 64 labels and pointers, and not always when it is the
next one; queries with names of any number of labels, as long as it is among the first 63. -/
theorem query_read_iff (n : ℕ) :
    ((∀ (r : Responder) (pkt : List UInt8) (qs : List Question), Named r → Query n pkt qs →
      (∀ x ∈ qs, x.name.length ≤ 63) → r.recordsForQuery pkt = some (querySet r.instanceName qs)) ↔
      n ≤ 64) ∧
    ((∀ (r : Responder) (pkt : List UInt8) (qs : List Question), Named r → Query n pkt qs →
      r.recordsForQuery pkt = some (querySet r.instanceName qs)) ↔ n ≤ 63) := by
  refine ⟨⟨fun hread => ?_, fun hn r pkt qs hr hquery hfew => ?_⟩,
    ⟨fun hread => ?_, fun hn r pkt qs hr hquery => ?_⟩⟩
  · by_contra hn
    have hquery : Query n chainedQuery chainedQuestions := chainedQuestions_query.mono (by omega)
    have hall := hread someResponder _ _ someResponder_named hquery (by decide)
    rw [chainedQuestions_missed] at hall
    exact absurd hall (by decide)
  · exact recordsForQuery_eq hr (hquery.mono hn) hfew
  · by_contra hn
    have hquery : Query n (queryBytes longQuestions) longQuestions :=
      longQuestions_query.mono (by omega)
    have hall := hread someResponder _ _ someResponder_named hquery
    rw [longQuestions_missed] at hall
    exact absurd hall (by decide)
  · exact recordsForQuery_eq hr (hquery.mono (hn.trans (by decide)))
      fun x hx => (hquery.few x hx).trans hn

/-- A question for the service is not seen behind a name of 64 labels. -/
theorem long_name_hides_service : Query 64 (queryBytes longQuestions) longQuestions ∧
    someResponder.recordsForQuery (queryBytes longQuestions) = some 0 ∧
    querySet someResponder.instanceName longQuestions = rAll :=
  ⟨longQuestions_query, longQuestions_missed, by decide⟩

/-- A question for the addresses of the service, and one for the strings of the instance, whose name
ends in a pointer to the first. -/
def pointedQuery : List UInt8 :=
  [0, 0, 0, 0, 0, 2, 0, 0, 0, 0, 0, 0] ++ (8 :: bytes "_sdr-slc") ++ (4 :: bytes "_tcp") ++
    (5 :: bytes "local") ++ [0, 0, 1, 0, 1] ++ (10 :: bytes "slc-6107c0") ++ [0xc0, 12, 0, 16, 0, 1]

@[inherit_doc pointedQuery]
def pointedQuestions : List Question :=
  [⟨[bytes "_sdr-slc", bytes "_tcp", bytes "local"], 1, 1⟩,
    ⟨[bytes "slc-6107c0", bytes "_sdr-slc", bytes "_tcp", bytes "local"], 16, 1⟩]

/-- The packet asks the two questions. -/
theorem pointedQuery_query : Query 63 pointedQuery pointedQuestions where
  header := by decide
  flags := ⟨0, by decide, by decide⟩
  qdcount := by decide
  names := by decide
  questions := by
    have hvalid : Name.Valid [bytes "_sdr-slc", bytes "_tcp", bytes "local"] :=
      (by decide : ∀ x ∈ [bytes "_sdr-slc", bytes "_tcp", bytes "local"], x ≠ [] ∧ x.length ≤ 63)
    have hbytes : Has pointedQuery 12 (nameBytes [bytes "_sdr-slc", bytes "_tcp", bytes "local"]) :=
      ⟨_, rfl⟩
    have hservice := nameAt_of_bytes hvalid hbytes
    have hwithin := within_of_bytes hvalid hbytes
    have hpointer : NameAt pointedQuery 48 [bytes "_sdr-slc", bytes "_tcp", bytes "local"] 50 :=
      nameAt_of_pointer (by decide) (by decide) ⟨_, rfl⟩ hservice
    have hinstance := NameAt.label (x := bytes "slc-6107c0") (by decide) (by decide)
      (by decide : pointedQuery[37]? = _) ⟨_, rfl⟩ hpointer
    have hwithin' : Within pointedQuery 63 37 :=
      .label (x := bytes "slc-6107c0") (by decide) (by decide) (by decide)
        (.pointer (by decide : pointedQuery[48]? = some 0xc0) (by decide)
          (by decide : pointedQuery[49]? = some 12) (hwithin.mono (by decide)))
    exact ⟨54, .cons ⟨.intro hservice (by decide) (by decide), hwithin.mono (by decide)⟩
      (.cons ⟨.intro hinstance (by decide) (by decide), hwithin'⟩ .nil)⟩

/-- The responder sees both. -/
theorem query_read_pointed : someResponder.recordsForQuery pointedQuery = some rTxt :=
  ((query_read_iff 63).2.mpr (Nat.le_refl 63) someResponder pointedQuery pointedQuestions
    someResponder_named pointedQuery_query).trans (by decide)

/-! ## Hostile packets -/

/-- A result of `dns_read_name` that keeps to the bounds: the position stays inside the packet, and
the name and its NUL inside the buffer. -/
def InBounds (buf : List UInt8) (cap : ℕ) (res : Option (CStr × ℕ)) : Prop :=
  ∀ name pos, res = some (name, pos) → pos ≤ buf.length ∧ name.length + 1 ≤ cap

section
variable {buf : List UInt8} {cap : ℕ}

/-- A name that is refused. -/
theorem inBounds_none : InBounds buf cap none := nofun

/-- The end of a name. -/
theorem readNameEnd_safe {pos : ℕ} {out : CStr} (hpos : pos ≤ buf.length) (hout : out.length + 1 ≤ cap) :
    ∃ res, readNameEnd cap pos out = some res ∧ InBounds buf cap res := by
  refine ⟨some (out, pos), ?_, ?_⟩
  · rw [readNameEnd, store, List.length_singleton, if_pos hout]
    rfl
  · rintro _ _ ⟨⟩
    exact ⟨hpos, hout⟩

/-- Wherever a label or a pointer leads, the loop keeps to the bounds. -/
theorem readNameLoop_safe (guard p : ℕ) (pos : Option ℕ) (out : CStr)
    (hpos : pos.getD p ≤ buf.length) (hout : out.length + 1 ≤ cap) :
    ∃ res, readNameLoop buf cap guard p pos out = some res ∧ InBounds buf cap res := by
  induction guard generalizing p pos out with
  | zero => exact readNameEnd_safe hpos hout
  | succ guard ih =>
    -- after a pointer the position to resume at is fixed, and it is in the buffer
    have hnext : ∀ q ≤ buf.length, pos.getD q ≤ buf.length := by
      intro q hq
      cases pos with
      | none => exact hq
      | some s => exact hpos
    by_cases hp : buf.length ≤ p
    · rw [readNameLoop, if_pos hp]
      exact ⟨none, rfl, inBounds_none⟩
    obtain ⟨l, hl⟩ : ∃ l, buf[p]? = some l := ⟨_, List.getElem?_eq_getElem (Nat.not_le.mp hp)⟩
    by_cases hzero : l = 0
    · rw [readNameLoop_root (hzero ▸ hl)]
      exact readNameEnd_safe (hnext _ (by omega)) hout
    -- a label is copied only if it lies in the buffer and there is room for it and a dot
    by_cases hcopy : ¬ l &&& 0xc0 = 0xc0 ∧ p + 1 + l.toNat ≤ buf.length ∧ out.length + l.toNat + 2 ≤ cap
    · obtain ⟨hmark, hfits, hcap⟩ := hcopy
      rw [readNameLoop_copy hl hzero hmark hfits hcap]
      refine ih _ _ _ (hnext _ hfits) ?_
      have hlength : ((buf.drop (p + 1)).take l.toNat).length ≤ l.toNat := List.length_take_le _ _
      unfold joinLabel
      split_ifs
      · omega
      · rw [List.length_append, List.length_cons]
        omega
    -- what is left: a pointer, a label that runs over the end, and one without room
    rw [readNameLoop, if_neg hp, hl]
    show ∃ res, (if l = 0 then _ else _) = some res ∧ _
    rw [if_neg hzero]
    by_cases hmark : l &&& 0xc0 = 0xc0
    · rw [if_pos hmark]
      by_cases hlo : buf.length ≤ p + 1
      · rw [if_pos hlo]
        exact ⟨none, rfl, inBounds_none⟩
      rw [if_neg hlo, List.getElem?_eq_getElem (Nat.not_le.mp hlo)]
      exact ih _ _ _ (hnext _ (by omega)) hout
    · rw [if_neg hmark]
      by_cases hlabel : buf.length < p + 1 + l.toNat
      · rw [if_pos hlabel]
        exact ⟨none, rfl, inBounds_none⟩
      have hcap : cap < out.length + l.toNat + 2 := by
        by_contra hroom
        exact hcopy ⟨hmark, by omega, by omega⟩
      rw [if_neg hlabel, if_pos hcap]
      exact ⟨none, rfl, inBounds_none⟩

/-- The questions are read inside the packet. -/
theorem readQuestions_safe (n pos : ℕ) (hpos : pos ≤ buf.length) : (readQuestions buf n pos).isSome := by
  induction n generalizing pos with
  | zero => rfl
  | succ n ih =>
    obtain ⟨res, hread, hbounds⟩ := readNameLoop_safe 64 pos none [] hpos (by decide : 0 + 1 ≤ 256)
    rw [readQuestions, dnsReadName, hread]
    cases res with
    | none => rfl
    | some found =>
      obtain ⟨name, pos'⟩ := found
      show ((if buf.length < pos' + 4 then some [] else _ : Option (List Asked))).isSome
      by_cases hfits : buf.length < pos' + 4
      · rw [if_pos hfits]
        rfl
      · have hrest := ih (pos' + 4) (Nat.not_lt.mp hfits)
        obtain ⟨rest, hrest⟩ := Option.isSome_iff_exists.mp hrest
        rw [if_neg hfits, List.getElem?_eq_getElem (by omega), List.getElem?_eq_getElem (by omega), hrest]
        rfl

/-- The questions of any packet are read. -/
theorem queryQuestions_safe (buf : List UInt8) : (queryQuestions buf).isSome := by
  unfold queryQuestions
  by_cases hshort : buf.length < 12
  · rw [if_pos hshort]
    rfl
  rw [if_neg hshort, List.getElem?_eq_getElem (by omega), List.getElem?_eq_getElem (by omega),
    List.getElem?_eq_getElem (by omega)]
  generalize buf[2] = flags
  generalize buf[4] = hi
  generalize buf[5] = lo
  show ((if flags &&& 0x80 ≠ 0 then some []
    else if hi.toNat <<< 8 ||| lo.toNat = 0 then some [] else readQuestions buf _ 12 :
      Option (List Asked))).isSome
  split_ifs
  · rfl
  · rfl
  · exact readQuestions_safe _ 12 (Nat.not_lt.mp hshort)

end

/-- Whatever has been received, `records_for_query` returns, and neither it nor `dns_read_name` from
a position in the packet into a buffer that has room for a NUL makes an access outside the packet or
outside the buffer. -/
theorem query_parsing_safe :
    (∀ (r : Responder) (buf : List UInt8), (r.recordsForQuery buf).isSome) ∧
      ∀ (buf : List UInt8) (pos cap : ℕ), pos ≤ buf.length → 1 ≤ cap →
        ∃ res, dnsReadName buf pos cap = some res ∧ InBounds buf cap res := by
  refine ⟨fun r buf => ?_, fun buf pos cap hpos hcap => readNameLoop_safe 64 pos none [] hpos hcap⟩
  obtain ⟨asked, hasked⟩ := Option.isSome_iff_exists.mp (queryQuestions_safe buf)
  rw [Responder.recordsForQuery, hasked]
  rfl

/-- A pointer to itself is followed until the rounds are used up, and a label that is longer than
the packet is not read. -/
theorem query_parsing_safe_hostile :
    (∃ res, dnsReadName [0xc0, 0] 0 1 = some res ∧ InBounds [0xc0, 0] 1 res) ∧
      dnsReadName [0xc0, 0] 0 1 = some (some ([], 2)) ∧ dnsReadName [63, 0x61] 0 256 = some none ∧
      (someResponder.recordsForQuery [0xc0, 0]).isSome :=
  ⟨query_parsing_safe.2 _ 0 1 (Nat.zero_le _) (Nat.le_refl 1), by decide +kernel, by decide +kernel,
    query_parsing_safe.1 someResponder _⟩

end SlcRtld.Property
