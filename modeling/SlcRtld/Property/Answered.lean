import SlcRtld.Property.Announce
import SlcRtld.Property.Questions

/-!
# Which questions are answered

`records_for_query` decides by the text of a name which records to send, and `send_records` writes
their owners. A question that is recognised by the text of one of the three owners finds its record
in the response (`recognised_answered`). The text is the name when the labels have no dot and no NUL
and have all been read. The one recognised name that no record has is that of the services
enumeration (`answered_iff`).
-/

namespace SlcRtld.Property

open Libc Dns Mdns

/-! ## Names up to case -/

/-- The names agree label by label, up to upper and lower case. -/
def SameName (a b : Name) : Prop := a.map (List.map toLower) = b.map (List.map toLower)

/-- Names are compared label by label. -/
instance (a b : Name) : Decidable (SameName a b) := inferInstanceAs (Decidable (_ = _))

/-- The labels have no dot and no NUL. -/
def PlainLabels (n : Name) : Prop := ∀ l ∈ n, (0x2e : UInt8) ∉ l ∧ (0 : UInt8) ∉ l

/-- The labels are looked at one by one. -/
instance (n : Name) : Decidable (PlainLabels n) := inferInstanceAs (Decidable (∀ l ∈ n, _))

/-- `_services._dns-sd._udp.local`. -/
def servicesLabels : Name := [bytes "_services", bytes "_dns-sd", bytes "_udp", bytes "local"]

/-- Putting into lower case makes no dot and no NUL. -/
theorem toLower_eq_iff (x : UInt8) : (toLower x = 0x2e ↔ x = 0x2e) ∧ (toLower x = 0 ↔ x = 0) :=
  toNat_induction (P := fun x => (toLower x = 0x2e ↔ x = 0x2e) ∧ (toLower x = 0 ↔ x = 0))
    (by decide +kernel) x

/-- Nor does it in a label. -/
theorem mem_map_toLower {l : Label} :
    (0x2e ∈ l.map toLower ↔ 0x2e ∈ l) ∧ (0 ∈ l.map toLower ↔ 0 ∈ l) := by
  constructor
  · rw [List.mem_map]
    exact ⟨fun ⟨x, hx, h⟩ => (toLower_eq_iff x).1.mp h ▸ hx, fun h => ⟨_, h, rfl⟩⟩
  · rw [List.mem_map]
    exact ⟨fun ⟨x, hx, h⟩ => (toLower_eq_iff x).2.mp h ▸ hx, fun h => ⟨_, h, rfl⟩⟩

section
variable {a b : Name}

/-- Equal names have equally many labels. -/
theorem SameName.length (h : SameName a b) : a.length = b.length := by
  have hlength := congrArg List.length h
  rwa [List.length_map, List.length_map] at hlength

/-- The beginnings of equal names are equal. -/
theorem SameName.take (h : SameName a b) (j : ℕ) : SameName (a.take j) (b.take j) := by
  rw [SameName, List.map_take, List.map_take, h]

/-- A name that agrees with a plain one is plain. -/
theorem SameName.plain (h : SameName a b) (hb : PlainLabels b) : PlainLabels a := by
  intro l hl
  have hmem : l.map toLower ∈ b.map (List.map toLower) := h ▸ List.mem_map_of_mem hl
  obtain ⟨l', hl', hsame⟩ := List.mem_map.mp hmem
  obtain ⟨hdot, hnul⟩ := hb l' hl'
  rw [← mem_map_toLower.1, hsame, mem_map_toLower.1] at hdot
  rw [← mem_map_toLower.2, hsame, mem_map_toLower.2] at hnul
  exact ⟨hdot, hnul⟩

/-- A text is put into lower case label by label. -/
theorem map_joined (n : Name) : (joined n).map toLower = joined (n.map (List.map toLower)) := by
  cases n with
  | nil => rfl
  | cons x rest =>
    have hdot : toLower 0x2e = 0x2e := by decide
    rw [List.map_cons, joined_cons, joined_cons, List.map_append, List.map_flatMap, List.flatMap_map]
    simp only [List.map_cons, hdot]

/-- Names whose texts agree are the same. -/
theorem sameText_joined_iff (ha : PlainLabels a) (hb : PlainLabels b) (hvalid : Name.Valid b) (hne : b ≠ []) :
    SameText (joined a) (joined b) ↔ SameName a b := by
  have hsplit : ∀ n : Name, PlainLabels n → n ≠ [] →
      (joined (n.map (List.map toLower))).splitOn 0x2e = n.map (List.map toLower) := by
    intro n hn hnil
    refine List.splitOn_intercalate _ ?_ (by rwa [ne_eq, List.map_eq_nil_iff])
    intro l hl
    obtain ⟨l', hl', rfl⟩ := List.mem_map.mp hl
    rw [mem_map_toLower.1]
    exact (hn l' hl').1
  refine ⟨fun h => ?_, fun h => ?_⟩
  · have hane : a ≠ [] := by
      rintro rfl
      obtain ⟨x, rest, rfl⟩ := List.exists_cons_of_ne_nil hne
      rw [SameText, joined_cons, List.map_append] at h
      have hx := (List.append_eq_nil_iff.mp h.symm).1
      exact (List.forall_mem_cons.mp hvalid).1.1 (List.map_eq_nil_iff.mp hx)
    rw [SameText, map_joined, map_joined] at h
    rw [SameName, ← hsplit a ha hane, ← hsplit b hb hne, h]
  · rw [SameText, map_joined, map_joined, h]

end

/-! ## The names of a responder -/

section
variable {r : Responder} (hi : InstanceName r.instanceName)
include hi

/-- The name of an instance is short and has no NUL. -/
theorem InstanceName.named : Named r := ⟨hi.short, hi.noNul⟩

/-- The labels of the instance have no dots and no NULs. -/
theorem instanceLabels_plain : PlainLabels (instanceLabels r.instanceName) :=
  List.forall_mem_cons.mpr ⟨⟨hi.undotted, hi.noNul⟩, by decide⟩

/-- Nor have those of the host. -/
theorem hostLabels_plain : PlainLabels (hostLabels r.instanceName) :=
  List.forall_mem_cons.mpr ⟨⟨hi.undotted, hi.noNul⟩, by decide⟩

/-- The instance's name as the code has it. -/
theorem joined_instanceLabels : joined (instanceLabels r.instanceName) = r.inst := by
  rw [inst_eq hi.named, instanceLabels, joined_cons]
  exact congrArg (r.instanceName ++ ·) (by decide)

/-- The host's name as the code has it. -/
theorem joined_hostLabels : joined (hostLabels r.instanceName) = r.host := by
  rw [host_eq hi.named, hostLabels, joined_cons]
  exact congrArg (r.instanceName ++ ·) (by decide)

end

/-- The labels of the service have no dots and no NULs. -/
theorem serviceLabels_plain : PlainLabels serviceLabels := by decide

/-- Nor have those of the list of services. -/
theorem servicesLabels_plain : PlainLabels servicesLabels := by decide

/-- They are labels of the protocol. -/
theorem servicesLabels_valid : Name.Valid servicesLabels :=
  (by decide : ∀ x ∈ servicesLabels, x ≠ [] ∧ x.length ≤ 63)

/-- The text of a plain name is compared with that of another one. -/
theorem sameCaseless_joined_iff {m n : Name} (hm : PlainLabels m) (hn : PlainLabels n) (hvalid : Name.Valid n)
    (hne : n ≠ []) : sameCaseless (joined m) (joined n) = true ↔ SameName m n := by
  rw [sameCaseless_iff (joined_noNul fun l hl => (hm l hl).2) (joined_noNul fun l hl => (hn l hl).2),
    sameText_joined_iff hm hn hvalid hne]

/-! ## Recognised questions -/

section
variable {s : Service} {which ttl : ℕ}

/-- The pointer is among the records if its bit is set. -/
theorem ptrRecord_mem (h : which &&& rPtr ≠ 0) : ptrRecord s ttl ∈ recordsOf s which ttl := by
  simp [recordsOf, h]

/-- So is the service. -/
theorem srvRecord_mem (h : which &&& rSrv ≠ 0) : srvRecord s ttl ∈ recordsOf s which ttl := by
  simp [recordsOf, h]

/-- So are the strings. -/
theorem txtRecord_mem (h : which &&& rTxt ≠ 0) : txtRecord s ttl ∈ recordsOf s which ttl := by
  simp [recordsOf, h]

/-- So is the address. -/
theorem aRecord_mem (h : which &&& rA ≠ 0) : aRecord s ttl ∈ recordsOf s which ttl := by
  simp [recordsOf, h]

end

/-- The record is for the name and the type. -/
def RecordFor (m : Name) (t : ℕ) (y : Record) : Prop :=
  SameName m y.owner ∧ (t = dnsTypeAny.toNat ∨ t = y.rdata.type)

/-- Owners and types are compared. -/
instance (m : Name) (t : ℕ) (y : Record) : Decidable (RecordFor m t y) :=
  inferInstanceAs (Decidable (_ ∧ _))

/-- A question that is recognised is for the services enumeration, or finds its record among those
that it asks for. -/
theorem recognised_answered {r : Responder} (hi : InstanceName r.instanceName) {m : Name} (hm : PlainLabels m)
    {t which : ℕ} (ttl : ℕ) (h : r.recordsForQuestion (joined m) t ≠ 0)
    (hwhich : ∀ bit, r.recordsForQuestion (joined m) t &&& bit ≠ 0 → which &&& bit ≠ 0) :
    SameName m servicesLabels ∨ ∃ y ∈ recordsOf (service r) which ttl, RecordFor m t y := by
  have hsvc : Responder.svc = joined serviceLabels := by decide
  have hservices : servicesName = joined servicesLabels := by decide
  -- the four names the responder compares the question with
  have hs := sameCaseless_joined_iff hm serviceLabels_plain serviceLabels_valid (List.cons_ne_nil _ _)
  have he := sameCaseless_joined_iff hm servicesLabels_plain servicesLabels_valid (List.cons_ne_nil _ _)
  have hn := sameCaseless_joined_iff hm (instanceLabels_plain hi) (instanceLabels_valid hi)
    (List.cons_ne_nil _ _)
  have hh := sameCaseless_joined_iff hm (hostLabels_plain hi) (hostLabels_valid hi)
    (List.cons_ne_nil _ _)
  rw [joined_instanceLabels hi] at hn
  rw [joined_hostLabels hi] at hh
  simp only [Responder.recordsForQuestion, hsvc, hservices, hs, he, hn, hh] at h hwhich
  by_cases hptr : SameName m serviceLabels ∧ (t = dnsTypeAny.toNat ∨ t = dnsTypePtr.toNat)
  · rw [if_pos hptr] at hwhich
    exact .inr ⟨_, ptrRecord_mem (hwhich rPtr (by decide)), hptr⟩
  by_cases henum : SameName m servicesLabels ∧ (t = dnsTypeAny.toNat ∨ t = dnsTypePtr.toNat)
  · exact .inl henum.1
  rw [if_neg hptr, if_neg henum] at h hwhich
  -- the instance owns two records, and a question may ask for one of them
  by_cases hinst : SameName m (instanceLabels r.instanceName)
  · rw [if_pos hinst] at h hwhich
    by_cases hsrv : t = dnsTypeAny.toNat ∨ t = dnsTypeSrv.toNat
    · rw [if_pos hsrv] at hwhich
      exact .inr ⟨_, srvRecord_mem (hwhich rSrv (by split_ifs <;> decide)), hinst, hsrv⟩
    by_cases htxt : t = dnsTypeAny.toNat ∨ t = dnsTypeTxt.toNat
    · rw [if_neg hsrv, if_pos htxt] at hwhich
      exact .inr ⟨_, txtRecord_mem (hwhich rTxt (by decide)), hinst, htxt⟩
    rw [if_neg hsrv, if_neg htxt] at h
    exact absurd rfl h
  rw [if_neg hinst] at h hwhich
  by_cases ha : SameName m (hostLabels r.instanceName) ∧ (t = dnsTypeAny.toNat ∨ t = dnsTypeA.toNat)
  · rw [if_pos ha] at hwhich
    exact .inr ⟨_, aRecord_mem (hwhich rA (by decide)), ha⟩
  rw [if_neg ha] at h
  exact absurd rfl h

/-- The owners of the records. -/
theorem owner_of_mem {s : Service} {which ttl : ℕ} {y : Record} (h : y ∈ recordsOf s which ttl) :
    y.owner ∈ [serviceLabels, instanceLabels s.name, hostLabels s.name] := by
  simp only [recordsOf, List.mem_append] at h
  rcases h with ((h | h) | h) | h
  all_goals
    split_ifs at h
    · rw [List.mem_singleton.mp h]
      simp [ptrRecord, srvRecord, txtRecord, aRecord]
    · cases h

/-- The second label tells the recognised names apart. -/
theorem second_labels (i : CStr) :
    serviceLabels[1]? = some (bytes "_tcp") ∧ (instanceLabels i)[1]? = some (bytes "_sdr-slc") ∧
      (hostLabels i)[1]? = some (bytes "local") ∧ servicesLabels[1]? = some (bytes "_dns-sd") :=
  ⟨rfl, rfl, rfl, rfl⟩

/-- No recognised name is a part of an owner, and no owner is the services enumeration. -/
theorem owner_take {i : CStr} {n m : Name} (hn : n ∈ [serviceLabels, instanceLabels i, hostLabels i])
    (hm : m ∈ [servicesLabels, serviceLabels, instanceLabels i, hostLabels i]) {j : ℕ}
    (h : SameName (n.take j) m) : n.length ≤ j ∧ m ≠ servicesLabels := by
  have hsecond : ((n.take j)[1]?).map (List.map toLower) = (m[1]?).map (List.map toLower) := by
    rw [← List.getElem?_map, ← List.getElem?_map, h]
  have hlength := h.length
  rw [List.length_take] at hlength
  have hj : 1 < j := by
    have htwo : ∀ m ∈ [servicesLabels, serviceLabels, instanceLabels i, hostLabels i], 1 < m.length := by
      simp [servicesLabels, serviceLabels, instanceLabels, hostLabels]
    have := htwo m hm
    omega
  obtain ⟨hservice, hinst, hhost, hservices⟩ := second_labels i
  have hne : ∀ m, m[1]? ≠ servicesLabels[1]? → m ≠ servicesLabels := by
    rintro m hm rfl
    exact hm rfl
  rw [List.getElem?_take, if_pos hj] at hsecond
  simp only [List.mem_cons, List.not_mem_nil, or_false] at hn hm
  -- Off the diagonal the second labels differ; on it the lengths decide.
  rcases hn with rfl | rfl | rfl <;> rcases hm with rfl | rfl | rfl | rfl <;>
    simp only [hservice, hinst, hhost, hservices, Option.map_some, Option.some.injEq] at hsecond <;>
    first
    | exact absurd hsecond (by decide)
    | exact ⟨by omega, hne _ (by simp only [hservice, hinst, hhost, hservices]; decide)⟩

/-! ## The questions that have been read -/

/-- A question that has been read was read from where it starts. -/
theorem asked_of_mem {pkt : List UInt8} {n start : ℕ} {asked : List Asked}
    (h : readQuestions pkt n start = some asked) {q : Asked} (hq : q ∈ asked) :
    ∃ pos, dnsReadName pkt q.start 256 = some (some (q.name, pos)) ∧ u16At pkt pos = some q.qtype := by
  induction n generalizing start asked with
  | zero =>
    obtain rfl := Option.some.inj h
    cases hq
  | succ n ih =>
    rw [readQuestions] at h
    obtain ⟨read, hread, h⟩ := Option.bind_eq_some_iff.mp h
    -- the loop stops at a name that cannot be read, and at a question that is cut short
    cases read with
    | none =>
      obtain rfl := Option.some.inj h
      cases hq
    | some found =>
      obtain ⟨name, pos⟩ := found
      dsimp only at h
      by_cases hfits : pkt.length < pos + 4
      · rw [if_pos hfits] at h
        obtain rfl := Option.some.inj h
        cases hq
      rw [if_neg hfits] at h
      obtain ⟨hi, hhi, h⟩ := Option.bind_eq_some_iff.mp h
      obtain ⟨lo, hlo, h⟩ := Option.bind_eq_some_iff.mp h
      obtain ⟨rest, hrest, h⟩ := Option.bind_eq_some_iff.mp h
      obtain rfl := Option.some.inj h
      rcases List.mem_cons.mp hq with rfl | hq
      · refine ⟨pos, hread, ?_⟩
        simp only [u16At, hhi, hlo, shiftLeft_or]
        rfl
      · exact ih hrest hq

/-- A question that has been read has a name and a type in the packet. -/
theorem asked_of_query {pkt : List UInt8} {asked : List Asked} (h : queryQuestions pkt = some asked)
    {q : Asked} (hq : q ∈ asked) :
    ∃ pos, dnsReadName pkt q.start 256 = some (some (q.name, pos)) ∧ u16At pkt pos = some q.qtype := by
  rw [queryQuestions] at h
  have hnone : ∀ {asked' : List Asked}, some [] = some asked' → q ∉ asked' := by
    rintro _ ⟨⟩
    exact List.not_mem_nil
  by_cases hshort : pkt.length < 12
  · rw [if_pos hshort] at h
    exact absurd hq (hnone h)
  rw [if_neg hshort] at h
  obtain ⟨flags, -, h⟩ := Option.bind_eq_some_iff.mp h
  by_cases hresponse : flags &&& 0x80 ≠ 0
  · rw [if_pos hresponse] at h
    exact absurd hq (hnone h)
  rw [if_neg hresponse] at h
  obtain ⟨hi, -, h⟩ := Option.bind_eq_some_iff.mp h
  obtain ⟨lo, -, h⟩ := Option.bind_eq_some_iff.mp h
  by_cases hzero : hi.toNat <<< 8 ||| lo.toNat = 0
  · simp only [if_pos hzero] at h
    exact absurd hq (hnone h)
  simp only [if_neg hzero] at h
  exact asked_of_mem h hq

/-- What a question contributes is in the set. -/
theorem foldl_or_bit {α : Type} (f : α → ℕ) (xs : List α) (which bit : ℕ)
    (h : which &&& bit ≠ 0 ∨ ∃ x ∈ xs, f x &&& bit ≠ 0) :
    xs.foldl (fun which x => which ||| f x) which &&& bit ≠ 0 := by
  induction xs generalizing which with
  | nil =>
    rcases h with h | ⟨x, hx, -⟩
    · exact h
    · cases hx
  | cons y ys ih =>
    have hor : ∀ a b : ℕ, a &&& bit ≠ 0 ∨ b &&& bit ≠ 0 → (a ||| b) &&& bit ≠ 0 := by
      intro a b hab hzero
      rw [Nat.and_or_distrib_right] at hzero
      obtain ⟨ha, hb⟩ := Nat.or_eq_zero_iff.mp hzero
      exact hab.elim (absurd ha) (absurd hb)
    refine ih _ ?_
    rcases h with h | ⟨x, hx, h⟩
    · exact .inl (hor _ _ (.inl h))
    · rcases List.mem_cons.mp hx with rfl | hx
      · exact .inl (hor _ _ (.inr h))
      · exact .inr ⟨x, hx, h⟩

/-- A response that is sent carries the records of the set that the questions ask for. -/
theorem respond_some {r : Responder} {pkt resp : List UInt8} (h : r.respond pkt = some (some resp)) :
    ∃ which, r.sendRecords which mdnsTtl = some resp ∧
      ∀ asked, queryQuestions pkt = some asked → ∀ q ∈ asked, ∀ bit,
        r.recordsForQuestion q.name q.qtype &&& bit ≠ 0 → which &&& bit ≠ 0 := by
  obtain ⟨which, hwhich, h⟩ := Option.bind_eq_some_iff.mp h
  obtain ⟨asked, hasked, hfold⟩ := Option.bind_eq_some_iff.mp hwhich
  obtain ⟨-, hsent⟩ := Option.ite_none_right_eq_some.mp (Option.some.inj h)
  refine ⟨which, hsent, fun asked' hasked' q hq bit hbit => ?_⟩
  obtain rfl := Option.some.inj (hasked.symm.trans hasked')
  rw [← Option.some.inj hfold]
  exact foldl_or_bit (fun q : Asked => r.recordsForQuestion q.name q.qtype) asked 0 bit
    (.inr ⟨q, hq, hbit⟩)

/-- A query for some of the records is answered with them. -/
theorem respond_of_set {r : Responder} {pkt : List UInt8} {which : ℕ}
    (h : r.recordsForQuery pkt = some which) (hne : which ≠ 0) :
    r.respond pkt = some (r.sendRecords which mdnsTtl) := by
  rw [Responder.respond, h]
  exact congrArg some (if_pos hne)

section
variable {r : Responder} (hi : InstanceName r.instanceName)
include hi

/-- The owners of the records have no dots and no NULs. -/
theorem owner_plain {which ttl : ℕ} {y : Record} (h : y ∈ recordsOf (service r) which ttl) :
    PlainLabels y.owner := by
  have howner := owner_of_mem h
  simp only [List.mem_cons, List.not_mem_nil, or_false] at howner
  rcases howner with howner | howner | howner
  · exact howner ▸ serviceLabels_plain
  · exact howner ▸ instanceLabels_plain hi
  · exact howner ▸ hostLabels_plain hi

/-- A plain name that is recognised is one of four. -/
theorem recognised_mem {m : Name} (hm : PlainLabels m) {t : ℕ}
    (h : r.recordsForQuestion (joined m) t ≠ 0) :
    ∃ n ∈ [servicesLabels, serviceLabels, instanceLabels r.instanceName, hostLabels r.instanceName],
      SameName m n := by
  rcases recognised_answered hi hm 0 h (fun _ hbit => hbit) with hservices | ⟨y, hy, hsame, -⟩
  · exact ⟨_, List.mem_cons_self, hservices⟩
  · exact ⟨_, List.mem_cons_of_mem _ (owner_of_mem hy), hsame⟩

/-- A question that contributes is read as it stands when its labels are plain: of its name maybe
only a first part, and its type. -/
theorem contributing_read {pkt : List UInt8} {asked : List Asked} (hasked : queryQuestions pkt = some asked)
    {q : Asked} (hq : q ∈ asked) (hcontributes : r.recordsForQuestion q.name q.qtype ≠ 0)
    {x : Question} {e : ℕ} (hx : QuestionAt pkt q.start x e) (hplain : PlainLabels x.name) :
    ∃ j ≤ x.name.length, q.name = joined (x.name.take j) ∧ q.qtype = x.type ∧
      (j = x.name.length ↔ Within pkt 64 q.start) := by
  obtain ⟨pos, hread, hqtype⟩ := asked_of_query hasked hq
  obtain ⟨hname, htype, -⟩ := hx
  obtain ⟨j, hj, hout, hwithin, hpos⟩ := readNameLoop_spec hname hread
  have hplain' : PlainLabels (x.name.take j) := fun l hl => hplain l (List.mem_of_mem_take hl)
  have hjoined : q.name = joined (x.name.take j) := by
    rw [← joinOnto_nil fun l hl => hname.valid l (List.mem_of_mem_take hl)]
    exact hout
  rw [hjoined] at hcontributes
  have hfew : j < 64 := by
    obtain ⟨n, hn, hsame⟩ := recognised_mem hi hplain' hcontributes
    have hfour : ∀ n ∈ [servicesLabels, serviceLabels, instanceLabels r.instanceName,
        hostLabels r.instanceName], n.length ≤ 4 := by
      simp [servicesLabels, serviceLabels, instanceLabels, hostLabels]
    have hlength := hsame.length
    have hle := hfour n hn
    rw [List.length_take] at hlength
    omega
  refine ⟨j, hj, hjoined, ?_, hwithin⟩
  have hpos : pos = _ := hpos (.inl hfew)
  rw [hpos] at hqtype
  exact Option.some.inj (hqtype.symm.trans htype)

end

/-- Of the questions that contribute to a response, those are answered whose labels have all been
read and have no dot and no NUL, and whose name is not that of the services enumeration. -/
theorem answered_iff {i : CStr} (hi : InstanceName i) (port : UInt16) (txt : MdnsTxt) (a b c d : UInt8)
    {pkt resp : List UInt8}
    (h : (mdnsBuiltinStart i port txt (sAddr a b c d)).respond pkt = some (some resp)) :
    ∃ m, Decodes resp m ∧ ∀ asked, queryQuestions pkt = some asked → ∀ q ∈ asked,
      (mdnsBuiltinStart i port txt (sAddr a b c d)).recordsForQuestion q.name q.qtype ≠ 0 →
      ∀ x e, QuestionAt pkt q.start x e →
        ((∃ y ∈ m.answers, RecordFor x.name x.type y) ↔
          Within pkt 64 q.start ∧ PlainLabels x.name ∧ ¬ SameName x.name servicesLabels) := by
  have hi' : InstanceName (mdnsBuiltinStart i port txt (sAddr a b c d)).instanceName :=
    (mdnsBuiltinStart_instanceName hi port txt _).symm ▸ hi
  have hshort := mdnsBuiltinStart_txt i port txt (sAddr a b c d)
  -- from here on only the name and the short texts of the responder matter
  generalize mdnsBuiltinStart i port txt (sAddr a b c d) = r at h hi' hshort
  obtain ⟨which, hsent, hbits⟩ := respond_some h
  refine ⟨_, sendRecords_decodes hi' hshort hsent, ?_⟩
  intro asked hasked q hq hcontributes x e hx
  constructor
  -- an answer owns the name that was asked for, so the question was read to its end
  · rintro ⟨y, hy, hsame, -⟩
    have hplain := hsame.plain (owner_plain hi' hy)
    obtain ⟨j, hj, hjoined, -, hwithin⟩ := contributing_read hi' hasked hq hcontributes hx hplain
    rw [hjoined] at hcontributes
    obtain ⟨n, hn, hpart⟩ := recognised_mem hi'
      (fun l hl => hplain l (List.mem_of_mem_take hl)) hcontributes
    refine ⟨hwithin.mp ?_, hplain, fun hservices => ?_⟩
    · have hle := (owner_take (owner_of_mem hy) hn ((hsame.take j).symm.trans hpart)).1
      rw [← hsame.length] at hle
      omega
    · have hwhole : SameName (y.owner.take y.owner.length) servicesLabels := by
        rw [List.take_length]
        exact hsame.symm.trans hservices
      exact (owner_take (owner_of_mem hy) List.mem_cons_self hwhole).2 rfl
  -- a question that was read to its end is the one the responder has recognised
  · rintro ⟨hwithin, hplain, hservices⟩
    obtain ⟨j, hj, hjoined, hqtype, hall⟩ := contributing_read hi' hasked hq hcontributes hx hplain
    rw [hall.mpr hwithin, List.take_length] at hjoined
    have hbits := hbits asked hasked q hq
    rw [hjoined, hqtype] at hcontributes hbits
    exact (recognised_answered hi' hplain _ hcontributes hbits).resolve_left hservices

/-- A query with one question for PTR. -/
def ptrQuery (n : Name) : List UInt8 := queryBytes [⟨n, 12, 1⟩]

/-- The responder of the examples has a good name. -/
theorem someResponder_instanceName : InstanceName someResponder.instanceName :=
  ⟨by decide, by decide, by decide, by decide⟩

/-- Its strings are short enough. -/
theorem someResponder_txt : ∀ s ∈ someResponder.txt, s.length ≤ 255 := mdnsBuiltinStart_txt _ _ _ _

/-- The services enumeration is answered with all records, and none of them is for it. -/
theorem services_unanswered :
    someResponder.recordsForQuery (ptrQuery servicesLabels) = some rAll ∧
      ∃ resp m, someResponder.respond (ptrQuery servicesLabels) = some (some resp) ∧ Decodes resp m ∧
        m.answers.length = 4 ∧ ∀ y ∈ m.answers, ¬ RecordFor servicesLabels 12 y := by
  have hquery : someResponder.recordsForQuery (ptrQuery servicesLabels) = some rAll := by decide +kernel
  have hsome : (someResponder.sendRecords rAll mdnsTtl).isSome := by decide +kernel
  obtain ⟨resp, hresp⟩ := Option.isSome_iff_exists.mp hsome
  have hrespond := (respond_of_set hquery (by decide)).trans (congrArg some hresp)
  exact ⟨hquery, resp, _, hrespond,
    sendRecords_decodes someResponder_instanceName someResponder_txt hresp, by decide +kernel,
    by decide +kernel⟩

/-- A question for the service is answered. -/
theorem answered_service : ∃ resp m, someResponder.respond (ptrQuery serviceLabels) = some (some resp) ∧
    Decodes resp m ∧ ∃ y ∈ m.answers, RecordFor serviceLabels 12 y := by
  have hquery : someResponder.recordsForQuery (ptrQuery serviceLabels) = some rAll := by decide +kernel
  have hsome : (someResponder.sendRecords rAll mdnsTtl).isSome := by decide +kernel
  obtain ⟨resp, hresp⟩ := Option.isSome_iff_exists.mp hsome
  have hrespond := (respond_of_set hquery (by decide)).trans (congrArg some hresp)
  have hasked : ∃ asked, queryQuestions (ptrQuery serviceLabels) = some asked ∧
      ⟨12, joined serviceLabels, 12⟩ ∈ asked := ⟨[⟨12, joined serviceLabels, 12⟩], rfl, List.mem_cons_self⟩
  obtain ⟨asked, hasked, hq⟩ := hasked
  obtain ⟨m, hm, hanswered⟩ := answered_iff ⟨by decide, by decide, by decide, by decide⟩ _ _ _ _ _ _ hrespond
  have hbytes : Has (ptrQuery serviceLabels) 12 (questionBytes ⟨serviceLabels, 12, 1⟩) := ⟨_, rfl⟩
  obtain ⟨hx, hwithin⟩ := questionAt_of_bytes serviceLabels_valid (by decide) (by decide)
    (by decide : serviceLabels.length ≤ 64) hbytes
  exact ⟨resp, m, hrespond, hm, (hanswered asked hasked _ hq (by decide +kernel) _ _ hx).mpr
    ⟨hwithin, serviceLabels_plain, by decide⟩⟩

end SlcRtld.Property
