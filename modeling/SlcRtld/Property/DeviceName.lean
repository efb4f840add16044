import SlcRtld.Control.Text
import SlcRtld.Json.Reading
import SlcRtld.Property.Announce
import SlcRtld.Property.Ownership

/-!
# The device name

`main` cuts the operator's name to 63 bytes and replaces blanks, and nothing else. `cmd_hello` puts
the name between quotation marks as it is, and `dns_name` splits it at its dots. So the reply to
`hello` has the name in it exactly when each of its bytes stands for itself in a string
(`hello_intact_iff`), and the announcements have it as one label exactly when it has no dot
(`announced_intact_iff`).
-/

namespace SlcRtld.Property

open Libc Json Dns Mdns Auth
open Control (Options Result object member literal literalString literalString_text
  literalString_wellFormed length_object constant objectOf)

/-! ## What `main` derives -/

/-- `g_device_name` for a `--name` that is not empty. -/
def deviceName (nameArg : CStr) : CStr :=
  (snprintf 64 nameArg).map fun c => if c = 0x20 ∨ c = 0x09 then 0x2d else c

/-- What `main` announces under a name. -/
def mdnsTxt (name : CStr) (minhz maxhz : UInt64) : MdnsTxt where
  name := name
  proto := bytes "sdr-slc"
  protoVer := bytes "1.0"
  functions := bytes "rx"
  hw := bytes "RTL-SDR-v4"
  fw := bytes "sdr-slc-rtld/1.0"
  minhz := minhz
  maxhz := maxhz

/-- The name fits its buffer of 64 bytes. -/
theorem deviceName_length (nameArg : CStr) : (deviceName nameArg).length ≤ 63 := by
  rw [deviceName, List.length_map, snprintf, List.length_take]
  omega

/-! ## The reply to `hello` -/

/-- The result of `hello` is a JSON text with one member `device_name`, a string that means the
name. -/
def HelloIntact (opts : Options) (nonceHex : Option CStr) : Prop :=
  ∃ t : Document, t.wellFormed = true ∧ t.text = (Result.hello nonceHex).text opts ∧
    ∃ s, t.value.named (bytes "device_name") = [.string s] ∧ decode s = opts.deviceName

/-- What `nonce_hex` can be: the digits of a nonce, or nothing when there is no random source. -/
def NonceHex (hex : CStr) : Prop := hex = [] ∨ ∃ raw, raw.length = authNonceBytes ∧ hex = authHex raw

/-- The digits of a nonce stand for themselves, and there are at most 32. -/
theorem NonceHex.plain {hex : CStr} (h : NonceHex hex) : hex.all isLiteral = true ∧ hex.length ≤ 32 := by
  rcases h with rfl | ⟨raw, hraw, rfl⟩
  · decide
  · obtain ⟨hplain, hlength⟩ := Control.authHex_plain raw
    rw [hlength, hraw]
    exact ⟨hplain, by decide⟩

/-- The challenge, as a text of the grammar. -/
def challengeText (hex : CStr) : Document :=
  objectOf [("methods", (Value.array [] (.last (.string (verbatim authMethodPsk)) [])).alone),
    ("nonce", literalString hex)]

/-- The members of the result, as texts of the grammar. -/
def helloTexts (name : CStr) (nonceHex : Option CStr) : List (String × Document) :=
  [("protocol_name", constant "SDR-SLC Control Plane"), ("selected_protocol_version", constant "1.0"),
    ("device_name", literalString name), ("manufacturer", constant "IXChange BV"),
    ("model", constant "RTL-SDR SDR-SLC Bridge"), ("hardware_revision", constant "RTL-SDR-v4"),
    ("firmware_version", constant "sdr-slc-rtld/1.0")] ++
    nonceHex.elim [] fun hex => [("auth", challengeText hex)]

/-- The text of a challenge. -/
theorem challengeText_text (hex : CStr) : (challengeText hex).text =
    object [member "methods" (Control.array [Control.quoted authMethodPsk]),
      member "nonce" (Control.quoted hex)] := by
  simp only [challengeText, Control.objectOf_text, List.map_cons, List.map_nil, literalString_text]
  rfl

/-- The text of a challenge is well formed. -/
theorem challengeText_wellFormed {hex : CStr} (h : hex.all isLiteral = true) :
    (challengeText hex).wellFormed = true := by
  refine Control.objectOf_wellFormed ?_
  simp only [List.forall_mem_cons, List.not_mem_nil, false_imp_iff, implies_true, and_true,
    literalString_wellFormed]
  exact ⟨by decide, by decide, h⟩

/-- The result is not cut. -/
theorem hello_text {opts : Options} (hname : opts.deviceName.length ≤ 63) {nonceHex : Option CStr}
    (hnonce : ∀ hex ∈ nonceHex, NonceHex hex) :
    (Result.hello nonceHex).text opts = (objectOf (helloTexts opts.deviceName nonceHex)).text := by
  -- the members that the format string of the source lists
  have htext : (objectOf (helloTexts opts.deviceName nonceHex)).text = object ([
      member "protocol_name" (literal "SDR-SLC Control Plane"),
      member "selected_protocol_version" (literal "1.0"),
      member "device_name" (Control.quoted opts.deviceName),
      member "manufacturer" (literal "IXChange BV"),
      member "model" (literal "RTL-SDR SDR-SLC Bridge"),
      member "hardware_revision" (literal "RTL-SDR-v4"),
      member "firmware_version" (literal "sdr-slc-rtld/1.0")] ++
      nonceHex.elim [] fun hex => [member "auth" (object [
        member "methods" (Control.array [Control.quoted authMethodPsk]),
        member "nonce" (Control.quoted hex)])]) := by
    cases nonceHex with
    | none => simp only [Control.objectOf_text, helloTexts, Option.elim_none, List.append_nil,
        List.map_cons, List.map_nil, Control.constant_text, literalString_text]
    | some hex => simp only [Control.objectOf_text, helloTexts, Option.elim_some, List.cons_append,
        List.nil_append, List.map_cons, List.map_nil, Control.constant_text, literalString_text,
        challengeText_text]
  -- the text is shorter than the buffer, so `snprintf` does not cut it
  rw [Result.text, ← htext, snprintf_eq]
  rw [htext]
  refine Nat.lt_of_le_of_lt (length_object _) ?_
  have hconstant : ([member "protocol_name" (literal "SDR-SLC Control Plane"),
      member "selected_protocol_version" (literal "1.0"),
      member "manufacturer" (literal "IXChange BV"), member "model" (literal "RTL-SDR SDR-SLC Bridge"),
      member "hardware_revision" (literal "RTL-SDR-v4"),
      member "firmware_version" (literal "sdr-slc-rtld/1.0")].map (List.length · + 1)).sum ≤ 300 := by
    decide
  simp only [List.map_cons, List.map_nil, List.sum_cons, List.sum_nil] at hconstant
  have hdevice : (member "device_name" (Control.quoted opts.deviceName)).length ≤ 79 := by
    rw [Control.length_member, show (bytes "device_name").length = 11 by decide]
    simp [Control.quoted]
    omega
  cases nonceHex with
  | none =>
    simp only [Option.elim_none, List.append_nil, List.map_cons, List.map_nil, List.sum_cons,
      List.sum_nil]
    omega
  | some hex =>
    have hhex := (hnonce hex rfl).plain.2
    have hauth : (member "auth" (object [
        member "methods" (Control.array [Control.quoted authMethodPsk]),
        member "nonce" (Control.quoted hex)])).length ≤ 90 := by
      have hmethods : (member "methods" (Control.array [Control.quoted authMethodPsk])).length = 29 := by
        decide
      have hobject := length_object [member "methods" (Control.array [Control.quoted authMethodPsk]),
        member "nonce" (Control.quoted hex)]
      simp only [List.map_cons, List.map_nil, List.sum_cons, List.sum_nil, hmethods,
        Control.length_member "nonce", show (bytes "nonce").length = 5 by decide] at hobject
      rw [Control.length_member, show (bytes "auth").length = 4 by decide]
      simp [Control.quoted] at hobject ⊢
      omega
    simp only [Option.elim_some, List.cons_append, List.nil_append, List.map_cons, List.map_nil,
      List.sum_cons, List.sum_nil]
    omega

/-- A name of bytes that stand for themselves is in the result. -/
theorem helloIntact_of_literal {opts : Options} (hname : opts.deviceName.length ≤ 63)
    {nonceHex : Option CStr} (hnonce : ∀ hex ∈ nonceHex, NonceHex hex)
    (hliteral : opts.deviceName.all isLiteral = true) : HelloIntact opts nonceHex := by
  refine ⟨objectOf (helloTexts opts.deviceName nonceHex), Control.objectOf_wellFormed ?_,
    (hello_text hname hnonce).symm, verbatim opts.deviceName, ?_, decode_verbatim _⟩
  · have hfixed : ∀ m ∈ helloTexts opts.deviceName none,
        (bytes m.1).all isLiteral = true ∧ m.2.wellFormed = true := by
      simp only [helloTexts, Option.elim_none, List.append_nil, List.forall_mem_cons,
        List.not_mem_nil, false_imp_iff, implies_true, and_true, literalString_wellFormed]
      refine ⟨?_, ?_, ⟨by decide, hliteral⟩, ?_, ?_, ?_, ?_⟩
      all_goals exact ⟨by decide, Control.constant_wellFormed (by decide)⟩
    intro m hm
    rcases List.mem_append.mp hm with hm | hm
    · exact hfixed m (List.mem_append_left _ hm)
    · cases nonceHex with
      | none => cases hm
      | some hex =>
        obtain rfl := List.mem_singleton.mp hm
        exact ⟨(by decide : (bytes "auth").all isLiteral = true),
          challengeText_wellFormed (hnonce hex rfl).plain.1⟩
  · have hother : ∀ k ∈ ["protocol_name", "selected_protocol_version", "manufacturer", "model",
        "hardware_revision", "firmware_version", "auth"], bytes k ≠ bytes "device_name" := by decide
    simp only [List.forall_mem_cons] at hother
    rw [objectOf, Value.alone, compact_named]
    cases nonceHex with
    | none => simp [helloTexts, hother, literalString, Value.alone]
    | some hex => simp [helloTexts, hother, literalString, Value.alone]

/-- The name ends where the string ends: a quotation mark of the template that is part of the string
has a backslash before it, and what comes after the second one is no member. -/
theorem literal_of_read {s : List Character} (hs : s.all Character.wellFormed = true)
    {name more rest : Bytes} (h : name ++ 0x22 :: 0x2c :: 0x22 :: more = rawText s ++ 0x22 :: rest)
    (hrest : rest ≠ more) (hdecode : decode s = name) : name.all isLiteral = true := by
  have hlength := length_decode s
  have hsame : rawText s = name → name.all isLiteral = true := by
    rintro rfl
    exact all_isLiteral_of_decode hs hdecode
  rcases List.append_eq_append_iff.mp h with ⟨t, ht, hquote⟩ | ⟨t, ht, -⟩
  · match t, ht, hquote with
    | [], ht, _ => exact hsame (by rw [ht, List.append_nil])
    | [_], _, hquote => simp at hquote
    | [_, _], _, hquote =>
      simp only [List.cons_append, List.nil_append, List.cons.injEq, true_and] at hquote
      exact absurd hquote.2.2.symm hrest
    | x :: y :: z :: t, ht, hquote =>
      simp only [List.cons_append, List.cons.injEq] at hquote
      obtain ⟨rfl, rfl, rfl, -⟩ := hquote
      obtain ⟨a, ha⟩ := backslash_of_quote (a := name ++ [0x22, 0x2c]) (b := t) hs (by simp [ht])
      have hlast := congrArg List.getLast? ha
      simp at hlast
  · cases t with
    | nil => exact hsame (by rw [ht, List.append_nil])
    | cons x t =>
      rw [← hdecode] at ht
      have := congrArg List.length ht
      rw [List.length_append, List.length_cons] at this
      omega

/-- What follows a member is no letter. -/
theorem follow_ne {tail : Bytes} {first : List Character × Value} {ps : Pairs} {more : Bytes}
    (h : Pairs.Follow (0x7d :: tail) first ps (0x6d :: more)) : False := by
  generalize htext : (0x6d : UInt8) :: more = text at h
  cases h with
  | last hafter =>
    obtain ⟨-, hend⟩ := blank_eq_nil hafter (by decide) htext.symm
    exact absurd (List.head_eq_of_cons_eq hend) (by decide)
  | cons hafter =>
    obtain ⟨-, hcomma⟩ := blank_eq_nil hafter (by decide) htext.symm
    exact absurd (List.head_eq_of_cons_eq hcomma) (by decide)

/-- The name that is in the result has only bytes that stand for themselves. -/
theorem literal_of_helloIntact {opts : Options} (hname : opts.deviceName.length ≤ 63)
    {nonceHex : Option CStr} (hnonce : ∀ hex ∈ nonceHex, NonceHex hex) (h : HelloIntact opts nonceHex) :
    opts.deviceName.all isLiteral = true := by
  obtain ⟨t, ht, htext, s', hnamed, hdecode⟩ := h
  -- the name stands between two quotes, and another member follows
  have hshape : ∃ more, (Result.hello nonceHex).text opts =
      0x7b :: 0x22 :: (bytes "protocol_name" ++ 0x22 :: 0x3a :: 0x22 ::
        (bytes "SDR-SLC Control Plane" ++ 0x22 :: 0x2c :: 0x22 ::
        (bytes "selected_protocol_version" ++ 0x22 :: 0x3a :: 0x22 ::
        (bytes "1.0" ++ 0x22 :: 0x2c :: 0x22 ::
        (bytes "device_name" ++ 0x22 :: 0x3a :: 0x22 ::
        (opts.deviceName ++ 0x22 :: 0x2c :: 0x22 :: 0x6d :: more)))))) := by
    have hm : bytes "manufacturer" = 0x6d :: bytes "anufacturer" := by decide
    rw [hello_text hname hnonce, Control.objectOf_text]
    simp only [helloTexts, List.cons_append, List.map_cons, Control.constant_text, literalString_text,
      object, member, literal, Control.quoted, List.intercalate_cons_cons, List.append_assoc, hm,
      List.nil_append]
    exact ⟨_, rfl⟩
  obtain ⟨more, hmore⟩ := hshape
  obtain ⟨ps, tail, hps, hentries, hread⟩ := Document.object_of_brace ht (htext.trans hmore)
  -- the two members before the name are constants, and what follows is a string
  obtain ⟨ps₁, hps₁, hentries₁, hread₁⟩ := Pairs.skip hps (by decide) (by decide) hread
  obtain ⟨ps₂, hps₂, hentries₂, hread₂⟩ := Pairs.skip hps₁ (by decide) (by decide) hread₁
  obtain ⟨s, rest, hs, hw, hfollow⟩ := Pairs.first hps₂ (by decide) hread₂
  have hfirst : ∃ l, ps₂.entries = (verbatim (bytes "device_name"), .string s) :: l := by
    cases hfollow with
    | last _ hentries => exact ⟨[], hentries⟩
    | cons _ _ _ hentries => exact ⟨_, hentries⟩
  obtain ⟨l, hl⟩ := hfirst
  have hname₁ : bytes "protocol_name" ≠ bytes "device_name" := by decide
  have hname₂ : bytes "selected_protocol_version" ≠ bytes "device_name" := by decide
  -- the only member of that name is the third
  rw [Value.named, hentries, hentries₁, hentries₂, hl] at hnamed
  simp only [List.filter_cons, decode_verbatim, hname₁, hname₂, decide_true, decide_false, if_true,
    Bool.false_eq_true, if_false, List.map_cons, List.cons.injEq, Value.string.injEq] at hnamed
  obtain rfl := hnamed.1
  refine literal_of_read hs hw ?_ hdecode
  rintro rfl
  exact follow_ne hfollow

/-- The reply to `hello` says the name as it is, if and only if the name needs no escaping. -/
theorem hello_intact_iff {opts : Options} (hname : opts.deviceName.length ≤ 63)
    {nonceHex : Option CStr} (hnonce : ∀ hex ∈ nonceHex, NonceHex hex) :
    HelloIntact opts nonceHex ↔ opts.deviceName.all isLiteral = true :=
  ⟨literal_of_helloIntact hname hnonce, helloIntact_of_literal hname hnonce⟩

/-! ## The announcements -/

/-- The target of a PTR record and the owner of an SRV or TXT record is the name of the instance,
one label and the labels of the service. -/
def NamesInstance (i : CStr) (x : Record) : Prop :=
  match x.rdata with
  | .ptr target => target = instanceLabels i
  | .srv .. => x.owner = instanceLabels i
  | .txt _ => x.owner = instanceLabels i
  | .a _ => True

/-- The types of the records of a set. -/
def typesOf (which : ℕ) : List ℕ :=
  (if which &&& rPtr ≠ 0 then [12] else []) ++ (if which &&& rSrv ≠ 0 then [33] else []) ++
    (if which &&& rTxt ≠ 0 then [16] else []) ++ (if which &&& rA ≠ 0 then [1] else [])

/-- Every set of records is sent, and its records name the instance. -/
def AnnouncedIntact (r : Responder) (i : CStr) : Prop :=
  ∀ which ttl, ∃ pkt m, r.sendRecords which ttl = some pkt ∧ Decodes pkt m ∧
    m.answers.map (fun x => x.rdata.type) = typesOf which ∧ ∀ x ∈ m.answers, NamesInstance i x

/-! ### Every set is sent -/

/-- A branch of `send_records` that has room for `n` bytes does not overflow. -/
def PutGrows (n : ℕ) (put : Building → Building) : Prop :=
  ∀ b, b.d.overflow = false → b.d.buf.length + n ≤ dnsBufSize →
    (put b).d.overflow = false ∧ (put b).d.buf.length ≤ b.d.buf.length + n

section
variable (r : Responder) (ttl : UInt32)

/-- The instance's name with its domain fits. -/
theorem instFqdn_length : r.instFqdn.length ≤ 95 := by
  rw [Responder.instFqdn, snprintf, List.length_take]
  omega

/-- So does the host's. -/
theorem hostFqdn_length : r.hostFqdn.length ≤ 79 := by
  rw [Responder.hostFqdn, snprintf, List.length_take]
  omega

/-- The room that the pointer takes. -/
theorem putPtr_grows : PutGrows 128 (r.putPtr ttl) := by
  intro b hoverflow hroom
  have hsvc : Responder.svcType.length = 20 := by decide
  have hinst := instFqdn_length r
  exact (record_grows _ _ _ _ _ (dnsName_grows r.instFqdn)).mono (by omega) b.d hoverflow hroom

/-- The room that the service takes. -/
theorem putSrv_grows : PutGrows 193 (r.putSrv ttl) := by
  intro b hoverflow hroom
  have hinst := instFqdn_length r
  have hhost := hostFqdn_length r
  have hdata := (((dnsPut16_grows 0).comp (dnsPut16_grows 0)).comp (dnsPut16_grows r.port)).comp
    (dnsName_grows r.hostFqdn)
  simp only [Function.comp_def] at hdata
  have hrecord := (record_grows b.instOff r.instFqdn dnsTypeSrv (dnsClassIn ||| dnsCacheFlush) ttl
    hdata).mono (n := 193) (by omega)
  simp only [Responder.putSrv]
  exact hrecord b.d hoverflow hroom

/-- The room that the strings take. The induction is on the strings. -/
theorem putStrings_grows : Grows (stringBytes r.txt).length r.putStrings := by
  have hall : ∀ txt : List CStr, Grows (stringBytes txt).length fun d =>
      txt.foldl (fun d s => dnsPutAll s (dnsPut8 s.length.toUInt8 d)) d := by
    intro txt
    induction txt with
    | nil => exact fun d hoverflow _ => ⟨hoverflow, Nat.le_refl _⟩
    | cons s txt ih =>
      have hs := ((dnsPut8_grows s.length.toUInt8).comp (dnsPutAll_grows s)).comp ih
      refine hs.mono ?_
      simp [stringBytes]
      omega
  exact hall r.txt

/-- The room that the record of the strings takes. -/
theorem putTxt_grows : PutGrows (107 + (stringBytes r.txt).length) (r.putTxt ttl) := by
  intro b hoverflow hroom
  have hinst := instFqdn_length r
  exact (record_grows _ _ _ _ _ (putStrings_grows r)).mono (by omega) b.d hoverflow hroom

/-- The room that the address takes. -/
theorem putA_grows : PutGrows 95 (r.putA ttl) := by
  intro b hoverflow hroom
  have hhost := hostFqdn_length r
  have hdata := (((dnsPut8_grows r.ip.toUInt8).comp (dnsPut8_grows (r.ip >>> 8).toUInt8)).comp
    (dnsPut8_grows (r.ip >>> 16).toUInt8)).comp (dnsPut8_grows (r.ip >>> 24).toUInt8)
  simp only [Function.comp_def] at hdata
  have hrecord := (record_grows b.hostOff r.hostFqdn dnsTypeA (dnsClassIn ||| dnsCacheFlush) ttl
    hdata).mono (n := 95) (by omega)
  simp only [Responder.putA, Responder.putAddress]
  exact hrecord b.d hoverflow hroom

/-- The names and the address leave room for 489 bytes of strings. -/
theorem sendRecords_sent (htxt : (stringBytes r.txt).length ≤ 489) (which : ℕ) :
    ∃ pkt, r.sendRecords which ttl = some pkt := by
  have hbranch : ∀ {n m : ℕ} {put : Building → Building} (bit : ℕ) (b : Building), PutGrows n put →
      b.d.overflow = false ∧ b.d.buf.length ≤ m → m + n ≤ dnsBufSize →
      (if which &&& bit ≠ 0 then put b else b).d.overflow = false ∧
        (if which &&& bit ≠ 0 then put b else b).d.buf.length ≤ m + n := by
    intro n m put bit b hput hb hroom
    split_ifs
    · obtain ⟨hoverflow, hle⟩ := hput b hb.1 (by omega)
      exact ⟨hoverflow, by omega⟩
    · exact ⟨hb.1, by omega⟩
  have hsize : dnsBufSize = 1024 := rfl
  have hptr := hbranch rPtr ⟨dnsInit, 0, none, none⟩ (putPtr_grows r ttl)
    (m := 12) ⟨rfl, by decide⟩ (by omega)
  have hsrv := hbranch rSrv _ (putSrv_grows r ttl) hptr (by omega)
  have htxt := hbranch rTxt _ (putTxt_grows r ttl) hsrv (by omega)
  have ha := hbranch rA _ (putA_grows r ttl) htxt (by omega)
  exact ⟨_, if_neg (Bool.eq_false_iff.mp ha.1)⟩

end

/-! ### A name without dots -/

/-- The types of the records of a set. -/
theorem recordsOf_types (s : Service) (which ttl : ℕ) :
    (recordsOf s which ttl).map (fun x => x.rdata.type) = typesOf which := by
  have hmap : ∀ (bit : ℕ) (x : Record), (if which &&& bit ≠ 0 then [x] else []).map
      (fun x => x.rdata.type) = if which &&& bit ≠ 0 then [x.rdata.type] else [] := by
    intro bit x
    split_ifs <;> rfl
  simp only [recordsOf, List.map_append, hmap]
  rfl

/-- The records are about the instance. -/
theorem recordsOf_namesInstance {s : Service} {which ttl : ℕ} :
    ∀ x ∈ recordsOf s which ttl, NamesInstance s.name x := by
  intro x hx
  have hone : ∀ {bit : ℕ} {y : Record}, x ∈ (if which &&& bit ≠ 0 then [y] else []) → x = y := by
    intro bit y hy
    split_ifs at hy
    · exact List.mem_singleton.mp hy
    · cases hy
  simp only [recordsOf, List.mem_append] at hx
  rcases hx with ((hx | hx) | hx) | hx
  all_goals
    obtain rfl := hone hx
    first | rfl | trivial

/-- A name without dots is announced as it is. -/
theorem announcedIntact_of_undotted {r : Responder} (hi : InstanceName r.instanceName)
    (hshort : ∀ s ∈ r.txt, s.length ≤ 255) (htxt : (stringBytes r.txt).length ≤ 489) :
    AnnouncedIntact r r.instanceName := by
  intro which ttl
  obtain ⟨pkt, hpkt⟩ := sendRecords_sent r ttl htxt which
  exact ⟨pkt, _, hpkt, sendRecords_decodes hi hshort hpkt, recordsOf_types .., recordsOf_namesInstance⟩

/-! ### A name with dots -/

/-- Whatever the text, the loop of `dns_name` only appends. The induction is on the text. -/
theorem dnsNameLoop_appends (label cs : CStr) (d : DNS) : ∃ bs, Extends d bs (dnsNameLoop label cs d) := by
  induction cs generalizing label d with
  | nil => exact ⟨[], .rfl⟩
  | cons c cs ih =>
    rw [dnsNameLoop]
    split_ifs
    · obtain ⟨bs, hbs⟩ := ih [] (dnsPutAll label (dnsPut8 label.length.toUInt8 d))
      exact ⟨_, ((dnsPut8_extends _ d).trans (dnsPutAll_extends _ _)).trans hbs⟩
    · exact ih _ d

/-- The first label of a name ends at the first dot. -/
theorem dnsName_first {x : CStr} (hx : Undotted x) (rest : CStr) (d : DNS) :
    ∃ bs, Extends d (x.length.toUInt8 :: bs) (dnsName (x ++ 0x2e :: rest) d).2 := by
  obtain ⟨bs, hbs⟩ := dnsNameLoop_appends [] rest (dnsPutAll x (dnsPut8 x.length.toUInt8 d))
  have hloop := dnsNameLoop_label [] x rest hx d
  rw [List.nil_append] at hloop
  rw [dnsName, hloop]
  exact ⟨_, ((dnsPut8_extends _ d).trans ((dnsPutAll_extends x _).trans hbs)).trans
    (dnsPut8_extends 0 _)⟩

/-- The packet with the PTR record alone. -/
theorem sendRecords_ptr {r : Responder} {ttl : UInt32} {x rest : CStr} (hx : Undotted x)
    (hfqdn : r.instFqdn = x ++ 0x2e :: rest) {pkt : List UInt8}
    (h : r.sendRecords rPtr ttl = some pkt) :
    ∃ bs, pkt = headerBytes 1 ++ recordBytes (nameBytes serviceLabels) dnsTypePtr dnsClassIn ttl
      (x.length.toUInt8 :: bs) := by
  have hbuild : r.build rPtr ttl = r.putPtr ttl ⟨dnsInit, 0, none, none⟩ := by
    rw [Responder.build, if_neg (show ¬ rPtr &&& rA ≠ 0 by decide), if_neg (show ¬ rPtr &&& rTxt ≠ 0 by decide),
      if_neg (show ¬ rPtr &&& rSrv ≠ 0 by decide), if_pos (by decide)]
  obtain ⟨bs, hbs⟩ := dnsName_first hx rest
    (dnsRr none Responder.svcType dnsTypePtr dnsClassIn ttl dnsInit).2
  rw [← hfqdn] at hbs
  rw [Responder.sendRecords, hbuild] at h
  obtain ⟨hoverflow, hpkt⟩ := Option.ite_none_left_eq_some.mp h
  have hbuf := (record_extends svcType_spells hbs (Bool.not_eq_true _ ▸ hoverflow)).buf
  refine ⟨bs, ?_⟩
  have hd : (r.putPtr ttl ⟨dnsInit, 0, none, none⟩).d.buf = dnsInit.buf ++
      recordBytes (ownerBytes none serviceLabels) dnsTypePtr dnsClassIn ttl (x.length.toUInt8 :: bs) :=
    hbuf
  rw [hd] at hpkt
  exact (Option.some.inj hpkt).symm

/-- A name at a position begins with the length of its first label. -/
theorem first_length {pkt : List UInt8} {p q : ℕ} {x : Label} {n : Name} (h : NameAt pkt p (x :: n) q)
    {k : ℕ} (hk : k ≤ 63) (hbyte : pkt[p]? = some k.toUInt8) : x.length = k := by
  cases h with
  | label _ hshort hlength =>
    have hsame := congrArg UInt8.toNat (Option.some.inj (hlength.symm.trans hbyte))
    rwa [toUInt8_toNat (by omega), toUInt8_toNat (by omega)] at hsame
  | pointer hhi hmark =>
    obtain rfl := Option.some.inj (hhi.symm.trans hbyte)
    have hmark : 0xc0 ≤ k.toUInt8.toNat := hmark
    rw [toUInt8_toNat (by omega)] at hmark
    omega

/-- The target of a PTR record of the service begins where the data does. -/
theorem target_length {pkt : List UInt8} {type cls : UInt16} {ttl : UInt32} {k : ℕ} (hk : k ≤ 63)
    {bs : List UInt8}
    (h : Has pkt 12 (recordBytes (nameBytes serviceLabels) type cls ttl (k.toUInt8 :: bs)))
    {z : Record} {q : ℕ} (hz : RecordAt pkt 12 z q) {x : Label} {n : Name}
    (htarget : z.rdata = .ptr (x :: n)) : x.length = k := by
  obtain ⟨hhead, hdata⟩ := has_append.mp h
  obtain ⟨howner, -⟩ := has_append.mp hhead
  obtain ⟨-, hdata⟩ := has_append.mp hdata
  obtain ⟨hbyte, -⟩ := has_cons.mp hdata
  cases hz with
  | intro howner' _ _ _ _ hrdata =>
  obtain rfl := (howner'.unique (nameAt_of_bytes serviceLabels_valid howner)).2
  rw [htarget] at hrdata
  cases hrdata with
  | ptr hname => exact first_length hname hk hbyte

/-- A name with a dot is not the first label of the target. -/
theorem undotted_of_announcedIntact {r : Responder} (hshort : r.instanceName.length ≤ 63)
    (h : AnnouncedIntact r r.instanceName) : (0x2e : UInt8) ∉ r.instanceName := by
  intro hdot
  obtain ⟨x, y, hxy, hx⟩ := List.eq_append_cons_of_mem hdot
  have hlt : x.length < r.instanceName.length := by
    rw [hxy, List.length_append, List.length_cons]
    omega
  have hfqdn : r.instFqdn = x ++ 0x2e :: (y ++ bytes "." ++ slcServiceType ++ bytes ".local.") := by
    have hrest : (bytes "." ++ slcServiceType ++ bytes ".local.").length = 21 := by decide
    rw [Responder.instFqdn, snprintf, List.take_of_length_le]
    · simp [hxy]
    · rw [List.append_assoc, List.append_assoc, List.length_append, ← List.append_assoc, hrest]
      omega
  obtain ⟨pkt, m, hsent, hdecodes, htypes, hnames⟩ := h rPtr 120
  obtain ⟨bs, rfl⟩ := sendRecords_ptr hx hfqdn hsent
  -- The only answer is the PTR record, and it stands behind the header.
  have hquestions : m.questions = [] := by
    have hcount := hdecodes.qdcount
    exact List.length_eq_zero_iff.mp (Option.some.inj hcount).symm
  obtain ⟨z, hz⟩ := List.length_eq_one_iff.mp (show m.answers.length = 1 by
    have hlength := congrArg List.length htypes
    rwa [List.length_map] at hlength)
  obtain ⟨p₁, p₂, p₃, hqs, has, -⟩ := hdecodes.sections
  rw [hquestions] at hqs
  cases hqs
  rw [hz] at has htypes hnames
  cases has with
  | cons hrecord _ =>
  have hnamed := hnames z List.mem_cons_self
  have htype : z.rdata.type = 12 := List.head_eq_of_cons_eq htypes
  cases hr : z.rdata with
  | ptr target =>
    simp only [NamesInstance, hr] at hnamed
    have hhas := (has_append.mp (has_self (headerBytes 1 ++ recordBytes (nameBytes serviceLabels)
      dnsTypePtr dnsClassIn 120 (x.length.toUInt8 :: bs)))).2
    have hlength := target_length (by omega) hhas hrecord (hr.trans (congrArg _ hnamed))
    omega
  | a | txt | srv => simp [hr, RData.type] at htype

/-! ## Names that are carried -/

/-- The bytes of a name that both encoders carry: they stand for themselves in a string and are no
dots. A TAB is replaced. -/
def Carriable (c : UInt8) : Prop := c = 0x09 ∨ 0x20 ≤ c ∧ c ≠ 0x22 ∧ c ≠ 0x5c ∧ c ≠ 0x2e

/-- Whether a byte is carried is decided by comparing it. -/
instance (c : UInt8) : Decidable (Carriable c) :=
  inferInstanceAs (Decidable (c = 0x09 ∨ 0x20 ≤ c ∧ c ≠ 0x22 ∧ c ≠ 0x5c ∧ c ≠ 0x2e))

/-- A byte is carried if what stands for it in the name needs no escaping and is no dot. -/
theorem carriable_iff (c : UInt8) : Carriable c ↔
    isLiteral (if c = 0x20 ∨ c = 0x09 then 0x2d else c) = true ∧
      (if c = 0x20 ∨ c = 0x09 then 0x2d else c) ≠ 0x2e :=
  toNat_induction (P := fun c => Carriable c ↔
    isLiteral (if c = 0x20 ∨ c = 0x09 then 0x2d else c) = true ∧
      (if c = 0x20 ∨ c = 0x09 then 0x2d else c) ≠ 0x2e) (by decide +kernel) c

/-- The bytes of an argument that are carried make a name that is. -/
theorem deviceName_carriable (nameArg : CStr) : (∀ c ∈ nameArg.take 63, Carriable c) ↔
    (deviceName nameArg).all isLiteral = true ∧ (0x2e : UInt8) ∉ deviceName nameArg := by
  have hname : deviceName nameArg =
      (nameArg.take 63).map fun c => if c = 0x20 ∨ c = 0x09 then 0x2d else c := rfl
  rw [hname]
  simp only [carriable_iff, List.all_map, List.all_eq_true, Function.comp_apply, List.mem_map,
    not_exists, not_and]
  exact ⟨fun h => ⟨fun c hc => (h c hc).1, fun c hc => (h c hc).2⟩,
    fun h c hc => ⟨h.1 c hc, h.2 c hc⟩⟩

/-- A name without dots is a name that an instance can have. -/
theorem deviceName_instanceName {nameArg : CStr} (hne : nameArg ≠ []) (hnul : 0 ∉ nameArg)
    (hdot : (0x2e : UInt8) ∉ deviceName nameArg) : InstanceName (deviceName nameArg) where
  nonempty := by
    have hpos := List.length_pos_of_ne_nil hne
    rw [deviceName, List.length_map, snprintf, List.length_take]
    omega
  short := deviceName_length nameArg
  undotted := hdot
  noNul := by
    intro hzero
    obtain ⟨c, hc, hc0⟩ := List.mem_map.mp hzero
    split_ifs at hc0
    · exact absurd hc0 (by decide)
    · obtain rfl := hc0
      exact hnul (List.mem_of_mem_take hc)

/-- The responder that `main` starts. -/
def announcer (name : CStr) (port : UInt16) (minhz maxhz : UInt64) (ip : UInt32) : Responder :=
  mdnsBuiltinStart name port (mdnsTxt name minhz maxhz) ip

section
variable {name : CStr} (hname : name.length ≤ 63) (port : UInt16) (minhz maxhz : UInt64) (ip : UInt32)
include hname

/-- The announcer announces the name that it was given. -/
theorem announcer_instanceName : (announcer name port minhz maxhz ip).instanceName = name :=
  List.take_of_length_le hname

/-- The strings that `main` announces leave room for the rest of a packet. -/
theorem announcer_strings : (stringBytes (announcer name port minhz maxhz ip).txt).length ≤ 489 := by
  have hcut : ∀ t : CStr, (snprintf 160 t).length ≤ 159 := by
    intro t
    rw [snprintf, List.length_take]
    omega
  have hstring : (snprintf 160 (bytes "name=" ++ name)).length ≤ 68 := by
    rw [snprintf, List.length_take, List.length_append, show (bytes "name=").length = 5 by decide]
    omega
  have hfixed : (stringBytes ([bytes "proto=" ++ bytes "sdr-slc", bytes "proto_ver=" ++ bytes "1.0",
      bytes "functions=" ++ bytes "rx", bytes "hw=" ++ bytes "RTL-SDR-v4",
      bytes "fw=" ++ bytes "sdr-slc-rtld/1.0"].map (snprintf 160))).length = 75 := by
    decide
  have hmin := hcut (bytes "minhz=" ++ Libc.fmtUnsigned minhz.toNat)
  have hmax := hcut (bytes "maxhz=" ++ Libc.fmtUnsigned maxhz.toNat)
  simp only [announcer, mdnsBuiltinStart, mdnsTxt, stringBytes, List.map_cons, List.map_nil,
    List.flatMap_cons, List.flatMap_nil, List.length_append, List.length_cons, List.length_nil]
    at hfixed ⊢
  omega

/-- A name is announced as it is, if and only if it has no dots. -/
theorem announced_intact_iff (hi : (0x2e : UInt8) ∉ name → InstanceName name) :
    AnnouncedIntact (announcer name port minhz maxhz ip) name ↔ (0x2e : UInt8) ∉ name := by
  have hsame := announcer_instanceName hname port minhz maxhz ip
  constructor
  · intro h
    have hundotted := undotted_of_announcedIntact (r := announcer name port minhz maxhz ip)
    rw [hsame] at hundotted
    exact hundotted hname h
  · intro hdot
    have hintact := announcedIntact_of_undotted (r := announcer name port minhz maxhz ip)
    rw [hsame] at hintact
    exact hintact (hi hdot) (mdnsBuiltinStart_txt _ _ _ _) (announcer_strings hname port minhz maxhz ip)

end

/-- A name is carried intact, by the reply to `hello` and by every announcement, exactly when each
of the bytes that are kept is a TAB or a byte from the blank on that is no quotation mark, no
backslash and no dot. -/
theorem device_name_carried_iff {nameArg : CStr} (hne : nameArg ≠ []) (hnul : 0 ∉ nameArg)
    (opts : Options) {nonceHex : Option CStr} (hnonce : ∀ hex ∈ nonceHex, NonceHex hex)
    (port : UInt16) (minhz maxhz : UInt64) (ip : UInt32) :
    (HelloIntact { opts with deviceName := deviceName nameArg } nonceHex ∧
      AnnouncedIntact (announcer (deviceName nameArg) port minhz maxhz ip) (deviceName nameArg)) ↔
    ∀ c ∈ nameArg.take 63, Carriable c := by
  have hlength := deviceName_length nameArg
  rw [deviceName_carriable, hello_intact_iff hlength hnonce,
    announced_intact_iff hlength port minhz maxhz ip (deviceName_instanceName hne hnul)]

/-- A quotation mark breaks the reply to `hello`, and a dot breaks the announcements. -/
theorem name_not_carried :
    ¬ HelloIntact { openAccess with deviceName := deviceName (bytes "my \"sdr\"") } none ∧
    ¬ AnnouncedIntact (announcer (deviceName (bytes "rtl.shack")) 5555 24000000 1766000000
      (sAddr 192 168 1 7)) (deviceName (bytes "rtl.shack")) := by
  constructor
  · rw [hello_intact_iff (by decide) (by rintro _ ⟨⟩)]
    decide
  · rw [announced_intact_iff (by decide) _ _ _ _ (fun h => absurd h (by decide))]
    decide

/-- Blanks are replaced, and what is carried is the name with them replaced. -/
theorem device_name_carried_blanks :
    deviceName (bytes "my sdr\t1") = bytes "my-sdr-1" ∧
    HelloIntact { openAccess with deviceName := deviceName (bytes "my sdr\t1") }
      (some (authHex (List.replicate 16 0xa5))) ∧
    AnnouncedIntact (announcer (deviceName (bytes "my sdr\t1")) 5555 24000000 1766000000
      (sAddr 192 168 1 7)) (deviceName (bytes "my sdr\t1")) := by
  refine ⟨by decide, (device_name_carried_iff (by decide) (by decide) openAccess ?_ 5555 24000000
    1766000000 (sAddr 192 168 1 7)).mpr (by decide +kernel)⟩
  rintro _ ⟨⟩
  exact .inr ⟨List.replicate 16 0xa5, by decide, rfl⟩

end SlcRtld.Property
