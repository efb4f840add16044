import SlcRtld.Control.Text

/-!
# Replies are well formed

Every response has the same first members, with the id as `json_escape` leaves it, and one more. The
buffers have room for all of it: the escaped id is at most 287 bytes, the escaped message at most
511, and the codes and the nonce are short. So no response is cut, and each is an object of the
grammar whose id means the part of the request's id that was carried (`replies_well_formed`).
-/

namespace SlcRtld.Property

open Libc Json Control Auth

/-- The part of an id that a response carries: the longest prefix whose escaped form has at most 287
bytes. -/
structure Carried (p id : CStr) : Prop where
  isPrefix : p <+: id
  fits : (escaped p).length ≤ 287
  longest : ∀ q, q <+: id → (escaped q).length ≤ 287 → q <+: p

/-- A text is a complete object of the grammar with one member `id`, a string that means the part of
the id that a response carries. -/
def RepliesTo (id payload : CStr) : Prop :=
  ∃ v : Value, v.wellFormed = true ∧ v.text = payload ∧ (∃ pairs, v = .object [] pairs) ∧
    ∃ s, v.named (bytes "id") = [.string s] ∧ Carried (decode s) id

variable {id : CStr}

/-- The id that fits is carried. -/
theorem carried_fitting (id : CStr) : Carried (fitting 288 id) id where
  isPrefix := fitting_prefix 288 id
  fits := Nat.le_of_lt_succ (fitting_length (by decide) id)
  longest := fun _ hq hfits => fitting_longest hq (Nat.lt_succ_of_le hfits)

/-! ## The shape of a response -/

/-- The members that begin a response, as texts of the grammar. -/
def responseTexts (id : CStr) (status : String) : List (String × Document) :=
  [("type", constant "response"), ("id", escapedString 288 id), ("status", constant status)]

/-- A response is an object that carries the id, whatever its last member. -/
theorem response_repliesTo {status key : String} {d : Document}
    (hstatus : (bytes status).all isLiteral = true) (hkey : (bytes key).all isLiteral = true)
    (hne : bytes key ≠ bytes "id") (hd : d.wellFormed = true) :
    RepliesTo id (object (responseMembers id status ++ [member key d.text])) := by
  obtain ⟨ms, hms⟩ : ∃ ms, ms = (responseTexts id status ++ [(key, d)]).map fun m => (bytes m.1, m.2) :=
    ⟨_, rfl⟩
  have htext : object (responseMembers id status ++ [member key d.text]) = (compact ms).text := by
    rw [hms, ← object_eq_compact]
    simp only [responseTexts, responseMembers, List.map_cons, List.map_nil, List.map_append,
      constant_text, escapedString_text]
  simp only [responseTexts, List.map_cons, List.map_nil, List.cons_append,
    List.nil_append] at hms
  refine ⟨compact ms, compact_wellFormed ?_, htext.symm, ⟨_, by rw [hms, compact]⟩,
    (fitting 288 id).map escapeChar, ?_, ?_⟩
  · simp only [hms, List.forall_mem_cons, List.not_mem_nil, false_imp_iff, implies_true, and_true]
    exact ⟨⟨by decide, constant_wellFormed (by decide)⟩, ⟨by decide, escapedString_wellFormed _ _⟩,
      ⟨by decide, constant_wellFormed hstatus⟩, hkey, hd⟩
  · have htype : bytes "type" ≠ bytes "id" := by decide
    have hstat : bytes "status" ≠ bytes "id" := by decide
    rw [compact_named]
    simp only [hms, List.filter_cons, htype, hstat, hne, decide_true, decide_false, if_true,
      Bool.false_eq_true, if_false, List.filter_nil, List.map_cons, List.map_nil]
    rfl
  · rw [decode_escapeChar]
    exact carried_fitting id

/-! ## No response is cut -/

/-- An escaped id fits its buffer. -/
theorem jsonEscape_length {room : ℕ} (hroom : 0 < room) (s : CStr) :
    (jsonEscape room s).length < room := by
  rw [jsonEscape_eq]
  exact fitting_length hroom s

/-- A response is longer than its parts by a constant. -/
theorem response_length (status key : String) (t : CStr) :
    (object (responseMembers id status ++ [member key t])).length <
      (bytes status).length + (bytes key).length + t.length + 332 := by
  have hid : (jsonEscape 288 id).length < 288 := jsonEscape_length (by decide) id
  simp [object, responseMembers, length_member, literal, Control.quoted,
    show (bytes "type").length = 4 by decide, show (bytes "id").length = 2 by decide,
    show (bytes "status").length = 6 by decide, show (bytes "response").length = 8 by decide]
  omega

/-- The texts of the error codes are short and need no escaping. -/
theorem ErrorCode.text_plain (code : ErrorCode) :
    code.text.all isLiteral = true ∧ code.text.length ≤ 31 := by
  cases code <;> decide

/-- A good reply fits, and carries the id. -/
theorem okText_repliesTo {d : Document} (hd : d.wellFormed = true) (hlen : d.text.length ≤ 6271) :
    RepliesTo id (okText id d.text) := by
  have hlength := @response_length id "ok" "result" d.text
  rw [okText, snprintf_eq]
  · exact response_repliesTo (by decide) (by decide) (by decide) hd
  · rw [show (bytes "ok").length = 2 by decide, show (bytes "result").length = 6 by decide] at hlength
    rw [maxMsgBytes]
    omega

/-- An error fits, and carries the id. -/
theorem errorText_repliesTo (code : ErrorCode) (message : CStr) :
    RepliesTo id (errorText id code message) := by
  obtain ⟨hplain, hcode⟩ := ErrorCode.text_plain code
  have htext : (objectOf [("code", (Value.string (verbatim code.text)).alone),
      ("message", escapedString 512 message)]).text = object [member "code" (Control.quoted code.text),
        member "message" (Control.quoted (jsonEscape 512 message))] := by
    simp only [objectOf_text, List.map_cons, List.map_nil, Value.alone_text, escapedString_text,
      quoted_verbatim]
  rw [errorText, ← htext, snprintf_eq]
  · refine response_repliesTo (by decide) (by decide) (by decide) (objectOf_wellFormed ?_)
    simp only [List.forall_mem_cons, List.not_mem_nil, false_imp_iff, implies_true, and_true]
    refine ⟨⟨by decide, ?_⟩, by decide, escapedString_wellFormed _ _⟩
    rwa [Value.alone_wellFormed, Value.wellFormed, all_verbatim]
  · refine Nat.lt_of_lt_of_le (response_length ..) ?_
    have hmessage : (jsonEscape 512 message).length < 512 := jsonEscape_length (by decide) message
    simp [htext, object, length_member, Control.quoted, show (bytes "error").length = 5 by decide,
      show (bytes "code").length = 4 by decide, show (bytes "message").length = 7 by decide]
    omega

/-- What a failed authentication says about the next nonce, if there is one. -/
def detailsText (nonceHex : Option CStr) : Document :=
  objectOf (nonceHex.elim [] fun hex => [("nonce", (Value.string (verbatim hex)).alone)])

/-- The details of a failed response: well formed, short, and not cut. -/
theorem detailsText_spec {nonceHex : Option CStr}
    (hnonce : ∀ hex ∈ nonceHex, hex.all isLiteral = true ∧ hex.length ≤ 32) :
    (detailsText nonceHex).wellFormed = true ∧ (detailsText nonceHex).text.length < 96 ∧
    (detailsText nonceHex).text = nonceHex.elim (object []) fun hex =>
      snprintf 96 (object [member "nonce" (Control.quoted hex)]) := by
  cases nonceHex with
  | none => decide
  | some hex =>
    obtain ⟨hplain, hlength⟩ := hnonce hex rfl
    have htext : (detailsText (some hex)).text = object [member "nonce" (Control.quoted hex)] := by
      simp only [detailsText, Option.elim_some, objectOf_text, List.map_cons, List.map_nil,
        Value.alone_text, quoted_verbatim]
    have hshort : (detailsText (some hex)).text.length < 96 := by
      simp [htext, object, length_member, Control.quoted,
        show (bytes "nonce").length = 5 by decide]
      omega
    refine ⟨objectOf_wellFormed ?_, hshort, ?_⟩
    · simp only [Option.elim_some, List.forall_mem_cons, List.not_mem_nil, false_imp_iff,
        implies_true, and_true, Value.alone_wellFormed, Value.wellFormed, all_verbatim]
      exact ⟨by decide, hplain⟩
    · rw [Option.elim_some, snprintf_eq (htext ▸ hshort), htext]

/-- A failed response fits, and carries the id. -/
theorem authFailedText_repliesTo {nonceHex : Option CStr}
    (hnonce : ∀ hex ∈ nonceHex, hex.all isLiteral = true ∧ hex.length ≤ 32) :
    RepliesTo id (authFailedText id nonceHex) := by
  obtain ⟨hdetails, hshort, htext⟩ := detailsText_spec hnonce
  have herror : (objectOf [("code", constant "auth_failed"),
      ("message", constant "authentication was rejected"), ("details", detailsText nonceHex)]).text =
      object [member "code" (literal "auth_failed"),
        member "message" (literal "authentication was rejected"),
        member "details" (detailsText nonceHex).text] := by
    simp only [objectOf_text, List.map_cons, List.map_nil, constant_text]
  rw [authFailedText, ← htext, ← herror, snprintf_eq]
  · refine response_repliesTo (by decide) (by decide) (by decide) (objectOf_wellFormed ?_)
    simp only [List.forall_mem_cons, List.not_mem_nil, false_imp_iff, implies_true, and_true]
    exact ⟨⟨by decide, constant_wellFormed (by decide)⟩, ⟨by decide, constant_wellFormed (by decide)⟩,
      by decide, hdetails⟩
  · refine Nat.lt_of_lt_of_le (response_length ..) ?_
    simp [herror, object, length_member, literal, Control.quoted,
      show (bytes "error").length = 5 by decide, show (bytes "code").length = 4 by decide,
      show (bytes "message").length = 7 by decide, show (bytes "details").length = 7 by decide,
      show (bytes "auth_failed").length = 11 by decide,
      show (bytes "authentication was rejected").length = 27 by decide]
    omega

/-- The text of a nonce. -/
theorem authHex_nonce {nonce : Option (List UInt8)}
    (hnonce : ∀ raw ∈ nonce, raw.length = authNonceBytes) :
    ∀ hex ∈ nonce.map authHex, hex.all isLiteral = true ∧ hex.length ≤ 32 := by
  intro hex hhex
  obtain ⟨raw, hraw, rfl⟩ := Option.map_eq_some_iff.mp hhex
  obtain ⟨hplain, hlength⟩ := authHex_plain raw
  rw [hnonce raw hraw] at hlength
  exact ⟨hplain, hlength.le⟩

/-- Every response is a complete object of the grammar that carries the longest prefix of the id
whose escaped form has at most 287 bytes: a successful one with any text of the grammar of at most
6271 bytes as its result, a failure with any code and any message, and the one after a failed
authentication, with or without a new nonce. -/
theorem replies_well_formed (id : CStr) :
    (∀ d : Document, d.wellFormed = true → d.text.length ≤ 6271 → RepliesTo id (okText id d.text)) ∧
    (∀ code message, RepliesTo id (errorText id code message)) ∧
    ∀ nonce : Option (List UInt8), (∀ raw ∈ nonce, raw.length = authNonceBytes) →
      RepliesTo id (authFailedText id (nonce.map authHex)) :=
  ⟨fun _ hd hlen => okText_repliesTo hd hlen, errorText_repliesTo,
    fun _ hnonce => authFailedText_repliesTo (authHex_nonce hnonce)⟩

/-- An id of quotation marks and control characters, whose escaped form does not fit. -/
theorem replies_well_formed_controls :
    (escaped (0x22 :: List.replicate 126 0x01)).length = 758 ∧
    RepliesTo (0x22 :: List.replicate 126 0x01)
      (okText (0x22 :: List.replicate 126 0x01) (objectOf []).text) ∧
    RepliesTo (0x22 :: List.replicate 126 0x01) (authFailedText (0x22 :: List.replicate 126 0x01)
      ((some (List.replicate 16 0xff)).map authHex)) :=
  have h := replies_well_formed (0x22 :: List.replicate 126 0x01)
  ⟨by decide +kernel, h.1 (objectOf []) (by decide) (by decide),
    h.2.2 (some (List.replicate 16 0xff)) (by rintro raw ⟨⟩; rfl)⟩

end SlcRtld.Property
