import SlcRtld.Libc.Endian

/-!
# Messages with a length prefix

A stream of bytes that carries messages, each after its length as four bytes, the highest first. A
`Reader` takes the stream in byte by byte, so what it has read does not depend on the pieces that
the bytes arrive in (`read_append`). Written frames are read back as they were (`read_frames`), and
a frame of which a part is missing is not read as a message (`read_part`). A length that is zero or
above the reader's limit ends the reading (`Reader.refused`).
-/

namespace SlcRtld.Wire

open Libc

/-- A message that is not empty and whose length four bytes can say. -/
structure Message where
  text : List UInt8
  nonempty : 0 < text.length
  short : text.length < 2 ^ 32
deriving DecidableEq

namespace Message

variable (m : Message)

/-- The four bytes of the length, as `htonl` stores them. -/
def header : List UInt8 := be32 m.text.length.toUInt32

/-- The length and the message. -/
def frame : List UInt8 := m.header ++ m.text

/-- The header has four bytes. -/
@[simp] theorem header_length : m.header.length = 4 := be32_length _

/-- A frame has four bytes more than its text. -/
@[simp] theorem frame_length : m.frame.length = m.text.length + 4 := by
  rw [frame, List.length_append, header_length, Nat.add_comm]

/-- The header is the length of the text. -/
theorem readBe32_header : readBe32 m.header = m.text.length := by
  have hread := readBe32_be32 m.text.length.toUInt32 []
  rw [List.append_nil, Nat.toUInt32, UInt32.toNat_ofNat', Nat.mod_eq_of_lt m.short] at hread
  exact hread

/-- The first bytes of a frame: its length, and the first bytes of the message. -/
theorem frame_take (k : ℕ) : m.frame.take (4 + k) = m.header ++ m.text.take k := by
  rw [frame, List.take_append, header_length, Nat.add_sub_cancel_left,
    List.take_of_length_le (by rw [header_length]; omega)]

end Message

/-! ## Reading -/

/-- Where a reader is: among the bytes of a length, in a message of a given length, or past a length
that it does not accept. -/
inductive Phase where
  | length (got : List UInt8)
  | body (len : ℕ) (got : List UInt8)
  | refused
deriving DecidableEq

/-- The messages that are complete, in order, and where the reader is. -/
structure Reader where
  done : List (List UInt8)
  phase : Phase
deriving DecidableEq

/-- A reader that has read nothing. -/
def Reader.start : Reader := ⟨[], .length []⟩

section
variable (limit : ℕ)

/-- Where a reader is after the four bytes of a length. -/
def Phase.ofLength (n : ℕ) : Phase := if n = 0 ∨ limit < n then .refused else .body n []

/-- One more byte. -/
def Reader.feed (r : Reader) (c : UInt8) : Reader :=
  match r.phase with
  | .length got =>
    if got.length + 1 < 4 then { r with phase := .length (got ++ [c]) }
    else { r with phase := Phase.ofLength limit (readBe32 (got ++ [c])) }
  | .body len got =>
    if got.length + 1 < len then { r with phase := .body len (got ++ [c]) }
    else ⟨r.done ++ [got ++ [c]], .length []⟩
  | .refused => r

/-- A reader after some bytes. -/
def Reader.feedAll (r : Reader) (cs : List UInt8) : Reader := cs.foldl (Reader.feed limit) r

/-- What is read of a stream. -/
def read (cs : List UInt8) : Reader := Reader.start.feedAll limit cs

end

section
variable {limit : ℕ} {r : Reader} {done : List (List UInt8)}

/-- No bytes. -/
@[simp] theorem Reader.feedAll_nil : r.feedAll limit [] = r := rfl

/-- Byte by byte. -/
theorem Reader.feedAll_cons (c : UInt8) (cs : List UInt8) :
    r.feedAll limit (c :: cs) = (r.feed limit c).feedAll limit cs := rfl

/-- The pieces that a stream arrives in do not matter. -/
theorem Reader.feedAll_append (cs ds : List UInt8) :
    r.feedAll limit (cs ++ ds) = (r.feedAll limit cs).feedAll limit ds := List.foldl_append

/-- Some bytes, and then more. -/
theorem read_append (cs ds : List UInt8) :
    read limit (cs ++ ds) = (read limit cs).feedAll limit ds := Reader.feedAll_append cs ds

/-- Bytes of a length that do not complete it. -/
theorem Reader.feedAll_length_part {got cs : List UInt8} (h : got.length + cs.length < 4) :
    Reader.feedAll limit ⟨done, .length got⟩ cs = ⟨done, .length (got ++ cs)⟩ := by
  induction cs generalizing got with
  | nil => rw [feedAll_nil, List.append_nil]
  | cons c cs ih =>
    rw [List.length_cons] at h
    have hfeed : Reader.feed limit ⟨done, .length got⟩ c = ⟨done, .length (got ++ [c])⟩ :=
      if_pos (by omega)
    rw [feedAll_cons, hfeed, ih (by rw [List.length_append, List.length_singleton]; omega),
      List.append_assoc, List.singleton_append]

/-- Bytes of a length that complete it. -/
theorem Reader.feedAll_length {got cs : List UInt8} (h : got.length + cs.length = 4) (hcs : cs ≠ []) :
    Reader.feedAll limit ⟨done, .length got⟩ cs = ⟨done, .ofLength limit (readBe32 (got ++ cs))⟩ := by
  obtain ⟨ds, c, rfl⟩ := List.eq_nil_or_concat cs |>.resolve_left hcs
  rw [List.concat_eq_append, List.length_append, List.length_singleton] at h
  rw [List.concat_eq_append, feedAll_append, feedAll_length_part (by omega), feedAll_cons, feedAll_nil,
    ← List.append_assoc]
  exact if_neg (by rw [List.length_append]; omega)

/-- Bytes of a message that do not complete it. -/
theorem Reader.feedAll_body_part {len : ℕ} {got cs : List UInt8} (h : got.length + cs.length < len) :
    Reader.feedAll limit ⟨done, .body len got⟩ cs = ⟨done, .body len (got ++ cs)⟩ := by
  induction cs generalizing got with
  | nil => rw [feedAll_nil, List.append_nil]
  | cons c cs ih =>
    rw [List.length_cons] at h
    have hfeed : Reader.feed limit ⟨done, .body len got⟩ c = ⟨done, .body len (got ++ [c])⟩ :=
      if_pos (by omega)
    rw [feedAll_cons, hfeed, ih (by rw [List.length_append, List.length_singleton]; omega),
      List.append_assoc, List.singleton_append]

/-- Bytes of a message that complete it. -/
theorem Reader.feedAll_body {len : ℕ} {got cs : List UInt8} (h : got.length + cs.length = len)
    (hcs : cs ≠ []) :
    Reader.feedAll limit ⟨done, .body len got⟩ cs = ⟨done ++ [got ++ cs], .length []⟩ := by
  obtain ⟨ds, c, rfl⟩ := List.eq_nil_or_concat cs |>.resolve_left hcs
  rw [List.concat_eq_append, List.length_append, List.length_singleton] at h
  rw [List.concat_eq_append, feedAll_append, feedAll_body_part (by omega), feedAll_cons, feedAll_nil,
    ← List.append_assoc]
  exact if_neg (by rw [List.length_append]; omega)

/-! ## Reading what was written -/

variable {m : Message}

/-- After the header the reader waits for the text. -/
theorem Reader.feedAll_header (hm : m.text.length ≤ limit) :
    Reader.feedAll limit ⟨done, .length []⟩ m.header = ⟨done, .body m.text.length []⟩ := by
  rw [feedAll_length (by rw [List.length_nil, Message.header_length])
    (List.ne_nil_of_length_pos (by rw [Message.header_length]; omega)), List.nil_append,
    Message.readBe32_header, Phase.ofLength, if_neg]
  have hpos := m.nonempty
  omega

/-- After a frame the reader has one text more, and waits for the next header. -/
theorem Reader.feedAll_frame (hm : m.text.length ≤ limit) :
    Reader.feedAll limit ⟨done, .length []⟩ m.frame = ⟨done ++ [m.text], .length []⟩ := by
  rw [Message.frame, feedAll_append, feedAll_header hm,
    feedAll_body (by rw [List.length_nil, Nat.zero_add]) (List.ne_nil_of_length_pos m.nonempty),
    List.nil_append]

/-- A part of a frame completes no message. -/
theorem Reader.feedAll_part {k : ℕ} (hm : m.text.length ≤ limit) (hk : k < m.frame.length) :
    (Reader.feedAll limit ⟨done, .length []⟩ (m.frame.take k)).done = done := by
  rw [Message.frame_length] at hk
  rcases Nat.lt_or_ge k 4 with hlt | hge
  · have htake : m.frame.take k = m.header.take k := by
      rw [Message.frame, List.take_append_of_le_length (by rw [Message.header_length]; omega)]
    rw [htake, feedAll_length_part (by rw [List.length_nil, List.length_take]; omega)]
  · obtain ⟨j, rfl⟩ := Nat.exists_eq_add_of_le hge
    rw [Message.frame_take, feedAll_append, feedAll_header hm, feedAll_body_part]
    rw [List.length_nil, List.length_take]
    omega

/-- Frames one after the other are read back as the messages that they carry. -/
theorem Reader.feedAll_frames {ms : List Message} (hms : ∀ m ∈ ms, m.text.length ≤ limit) :
    Reader.feedAll limit ⟨done, .length []⟩ (ms.flatMap Message.frame) =
      ⟨done ++ ms.map Message.text, .length []⟩ := by
  induction ms generalizing done with
  | nil => rw [List.flatMap_nil, feedAll_nil, List.map_nil, List.append_nil]
  | cons m ms ih =>
    obtain ⟨hm, hrest⟩ := List.forall_mem_cons.mp hms
    rw [List.flatMap_cons, feedAll_append, feedAll_frame hm, ih hrest, List.append_assoc]
    rfl

/-- The frames of several messages are read as their texts. -/
theorem read_frames {ms : List Message} (hms : ∀ m ∈ ms, m.text.length ≤ limit) :
    read limit (ms.flatMap Message.frame) = ⟨ms.map Message.text, .length []⟩ :=
  Reader.feedAll_frames hms

/-- Frames one after the other, and a part of one more. -/
theorem read_part {ms : List Message} {k : ℕ} (hms : ∀ m ∈ ms, m.text.length ≤ limit)
    (hm : m.text.length ≤ limit) (hk : k < m.frame.length) :
    (read limit (ms.flatMap Message.frame ++ m.frame.take k)).done = ms.map Message.text := by
  rw [read_append, read_frames hms, Reader.feedAll_part hm hk]

end

end SlcRtld.Wire
