import SlcRtld.Rtl.Radio
import SlcRtld.Vita.Packet
import Mathlib.Data.List.FinRange
import Mathlib.Logic.Function.Basic
import Mathlib.Tactic.FinCases

/-!
# The stream table

The session table of `vita/vita_tx.c` and the operations on it, each of which holds the table's
mutex and so is one step. An operation returns the packets it hands to `sendto` or `sendmmsg`, in
order; what the kernel then does with them changes nothing in the table.

Only `vita_session_add` and `vita_session_remove` make a slot active or free. Every other operation
does to an active slot one of three things that depend on no other slot (`SlotEvent`): it sends a
Context packet, sends the data of a buffer, or stores a Payload Format word. A run of operations
that does not remove a stream is, seen from its slot, a run of these (`run_project`).
-/

namespace SlcRtld.Vita

open Libc Rtl

/-! ## One slot -/

/-- `VitaSession`, without what only the log reads. -/
structure Slot where
  active : Bool
  vitaStreamId : UInt32
  destIp : List ℕ
  destPort : ℕ
  fmt : IqFormat
  payloadFmtWord0 : UInt32
  ifPktCount : UInt8
  ctxPktCount : UInt8
  ctxSent : Bool
  ctxLastRefWord : UInt32
  ctxLastPfWord0 : UInt32
  sampleCount : UInt64
  epochAtStart : UInt32
  rateHzAnchor : UInt64
deriving DecidableEq

/-- A slot after `memset`. -/
def Slot.zero : Slot :=
  ⟨false, 0, [0, 0, 0, 0], 0, .int16, 0, 0, 0, false, 0, 0, 0, 0, 0⟩

/-- The Reference Level word that a Context packet carries at a gain. -/
def refLevelWord (gainTenthDb : ℤ) : UInt32 :=
  vitaEncodeReferenceLevel (rtlReferenceLevelDbm (Double.ofRat (gainTenthDb / 10)))

/-- `send_context_locked` on an active slot, with Context packets enabled. -/
def Slot.sendContext (gainTenthDb : ℤ) (s : Slot) : Slot × List UInt8 :=
  let refWord := refLevelWord gainTenthDb
  let changed := !s.ctxSent || refWord ≠ s.ctxLastRefWord
    || s.payloadFmtWord0 ≠ s.ctxLastPfWord0
  ({ s with
      ctxPktCount := (s.ctxPktCount + 1) &&& 0xF
      ctxSent := true
      ctxLastRefWord := refWord
      ctxLastPfWord0 := s.payloadFmtWord0 },
    vitaBuildContextPacket s.vitaStreamId s.ctxPktCount s.payloadFmtWord0 refWord changed)

/-- The integer-seconds stamp of the next IF Data packet. -/
def Slot.tsi (s : Slot) : UInt32 :=
  s.epochAtStart + (if s.rateHzAnchor ≠ 0 then s.sampleCount / s.rateHzAnchor else 0).toUInt32

/-- The fractional stamp of the next IF Data packet. -/
def Slot.picos (s : Slot) : UInt64 :=
  if s.rateHzAnchor ≠ 0 then (s.sampleCount % s.rateHzAnchor) * 1000000000000 / s.rateHzAnchor
  else 0

/-- One round of the build loop of `vita_send_callback`, on the bytes that `chunk` points to. -/
def Slot.sendChunk (chunk : List UInt8) (s : Slot) : Slot × List UInt8 :=
  ({ s with
      ifPktCount := (s.ifPktCount + 1) &&& 0xF
      sampleCount := s.sampleCount + vitaSamplesPerPkt.toUInt64 },
    vitaBuildIfDataPacket s.vitaStreamId s.ifPktCount s.tsi s.picos chunk vitaSamplesPerPkt s.fmt)

/-- The build loop of `vita_send_callback`. -/
def Slot.sendChunks : ℕ → List UInt8 → Slot → Slot × List (List UInt8)
  | 0, _, s => (s, [])
  | n + 1, chunk, s =>
    let (s', pkt) := s.sendChunk chunk
    let (s'', pkts) := sendChunks n (chunk.drop (vitaSamplesPerPkt * 2)) s'
    (s'', pkt :: pkts)

/-- The number of packets that `vita_send_callback` makes of a buffer. -/
def numPkts (buf : List UInt8) : ℕ :=
  min (buf.length / (vitaSamplesPerPkt * 2)) vitaMmsgMaxPkts

/-- What an operation on the table can do to an active slot. -/
inductive SlotEvent where
  /-- A Context packet at a gain. -/
  | context (gainTenthDb : ℤ)
  /-- The data of a USB buffer. -/
  | data (buf : List UInt8)
  /-- A new Payload Format word. -/
  | payloadFormat (w : UInt32)

/-- The effect of an event on a slot, and the packets it sends. -/
def Slot.step (contextEnabled : Bool) (s : Slot) : SlotEvent → Slot × List (List UInt8)
  | .context gain =>
    if contextEnabled then ((s.sendContext gain).1, [(s.sendContext gain).2]) else (s, [])
  | .data buf => s.sendChunks (numPkts buf) buf
  | .payloadFormat w => ({ s with payloadFmtWord0 := w }, [])

/-- The effect of events in order. -/
def Slot.run (contextEnabled : Bool) : List SlotEvent → Slot → Slot × List (List UInt8)
  | [], s => (s, [])
  | e :: es, s =>
    let (s', pkts) := s.step contextEnabled e
    let (s'', pkts') := run contextEnabled es s'
    (s'', pkts ++ pkts')

/-! ## The table -/

/-- The static variables of `vita_tx.c`. -/
@[ext]
structure Table where
  /-- `s_sessions`. -/
  slots : VitaId → Slot
  /-- Whether `s_sock` is an open socket. -/
  sockOpen : Bool
  /-- `s_context_enabled`. -/
  contextEnabled : Bool

/-- A packet handed to the socket for the stream in a slot. -/
structure Datagram where
  slot : VitaId
  destIp : List ℕ
  destPort : ℕ
  pkt : List UInt8
deriving DecidableEq

/-- The packets of a slot with the destination it has. -/
def Slot.datagrams (s : Slot) (i : VitaId) (pkts : List (List UInt8)) : List Datagram :=
  pkts.map fun pkt => ⟨i, s.destIp, s.destPort, pkt⟩

/-- An event at one slot. -/
def Table.at (v : Table) (i : VitaId) (e : SlotEvent) : Table × List Datagram :=
  let (s, pkts) := (v.slots i).step v.contextEnabled e
  ({ v with slots := Function.update v.slots i s }, (v.slots i).datagrams i pkts)

/-- An event at every active slot: a loop over the table whose rounds touch their own slot only. -/
def Table.forActive (v : Table) (e : SlotEvent) : Table × List Datagram :=
  ({ v with slots := fun i =>
      if (v.slots i).active then ((v.slots i).step v.contextEnabled e).1 else v.slots i },
    (List.finRange maxVitaSessions).flatMap fun i =>
      if (v.slots i).active then
        (v.slots i).datagrams i ((v.slots i).step v.contextEnabled e).2
      else [])

/-- The slot that a token names, if it is one. -/
def slotOf (token : ℤ) : Option VitaId :=
  if h : 0 ≤ token ∧ token.toNat < maxVitaSessions then some ⟨token.toNat, h.2⟩ else none

/-- `vita_send_context_packet`. -/
def vitaSendContextPacket (token : ℤ) (gainTenthDb : ℤ) (v : Table) : Table × List Datagram :=
  match slotOf token with
  | none => (v, [])
  | some i =>
    if v.sockOpen && (v.slots i).active then v.at i (.context gainTenthDb) else (v, [])

/-- `vita_send_context_all`. -/
def vitaSendContextAll (gainTenthDb : ℤ) (v : Table) : Table × List Datagram :=
  if v.sockOpen then v.forActive (.context gainTenthDb) else (v, [])

/-- `vita_send_callback`. -/
def vitaSendCallback (buf : List UInt8) (v : Table) : Table × List Datagram :=
  if v.sockOpen && numPkts buf ≠ 0 then v.forActive (.data buf) else (v, [])

/-- `vita_update_payload_format`. -/
def vitaUpdatePayloadFormat (w : UInt32) (v : Table) : Table × List Datagram :=
  v.forActive (.payloadFormat w)

/-- The arguments of `vita_session_add`, and what it reads besides. -/
structure StreamParams where
  vitaStreamId : UInt32
  destIp : List ℕ
  destPort : ℕ
  fmt : IqFormat
  payloadFmtWord0 : UInt32
  /-- `time(NULL)`. -/
  time : UInt32
  /-- `g_rate_sps`. -/
  rateSps : UInt64
  /-- `g_gain_tenth_db`. -/
  gainTenthDb : ℤ

/-- A slot as `vita_session_add` fills it in. The words of the last Context packet stay behind from
the slot's earlier stream; `ctxSent` says that they do not count. -/
def Slot.fill (s : Slot) (p : StreamParams) : Slot :=
  { s with
    active := true
    vitaStreamId := p.vitaStreamId
    destIp := p.destIp
    destPort := p.destPort
    fmt := p.fmt
    payloadFmtWord0 := p.payloadFmtWord0
    ifPktCount := 0
    ctxPktCount := 0
    ctxSent := false
    sampleCount := 0
    epochAtStart := p.time
    rateHzAnchor := p.rateSps }

/-- The first free slot. -/
def freeSlot (v : Table) : Option VitaId :=
  (List.finRange maxVitaSessions).find? fun i => !(v.slots i).active

/-- `vita_session_add`: the token, and the table with the first Context packet sent. -/
def vitaSessionAdd (p : StreamParams) (v : Table) : ℤ × Table × List Datagram :=
  match freeSlot v with
  | none => (-1, v, [])
  | some i =>
    let filled := { v with slots := Function.update v.slots i ((v.slots i).fill p) }
    (i.val, filled.at i (.context p.gainTenthDb))

/-- `vita_session_remove`. -/
def vitaSessionRemove (token : ℤ) (v : Table) : Table × List Datagram :=
  match slotOf token with
  | none => (v, [])
  | some i => ({ v with slots := Function.update v.slots i Slot.zero }, [])

/-! ## Runs of operations -/

/-- The operations on the table. Those that read the gain carry the value it has at the time. -/
inductive VitaOp where
  | add (p : StreamParams)
  | remove (token : ℤ)
  | contextAll (gainTenthDb : ℤ)
  | contextPacket (token : ℤ) (gainTenthDb : ℤ)
  | updatePayloadFormat (w : UInt32)
  | callback (buf : List UInt8)

/-- The effect of an operation. -/
def Table.apply (v : Table) : VitaOp → Table × List Datagram
  | .add p => (vitaSessionAdd p v).2
  | .remove token => vitaSessionRemove token v
  | .contextAll gain => vitaSendContextAll gain v
  | .contextPacket token gain => vitaSendContextPacket token gain v
  | .updatePayloadFormat w => vitaUpdatePayloadFormat w v
  | .callback buf => vitaSendCallback buf v

/-- The effect of operations in order, and everything they send. -/
def Table.run : List VitaOp → Table → Table × List Datagram
  | [], v => (v, [])
  | o :: os, v =>
    let (v', ds) := v.apply o
    let (v'', ds') := run os v'
    (v'', ds ++ ds')

/-- The packets for the stream in a slot. -/
def pktsOf (i : VitaId) (ds : List Datagram) : List (List UInt8) :=
  (ds.filter (·.slot = i)).map (·.pkt)

/-- What an operation is for an active slot that it does not remove. -/
def VitaOp.eventAt (i : VitaId) : VitaOp → List SlotEvent
  | .add _ => []
  | .remove _ => []
  | .contextAll gain => [.context gain]
  | .contextPacket token gain => if slotOf token = some i then [.context gain] else []
  | .updatePayloadFormat w => [.payloadFormat w]
  | .callback buf => [.data buf]

/-! ## Seen from one slot -/

variable {v : Table} {i : VitaId}

/-- Data moves the two counters of a slot and nothing else. -/
theorem Slot.sendChunks_rest (n : ℕ) (buf : List UInt8) (s : Slot) : ∃ count samples,
    (s.sendChunks n buf).1 = { s with ifPktCount := count, sampleCount := samples } := by
  induction n generalizing buf s with
  | zero => exact ⟨s.ifPktCount, s.sampleCount, rfl⟩
  | succ n ih =>
    obtain ⟨count, samples, hrest⟩ := ih (buf.drop (vitaSamplesPerPkt * 2)) (s.sendChunk buf).1
    exact ⟨count, samples, hrest⟩

/-- An event neither activates nor ends a slot. -/
theorem Slot.step_active (ce : Bool) (s : Slot) (e : SlotEvent) :
    (s.step ce e).1.active = s.active := by
  cases e with
  | context gain => cases ce <;> rfl
  | data buf =>
    obtain ⟨_, _, hrest⟩ := Slot.sendChunks_rest (numPkts buf) buf s
    rw [Slot.step, hrest]
  | payloadFormat w => rfl

/-- An event keeps the stream's id. -/
theorem Slot.step_vitaStreamId (ce : Bool) (s : Slot) (e : SlotEvent) :
    (s.step ce e).1.vitaStreamId = s.vitaStreamId := by
  cases e with
  | context gain => cases ce <;> rfl
  | data buf =>
    obtain ⟨_, _, hrest⟩ := Slot.sendChunks_rest (numPkts buf) buf s
    rw [Slot.step, hrest]
  | payloadFormat w => rfl

/-- One run after the other. -/
theorem Slot.run_append (ce : Bool) (es es' : List SlotEvent) (s : Slot) :
    s.run ce (es ++ es') =
      (((s.run ce es).1.run ce es').1, (s.run ce es).2 ++ ((s.run ce es).1.run ce es').2) := by
  induction es generalizing s with
  | nil => rfl
  | cons e es ih => simp only [List.cons_append, Slot.run, ih, List.append_assoc]

/-- The packets of a slot, part by part. -/
theorem pktsOf_append (ds ds' : List Datagram) :
    pktsOf i (ds ++ ds') = pktsOf i ds ++ pktsOf i ds' := by
  rw [pktsOf, List.filter_append, List.map_append]
  rfl

/-- The packets that a slot has sent. -/
theorem pktsOf_datagrams_self (s : Slot) (pkts : List (List UInt8)) :
    pktsOf i (s.datagrams i pkts) = pkts := by
  simp [pktsOf, Slot.datagrams, List.filter_map, Function.comp_def]

/-- Another slot has sent none of them. -/
theorem pktsOf_datagrams_of_ne (s : Slot) {j : VitaId} (h : j ≠ i) (pkts : List (List UInt8)) :
    pktsOf i (s.datagrams j pkts) = [] := by
  simp [pktsOf, Slot.datagrams, List.filter_map, Function.comp_def, h]

/-- The packets that an active slot sends on an event. -/
theorem pktsOf_forActive (e : SlotEvent) (h : (v.slots i).active = true) :
    pktsOf i (v.forActive e).2 = ((v.slots i).step v.contextEnabled e).2 := by
  have hflat : ∀ (l : List VitaId), l.Nodup →
      pktsOf i (l.flatMap fun j => if (v.slots j).active then
        (v.slots j).datagrams j ((v.slots j).step v.contextEnabled e).2 else []) =
      if i ∈ l then ((v.slots i).step v.contextEnabled e).2 else [] := by
    intro l hl
    induction l with
    | nil => rfl
    | cons j l ih =>
      obtain ⟨hj, hl'⟩ := List.nodup_cons.mp hl
      rw [List.flatMap_cons, pktsOf_append, ih hl']
      by_cases hji : j = i
      · subst hji
        simp [h, hj, pktsOf_datagrams_self]
      · have hnil : pktsOf i (if (v.slots j).active then
            (v.slots j).datagrams j ((v.slots j).step v.contextEnabled e).2 else []) = [] := by
          split_ifs
          · exact pktsOf_datagrams_of_ne _ hji _
          · rfl
        rw [hnil, List.nil_append]
        simp [Ne.symm hji]
  rw [Table.forActive, hflat _ (List.nodup_finRange _)]
  simp

/-- The slot that is taken was free. -/
theorem freeSlot_inactive {j : VitaId} (h : freeSlot v = some j) : (v.slots j).active = false := by
  simpa using List.find?_some h

/-- A token is the number of its slot. -/
theorem slotOf_val (j : VitaId) : slotOf (j.val : ℤ) = some j := by
  simp [slotOf, j.isLt]

/-- The operation leaves the stream in the slot where it is. -/
def VitaOp.Keeps (i : VitaId) : VitaOp → Prop
  | .remove token => slotOf token ≠ some i
  | _ => True

/-- The operation neither adds nor removes a stream. -/
def VitaOp.Local : VitaOp → Prop
  | .add _ | .remove _ => False
  | _ => True

/-- An event for all active slots keeps what they are. -/
theorem forActive_identity (e : SlotEvent) (i : VitaId) :
    ((v.forActive e).1.slots i).active = (v.slots i).active ∧
      ((v.forActive e).1.slots i).vitaStreamId = (v.slots i).vitaStreamId := by
  simp only [Table.forActive]
  split_ifs
  · exact ⟨Slot.step_active .., Slot.step_vitaStreamId ..⟩
  · exact ⟨rfl, rfl⟩

/-- An event for one slot keeps what they are. -/
theorem at_identity (e : SlotEvent) (i j : VitaId) :
    ((v.at j e).1.slots i).active = (v.slots i).active ∧
      ((v.at j e).1.slots i).vitaStreamId = (v.slots i).vitaStreamId := by
  by_cases hji : i = j
  · subst hji
    simp [Table.at, Slot.step_active, Slot.step_vitaStreamId]
  · simp [Table.at, Function.update_of_ne hji]

/-- An operation that neither adds nor removes a stream leaves every stream in its slot. -/
theorem apply_identity {o : VitaOp} (ho : o.Local) (i : VitaId) :
    ((v.apply o).1.slots i).active = (v.slots i).active ∧
      ((v.apply o).1.slots i).vitaStreamId = (v.slots i).vitaStreamId := by
  cases o with
  | add | remove => exact absurd ho id
  | contextAll gain =>
    simp only [Table.apply, vitaSendContextAll]
    split_ifs
    · exact forActive_identity _ i
    · exact ⟨rfl, rfl⟩
  | contextPacket token gain =>
    simp only [Table.apply, vitaSendContextPacket]
    cases slotOf token with
    | none => exact ⟨rfl, rfl⟩
    | some j =>
      dsimp only
      split_ifs
      · exact at_identity _ i j
      · exact ⟨rfl, rfl⟩
  | updatePayloadFormat w => exact forActive_identity _ i
  | callback buf =>
    simp only [Table.apply, vitaSendCallback]
    split_ifs
    · exact forActive_identity _ i
    · exact ⟨rfl, rfl⟩

/-- No operation opens or closes the socket, or turns Context packets on or off. -/
theorem apply_config (o : VitaOp) : (v.apply o).1.sockOpen = v.sockOpen ∧
    (v.apply o).1.contextEnabled = v.contextEnabled := by
  cases o with
  | add p =>
    simp only [Table.apply, vitaSessionAdd]
    cases freeSlot v <;> exact ⟨rfl, rfl⟩
  | remove token =>
    simp only [Table.apply, vitaSessionRemove]
    cases slotOf token <;> exact ⟨rfl, rfl⟩
  | contextAll gain =>
    simp only [Table.apply, vitaSendContextAll]
    split_ifs <;> exact ⟨rfl, rfl⟩
  | contextPacket token gain =>
    simp only [Table.apply, vitaSendContextPacket]
    cases slotOf token with
    | none => exact ⟨rfl, rfl⟩
    | some j => dsimp only; split_ifs <;> exact ⟨rfl, rfl⟩
  | updatePayloadFormat w => exact ⟨rfl, rfl⟩
  | callback buf =>
    simp only [Table.apply, vitaSendCallback]
    split_ifs <;> exact ⟨rfl, rfl⟩

/-- An operation that does not remove the stream in an active slot does to the slot what its event
there does, and sends for the stream what the event sends. -/
theorem apply_project (hsock : v.sockOpen = true) (h : (v.slots i).active = true) {o : VitaOp}
    (ho : o.Keeps i) :
    (v.apply o).1.slots i = ((v.slots i).run v.contextEnabled (o.eventAt i)).1 ∧
      pktsOf i (v.apply o).2 = ((v.slots i).run v.contextEnabled (o.eventAt i)).2 := by
  -- an event for all active slots reaches this one
  have hall : ∀ e, (v.forActive e).1.slots i =
        ((v.slots i).run v.contextEnabled [e]).1 ∧
      pktsOf i (v.forActive e).2 = ((v.slots i).run v.contextEnabled [e]).2 := by
    intro e
    rw [pktsOf_forActive e h]
    simp [Table.forActive, Slot.run, h]
  cases o with
  -- another slot is taken, since this one is active
  | add p =>
    simp only [Table.apply, vitaSessionAdd]
    cases hfree : freeSlot v with
    | none => exact ⟨rfl, rfl⟩
    | some j =>
      have hji : j ≠ i := by
        rintro rfl
        simp [freeSlot_inactive hfree] at h
      refine ⟨?_, pktsOf_datagrams_of_ne _ hji _⟩
      simp [Table.at, Slot.run, VitaOp.eventAt, Function.update_of_ne hji.symm]
  -- another slot is given back
  | remove token =>
    simp only [Table.apply, vitaSessionRemove]
    cases htok : slotOf token with
    | none => exact ⟨rfl, rfl⟩
    | some j =>
      have hji : j ≠ i := fun hji => ho (hji ▸ htok)
      refine ⟨?_, rfl⟩
      simp [Slot.run, VitaOp.eventAt, Function.update_of_ne hji.symm]
  | contextAll gain =>
    simp only [Table.apply, vitaSendContextAll, hsock, if_true]
    exact hall _
  | contextPacket token gain =>
    simp only [Table.apply, vitaSendContextPacket, VitaOp.eventAt]
    cases htok : slotOf token with
    | none => exact ⟨rfl, rfl⟩
    | some j =>
      by_cases hji : j = i
      · subst hji
        simp [hsock, h, Table.at, Slot.run, pktsOf_datagrams_self]
      · have hne : ¬ (some j = some i) := fun he => hji (Option.some.inj he)
        simp only [hne, if_false]
        split_ifs
        · refine ⟨?_, pktsOf_datagrams_of_ne _ hji _⟩
          simp [Table.at, Slot.run, Function.update_of_ne (Ne.symm hji)]
        · exact ⟨rfl, rfl⟩
  | updatePayloadFormat w => exact hall _
  | callback buf =>
    simp only [Table.apply, vitaSendCallback, hsock, Bool.true_and]
    by_cases hn : numPkts buf = 0
    · simp [hn, VitaOp.eventAt, Slot.run, Slot.step, Slot.sendChunks, pktsOf]
    · simp only [ne_eq, hn, not_false_eq_true, decide_true, if_true]
      exact hall _

/-- Events neither activate nor end a slot. -/
theorem Slot.run_active (ce : Bool) (es : List SlotEvent) (s : Slot) :
    (s.run ce es).1.active = s.active := by
  induction es generalizing s with
  | nil => rfl
  | cons e es ih => exact (ih _).trans (s.step_active ce e)

/-- A run that does not remove the stream in an active slot is, seen from the slot, the run of its
events there. -/
theorem run_project (os : List VitaOp) (hsock : v.sockOpen = true)
    (h : (v.slots i).active = true) (hos : ∀ o ∈ os, o.Keeps i) :
    (v.run os).1.slots i =
        ((v.slots i).run v.contextEnabled (os.flatMap (·.eventAt i))).1 ∧
      pktsOf i (v.run os).2 =
        ((v.slots i).run v.contextEnabled (os.flatMap (·.eventAt i))).2 := by
  induction os generalizing v with
  | nil => exact ⟨rfl, rfl⟩
  | cons o os ih =>
    obtain ⟨ho, hos'⟩ := List.forall_mem_cons.mp hos
    obtain ⟨hslot, hpkts⟩ := apply_project hsock h ho
    have hactive : ((v.apply o).1.slots i).active = true := by
      rw [hslot, Slot.run_active, h]
    obtain ⟨hslot', hpkts'⟩ := ih ((apply_config o).1.trans hsock) hactive hos'
    simp only [Table.run, List.flatMap_cons, Slot.run_append, pktsOf_append]
    rw [hslot', hpkts', hpkts, hslot, (apply_config o).2]
    exact ⟨rfl, rfl⟩

/-- After `vita_session_add` has taken a slot, the slot is filled in and has sent its first Context
packet. -/
theorem vitaSessionAdd_spec {p : StreamParams} (h : (vitaSessionAdd p v).1 = i.val) :
    ((vitaSessionAdd p v).2.1.slots i =
        (((v.slots i).fill p).run v.contextEnabled [.context p.gainTenthDb]).1 ∧
      pktsOf i (vitaSessionAdd p v).2.2 =
        (((v.slots i).fill p).run v.contextEnabled [.context p.gainTenthDb]).2) ∧
      freeSlot v = some i := by
  cases hfree : freeSlot v with
  | none =>
    simp only [vitaSessionAdd, hfree] at h
    omega
  | some j =>
    simp only [vitaSessionAdd, hfree, Nat.cast_inj] at h
    obtain rfl : j = i := Fin.ext h
    simp [vitaSessionAdd, hfree, Table.at, Slot.run, pktsOf_datagrams_self]

/-- `vita_session_add` finds no free slot, or takes one and leaves the others alone. -/
theorem vitaSessionAdd_cases (p : StreamParams) (v : Table) :
    vitaSessionAdd p v = (-1, v, []) ∨ ∃ i : VitaId, (v.slots i).active = false ∧
      (vitaSessionAdd p v).1 = i.val ∧ ((vitaSessionAdd p v).2.1.slots i).active = true ∧
      ((vitaSessionAdd p v).2.1.slots i).vitaStreamId = p.vitaStreamId ∧
      ∀ j, j ≠ i → (vitaSessionAdd p v).2.1.slots j = v.slots j := by
  cases hfree : freeSlot v with
  | none => exact .inl (by simp only [vitaSessionAdd, hfree])
  | some i =>
    have hadd : vitaSessionAdd p v = ((i.val : ℤ),
        ({ v with slots := Function.update v.slots i ((v.slots i).fill p) }.at i
          (.context p.gainTenthDb))) := by
      simp only [vitaSessionAdd, hfree]
    rw [hadd]
    refine .inr ⟨i, freeSlot_inactive hfree, rfl, ?_, ?_, fun j hj => ?_⟩
    · rw [(at_identity _ i i).1]
      simp [Slot.fill]
    · rw [(at_identity _ i i).2]
      simp [Slot.fill]
    · simp [Table.at, Function.update_of_ne hj]

/-- A slot that is given back is all zero. -/
theorem vitaSessionRemove_slots {token : ℤ} (h : slotOf token = some i) :
    (vitaSessionRemove token v).1.slots = Function.update v.slots i Slot.zero := by
  simp only [vitaSessionRemove, h]

/-! ## All slots -/

/-- The events that an operation has at the slots it touches. -/
def VitaOp.Does : VitaOp → SlotEvent → Prop
  | .add p, e => e = .context p.gainTenthDb
  | .remove _, _ => False
  | .contextAll gain, e | .contextPacket _ gain, e => e = .context gain
  | .updatePayloadFormat w, e => e = .payloadFormat w
  | .callback buf, e => e = .data buf

/-- What an event keeps of a slot, an event for all active slots keeps of all. -/
theorem forActive_slots {S : Slot → Prop} {e : SlotEvent} (hv : ∀ k, S (v.slots k))
    (hstep : ∀ s, s.active = true → S s → S (s.step v.contextEnabled e).1) (k : VitaId) :
    S ((v.forActive e).1.slots k) := by
  simp only [Table.forActive]
  split_ifs with hactive
  · exact hstep _ hactive (hv k)
  · exact hv k

/-- What an event keeps of a slot, an event for one slot keeps of all. -/
theorem at_slots {S : Slot → Prop} {e : SlotEvent} {j : VitaId} (hv : ∀ k, S (v.slots k))
    (hstep : S (v.slots j) → S ((v.slots j).step v.contextEnabled e).1) (k : VitaId) :
    S ((v.at j e).1.slots k) := by
  by_cases hkj : k = j
  · subst hkj
    simpa [Table.at] using hstep (hv k)
  · simpa [Table.at, Function.update_of_ne hkj] using hv k

/-- The rule for what holds of every slot: it holds of an empty slot and of one that is filled in,
and the events that the operation has at active slots keep it. -/
theorem apply_slots {S : Slot → Prop} {o : VitaOp} (hv : ∀ k, S (v.slots k)) (hzero : S Slot.zero)
    (hfill : ∀ p s, o = .add p → S s → S (s.fill p))
    (hstep : ∀ s e, o.Does e → s.active = true → S s → S (s.step v.contextEnabled e).1)
    (k : VitaId) : S ((v.apply o).1.slots k) := by
  cases o with
  | add p =>
    simp only [Table.apply, vitaSessionAdd]
    cases freeSlot v with
    | none => exact hv k
    | some j =>
      -- the new slot is filled, and tells its context at once
      refine at_slots (fun l => ?_) (fun h => ?_) k
      · by_cases hlj : l = j
        · rw [hlj]
          simpa using hfill p _ rfl (hv j)
        · simpa [Function.update_of_ne hlj] using hv l
      · refine hstep _ _ rfl ?_ h
        simp [Slot.fill]
  | remove token =>
    simp only [Table.apply, vitaSessionRemove]
    cases slotOf token with
    | none => exact hv k
    | some j =>
      by_cases hkj : k = j
      · subst hkj
        simpa using hzero
      · simpa [Function.update_of_ne hkj] using hv k
  | contextAll gain =>
    simp only [Table.apply, vitaSendContextAll]
    split_ifs
    · exact forActive_slots hv (fun s => hstep s _ rfl) k
    · exact hv k
  | contextPacket token gain =>
    simp only [Table.apply, vitaSendContextPacket]
    cases slotOf token with
    | none => exact hv k
    | some j =>
      dsimp only
      split_ifs with hactive
      · exact at_slots hv (hstep _ _ rfl (Bool.and_eq_true_iff.mp hactive).2) k
      · exact hv k
  | updatePayloadFormat w => exact forActive_slots hv (fun s => hstep s _ rfl) k
  | callback buf =>
    simp only [Table.apply, vitaSendCallback]
    split_ifs
    · exact forActive_slots hv (fun s => hstep s _ rfl) k
    · exact hv k

/-- A slot that is not active is empty. -/
def Slot.Clear (s : Slot) : Prop := s.active = false → s = Slot.zero

/-- Slots that are not active stay clear. -/
theorem apply_clear (o : VitaOp) (hv : ∀ k, (v.slots k).Clear) (k : VitaId) :
    ((v.apply o).1.slots k).Clear := by
  refine apply_slots hv (fun _ => rfl) (fun p s _ _ => nofun) (fun s e _ hactive _ hinactive => ?_) k
  rw [Slot.step_active, hactive] at hinactive
  cases hinactive

/-- A stream that is added and removed again leaves every slot as it was, or empties a free one. -/
theorem remove_added_slots {p : StreamParams} (htoken : 0 ≤ (vitaSessionAdd p v).1) (l : VitaId) :
    (vitaSessionRemove (vitaSessionAdd p v).1 (vitaSessionAdd p v).2.1).1.slots l = v.slots l ∨
      (vitaSessionRemove (vitaSessionAdd p v).1 (vitaSessionAdd p v).2.1).1.slots l = Slot.zero ∧
        (v.slots l).active = false := by
  rcases vitaSessionAdd_cases p v with hfull | ⟨k, hfree, hk, -, -, hrest⟩
  · rw [hfull] at htoken
    exact absurd (show (0 : ℤ) ≤ -1 from htoken) (by decide)
  · rw [hk, vitaSessionRemove_slots (slotOf_val k)]
    by_cases hl : l = k
    · subst hl
      exact .inr ⟨Function.update_self .., hfree⟩
    · exact .inl ((Function.update_of_ne hl ..).trans (hrest l hl))

/-- In a table whose free slots are empty, it leaves no trace. -/
theorem remove_added_eq {p : StreamParams} (hv : ∀ k, (v.slots k).Clear)
    (htoken : 0 ≤ (vitaSessionAdd p v).1) :
    (vitaSessionRemove (vitaSessionAdd p v).1 (vitaSessionAdd p v).2.1).1 = v := by
  have hadded : (vitaSessionAdd p v).2.1.sockOpen = v.sockOpen ∧
      (vitaSessionAdd p v).2.1.contextEnabled = v.contextEnabled := apply_config (.add p)
  have hremoved := apply_config (v := (vitaSessionAdd p v).2.1) (.remove (vitaSessionAdd p v).1)
  have hslots : (vitaSessionRemove (vitaSessionAdd p v).1 (vitaSessionAdd p v).2.1).1.slots =
      v.slots := by
    funext l
    rcases remove_added_slots htoken l with hsame | ⟨hzero, hfree⟩
    · exact hsame
    · rw [hzero, hv l hfree]
  exact Table.ext hslots (hremoved.1.trans hadded.1) (hremoved.2.trans hadded.2)

/-- An event keeps the anchor of the rate. -/
theorem Slot.step_rateHzAnchor (ce : Bool) (s : Slot) (e : SlotEvent) :
    (s.step ce e).1.rateHzAnchor = s.rateHzAnchor := by
  cases e with
  | context gain => cases ce <;> rfl
  | data buf =>
    obtain ⟨_, _, hrest⟩ := Slot.sendChunks_rest (numPkts buf) buf s
    rw [Slot.step, hrest]
  | payloadFormat w => rfl

/-- Only a new Payload Format word changes the one that a slot has. -/
theorem Slot.step_payloadFmtWord0 (ce : Bool) (s : Slot) (e : SlotEvent) :
    (s.step ce e).1.payloadFmtWord0 = match e with
      | .payloadFormat w => w
      | _ => s.payloadFmtWord0 := by
  cases e with
  | context gain => cases ce <;> rfl
  | data buf =>
    obtain ⟨_, _, hrest⟩ := Slot.sendChunks_rest (numPkts buf) buf s
    rw [Slot.step, hrest]
  | payloadFormat w => rfl

end SlcRtld.Vita
