import SlcRtld.Property.Accounting
import SlcRtld.Property.Notices

/-!
# The Context packet comes before the data

A Context packet carries the Reference Level word of the gain at the moment it is sent, and the slot
of a stream remembers the word of the last one (`Announced`). The gain changes in one critical
section and the Context packets go out in a later one, with the reply in between. A request that has
set the gain and not sent the Context packets yet is recalibrating. While none is, what the slots
remember is the word of the present gain (`UpToDate`). So every IF Data packet follows a Context
packet with that word, in every run in which no USB buffer arrives while a request is recalibrating
(`context_precedes_data`).
-/

namespace SlcRtld.Property

open Libc Rtl Auth Vita Json Control Effect

/-! ## What has been sent on a stream -/

/-- The packet of an observation. -/
def Obs.packet? : Obs → Option Datagram
  | .datagram g => some g
  | _ => none

/-- The last Context packet sent on a stream, of what has been observed, the last event first. The
stream is that with a Stream ID in a slot. -/
def lastContext (k : VitaId) (streamId : ℕ) (tr : List Obs) : Option (List UInt8) :=
  (pktsOf k (tr.filterMap Obs.packet?)).find? fun pkt => isContext pkt && streamIdOf pkt = streamId

/-- Before every IF Data packet that a move sends, the last Context packet on its stream carries the
Reference Level word of the gain. -/
def ContextFirst (P : Pool) (_ : Move) (P' : Pool) : Prop :=
  ∀ later g earlier, P'.daemon.trace = later ++ .datagram g :: earlier →
    P.daemon.trace.length ≤ earlier.length → isIfData g.pkt = true →
    ∃ c, lastContext g.slot (streamIdOf g.pkt) earlier = some c ∧
      refWordOf c = (refLevelWord P'.daemon.radio.gainTenthDb).toNat

/-- No USB buffer arrives while a request has set the gain and not sent the Context packets yet. -/
def Undisturbed (P : Pool) : Move → Prop
  | .usb _ _ => ∀ i, (P.track i).recalibrating = false
  | _ => True

/-- Whether a move is undisturbed can be computed. -/
instance (P : Pool) : DecidablePred (Undisturbed P)
  | .usb _ _ => inferInstanceAs (Decidable (∀ _, _))
  | .connect _ _ | .receive _ _ | .disconnect _ | .turn _ _ => inferInstanceAs (Decidable True)

/-! ## Packets of one slot -/

section
variable {s : Slot} {k : VitaId} {streamId : ℕ}

/-- The last Context packet of a stream, after some packets more. -/
def latest (streamId : ℕ) (last : Option (List UInt8)) (pkts : List (List UInt8)) :
    Option (List UInt8) :=
  (pkts.reverse.find? fun pkt => isContext pkt && streamIdOf pkt = streamId).or last

/-- The last context packet of two lists. -/
theorem latest_append (last : Option (List UInt8)) (pkts pkts' : List (List UInt8)) :
    latest streamId last (pkts ++ pkts') = latest streamId (latest streamId last pkts) pkts' := by
  rw [latest, List.reverse_append, List.find?_append, Option.or_assoc]
  rfl

/-- The last context packet after some datagrams more. -/
theorem lastContext_packets (ds : List Datagram) (tr : List Obs) :
    lastContext k streamId (ds.reverse.map .datagram ++ tr) =
      latest streamId (lastContext k streamId tr) (pktsOf k ds) := by
  have hpackets : (ds.reverse.map Obs.datagram).filterMap Obs.packet? = ds.reverse := by
    rw [List.filterMap_map]
    exact List.filterMap_some
  have hreverse : pktsOf k ds.reverse = (pktsOf k ds).reverse := by
    rw [pktsOf, List.filter_reverse, List.map_reverse]
    rfl
  rw [lastContext, List.filterMap_append, hpackets, pktsOf_append, List.find?_append, hreverse]
  rfl

/-- What is no Context packet does not count. -/
theorem lastContext_skip {os : List Obs} (h : ∀ g, .datagram g ∈ os → isContext g.pkt = false)
    (tr : List Obs) : lastContext k streamId (os ++ tr) = lastContext k streamId tr := by
  rw [lastContext, List.filterMap_append, pktsOf_append, List.find?_append, Option.or_eq_right_of_none]
  · rfl
  · rw [List.find?_eq_none]
    intro pkt hmem
    obtain ⟨g, hg, rfl⟩ := List.mem_map.mp hmem
    obtain ⟨o, ho, hpacket⟩ := List.mem_filterMap.mp (List.mem_filter.mp hg).1
    cases o with
    | datagram g' =>
      cases hpacket
      rw [h g ho]
      exact Bool.false_ne_true
    | _ => cases hpacket

/-- A data packet carries its stream's id. -/
theorem ifData_streamId (id : UInt32) (count : UInt8) (tsi : UInt32) (picos : UInt64)
    (chunk : List UInt8) (n : ℕ) (fmt : IqFormat) :
    streamIdOf (vitaBuildIfDataPacket id count tsi picos chunk n fmt) = id.toNat :=
  wordAt_flatMap rfl

/-- The data of a buffer goes out in IF Data packets of the stream. -/
theorem sendChunks_packets (n : ℕ) (buf : List UInt8) (s : Slot) :
    ∀ pkt ∈ (s.sendChunks n buf).2, isIfData pkt = true ∧ isContext pkt = false ∧
      streamIdOf pkt = s.vitaStreamId.toNat := by
  induction n generalizing buf s with
  | zero => exact fun pkt hmem => nomatch hmem
  | succ n ih =>
    refine List.forall_mem_cons.mpr ⟨?_, ih _ (s.sendChunk buf).1⟩
    have htype := (ifData_header s.vitaStreamId s.ifPktCount s.tsi s.picos buf vitaSamplesPerPkt s.fmt).1
    exact ⟨by rw [isIfData, htype]; rfl, by rw [isContext, htype]; rfl, ifData_streamId ..⟩

/-- The packet of `send_context_locked`, and what the slot remembers of it. -/
theorem sendContext_packet (gain : ℤ) (s : Slot) :
    isContext (s.sendContext gain).2 = true ∧ isIfData (s.sendContext gain).2 = false ∧
      streamIdOf (s.sendContext gain).2 = s.vitaStreamId.toNat ∧
      refWordOf (s.sendContext gain).2 = (refLevelWord gain).toNat := by
  have hfields := context_fields s.vitaStreamId s.ctxPktCount s.payloadFmtWord0
    (refLevelWord gain) (!s.ctxSent || refLevelWord gain ≠ s.ctxLastRefWord
      || s.payloadFmtWord0 ≠ s.ctxLastPfWord0)
  refine ⟨?_, ?_, hfields.streamId, hfields.refWord⟩
  · rw [isContext, Slot.sendContext, hfields.type]
    rfl
  · rw [isIfData, Slot.sendContext, hfields.type]
    rfl

/-- The Context packet carries the word that the slot remembers. -/
def Slot.Remembers (s : Slot) (last : Option (List UInt8)) : Prop :=
  ∃ c, last = some c ∧ refWordOf c = s.ctxLastRefWord.toNat

/-- After a context packet the slot remembers the level that it has told. -/
theorem sendContext_remembers (gain : ℤ) (s : Slot) (last : Option (List UInt8)) :
    Slot.Remembers (s.sendContext gain).1
      (latest s.vitaStreamId.toNat last [(s.sendContext gain).2]) := by
  obtain ⟨hcontext, -, hid, href⟩ := sendContext_packet gain s
  refine ⟨(s.sendContext gain).2, ?_, href⟩
  simp [latest, hcontext, hid]

/-- An event at a slot: what it sends is remembered. -/
theorem step_remembers {last : Option (List UInt8)} (e : SlotEvent) (h : Slot.Remembers s last) :
    Slot.Remembers (s.step true e).1 (latest s.vitaStreamId.toNat last (s.step true e).2) := by
  cases e with
  | context gain => exact sendContext_remembers gain s last
  | data buf =>
    obtain ⟨_, _, hrest⟩ := Slot.sendChunks_rest (numPkts buf) buf s
    have hnone : (s.step true (.data buf)).2.reverse.find?
        (fun pkt => isContext pkt && streamIdOf pkt = s.vitaStreamId.toNat) = none := by
      rw [List.find?_eq_none]
      intro pkt hmem
      rw [(sendChunks_packets _ buf s pkt (List.mem_reverse.mp hmem)).2.1]
      exact Bool.false_ne_true
    rw [latest, hnone, Option.none_or, Slot.step, hrest]
    exact h
  | payloadFormat w => exact h

/-- A slot remembers through a run of events. The induction is on the events. -/
theorem run_remembers {last : Option (List UInt8)} (es : List SlotEvent)
    (h : Slot.Remembers s last) :
    Slot.Remembers (s.run true es).1 (latest s.vitaStreamId.toNat last (s.run true es).2) := by
  induction es generalizing s last with
  | nil => exact h
  | cons e es ih =>
    have hrest := ih (step_remembers e h)
    rw [s.step_vitaStreamId] at hrest
    rw [Slot.run, latest_append]
    exact hrest

/-- The stream's id stays through a run of events. -/
theorem Slot.run_vitaStreamId (ce : Bool) (es : List SlotEvent) (s : Slot) :
    (s.run ce es).1.vitaStreamId = s.vitaStreamId := by
  induction es generalizing s with
  | nil => rfl
  | cons e es ih => exact (ih _).trans (s.step_vitaStreamId ce e)

variable {v : Table} {tr : List Obs} {o : VitaOp}

/-- A slot that is active after an operation was active before, or has just been taken. -/
theorem active_of_apply (h : ((v.apply o).1.slots k).active = true) :
    ((v.slots k).active = true ∧ o.Keeps k) ∨ ∃ p, o = .add p ∧ (vitaSessionAdd p v).1 = k.val := by
  -- an operation that is local to the slots opens and closes none
  by_cases hlocal : o.Local
  · rw [(apply_identity hlocal k).1] at h
    cases o with
    | add | remove => exact absurd hlocal id
    | _ => exact .inl ⟨h, trivial⟩
  cases o with
  | add p =>
    -- a slot that is active afterwards is the new one, or was active before
    by_cases htaken : (vitaSessionAdd p v).1 = k.val
    · exact .inr ⟨p, rfl, htaken⟩
    · refine .inl ⟨?_, trivial⟩
      simp only [Table.apply, vitaSessionAdd] at h htaken
      cases hfree : freeSlot v with
      | none =>
        rw [hfree] at h
        exact h
      | some j =>
        rw [hfree] at h htaken
        have hkj : k ≠ j := by
          rintro rfl
          exact htaken rfl
        simpa [Table.at, Function.update_of_ne hkj] using h
  | remove token =>
    simp only [Table.apply, vitaSessionRemove] at h
    cases htoken : slotOf token with
    | none =>
      rw [htoken] at h
      exact .inl ⟨h, by rw [VitaOp.Keeps, htoken]; exact (Option.some_ne_none k).symm⟩
    | some j =>
      rw [htoken] at h
      -- the slot that is given back is cleared
      by_cases hkj : k = j
      · subst hkj
        simp [Slot.zero] at h
      · refine .inl ⟨by simpa [Function.update_of_ne hkj] using h, ?_⟩
        rw [VitaOp.Keeps, htoken]
        exact fun heq => hkj (Option.some.inj heq).symm
  | _ => exact absurd trivial hlocal

/-! ## The table -/

/-- For every stream there has been a Context packet, and the last one carries the word that the
slot remembers. -/
structure Announced (v : Table) (tr : List Obs) : Prop where
  sock : v.sockOpen = true
  enabled : v.contextEnabled = true
  last : ∀ k, (v.slots k).active = true →
    Slot.Remembers (v.slots k) (lastContext k (v.slots k).vitaStreamId.toNat tr)

/-- An operation on the table keeps every slot's memory true to the packets. -/
theorem Announced.apply (h : Announced v tr) (o : VitaOp) :
    Announced (v.apply o).1 ((v.apply o).2.reverse.map .datagram ++ tr) := by
  obtain ⟨hsock, henabled⟩ := apply_config (v := v) o
  refine ⟨hsock.trans h.sock, henabled.trans h.enabled, fun k hactive => ?_⟩
  rw [lastContext_packets]
  rcases active_of_apply hactive with ⟨hactive, hkeeps⟩ | ⟨p, rfl, htaken⟩
  · obtain ⟨hslot, hpkts⟩ := apply_project h.sock hactive hkeeps
    rw [hpkts, hslot, h.enabled, Slot.run_vitaStreamId]
    exact run_remembers _ (h.last k hactive)
  · obtain ⟨⟨hslot, hpkts⟩, -⟩ := vitaSessionAdd_spec htaken
    rw [Table.apply, hpkts, hslot, h.enabled, Slot.run_vitaStreamId]
    exact sendContext_remembers p.gainTenthDb ((v.slots k).fill p) _

/-- What the slots remember is the word of a gain. -/
def UpToDate (v : Table) (gain : ℤ) : Prop :=
  ∀ k, (v.slots k).active = true → (v.slots k).ctxLastRefWord = refLevelWord gain

/-- The gain that an event reads, if it reads one. -/
def SlotEvent.At (gain : ℤ) : SlotEvent → Prop
  | .context g => g = gain
  | _ => True

/-- The gain that an operation reads, if it reads one. -/
def VitaOp.At (gain : ℤ) : VitaOp → Prop
  | .add p => p.gainTenthDb = gain
  | .contextAll g | .contextPacket _ g => g = gain
  | _ => True

/-- An event at this gain keeps the level that has been told. -/
theorem step_fresh {gain : ℤ} {e : SlotEvent} (he : SlotEvent.At gain e)
    (h : s.ctxLastRefWord = refLevelWord gain) :
    (s.step true e).1.ctxLastRefWord = refLevelWord gain := by
  cases e with
  | context g =>
    cases he
    rfl
  | data buf =>
    obtain ⟨_, _, hrest⟩ := Slot.sendChunks_rest (numPkts buf) buf s
    rw [Slot.step, hrest]
    exact h
  | payloadFormat w => exact h

/-- So does a run of events. The induction is on the events. -/
theorem run_fresh {gain : ℤ} {es : List SlotEvent} (hes : ∀ e ∈ es, SlotEvent.At gain e)
    (h : s.ctxLastRefWord = refLevelWord gain) :
    (s.run true es).1.ctxLastRefWord = refLevelWord gain := by
  induction es generalizing s with
  | nil => exact h
  | cons e es ih =>
    obtain ⟨he, hes'⟩ := List.forall_mem_cons.mp hes
    exact ih hes' (step_fresh he h)

/-- An operation at this gain causes events at this gain. -/
theorem eventAt_at {gain : ℤ} (ho : VitaOp.At gain o) : ∀ e ∈ o.eventAt k, SlotEvent.At gain e := by
  cases o with
  | add | remove => exact fun e he => absurd he List.not_mem_nil
  | contextAll g => exact List.forall_mem_singleton.mpr ho
  | contextPacket token g =>
    rw [VitaOp.eventAt]
    split_ifs
    · exact List.forall_mem_singleton.mpr ho
    · exact fun e he => absurd he List.not_mem_nil
  | updatePayloadFormat | callback => exact List.forall_mem_singleton.mpr trivial

/-- An operation at this gain keeps the table up to date. -/
theorem UpToDate.apply {gain : ℤ} (h : UpToDate v gain) (hsock : v.sockOpen = true)
    (henabled : v.contextEnabled = true) (ho : VitaOp.At gain o) : UpToDate (v.apply o).1 gain := by
  intro k hactive
  rcases active_of_apply hactive with ⟨hactive, hkeeps⟩ | ⟨p, rfl, htaken⟩
  · rw [(apply_project hsock hactive hkeeps).1, henabled]
    exact run_fresh (eventAt_at ho) (h k hactive)
  · rw [Table.apply, (vitaSessionAdd_spec htaken).1.1, henabled]
    cases ho
    rfl

/-- `vita_send_context_all` brings every slot up to date. -/
theorem fresh_contextAll (gain : ℤ) (hsock : v.sockOpen = true) (henabled : v.contextEnabled = true) :
    UpToDate (v.apply (.contextAll gain)).1 gain := by
  intro k hactive
  rw [(apply_identity (o := .contextAll gain) trivial k).1] at hactive
  rw [(apply_project (o := .contextAll gain) hsock hactive trivial).1, henabled]
  rfl

/-! ## The packets of an operation -/

/-- A packet for the active slots belongs to one of them. -/
theorem mem_forActive {e : SlotEvent} {g : Datagram} (h : g ∈ (v.forActive e).2) :
    (v.slots g.slot).active = true ∧ g.pkt ∈ ((v.slots g.slot).step v.contextEnabled e).2 := by
  obtain ⟨k, -, hk⟩ := List.mem_flatMap.mp h
  split_ifs at hk with hactive
  · obtain ⟨pkt, hpkt, rfl⟩ := List.mem_map.mp hk
    exact ⟨hactive, hpkt⟩
  · cases hk

/-- The packets of a USB buffer are IF Data packets of active streams. -/
theorem callback_packets {buf : List UInt8} {g : Datagram} (h : g ∈ (v.apply (.callback buf)).2) :
    (v.slots g.slot).active = true ∧ isContext g.pkt = false ∧
      streamIdOf g.pkt = (v.slots g.slot).vitaStreamId.toNat := by
  simp only [Table.apply, vitaSendCallback] at h
  split_ifs at h
  · obtain ⟨hactive, hpkt⟩ := mem_forActive h
    exact ⟨hactive, (sendChunks_packets _ buf _ _ hpkt).2⟩
  · cases h

/-- A context packet is no data packet. -/
theorem context_packets {ce : Bool} {gain : ℤ} {pkt : List UInt8}
    (h : pkt ∈ (s.step ce (.context gain)).2) : isIfData pkt = false := by
  rw [Slot.step] at h
  split_ifs at h
  · rw [List.mem_singleton.mp h]
    exact (sendContext_packet gain s).2.1
  · cases h

/-- No other operation sends an IF Data packet. -/
theorem no_data {g : Datagram} (ho : ∀ buf, o ≠ .callback buf) (h : g ∈ (v.apply o).2) :
    isIfData g.pkt = false := by
  -- what a slot sends with its context is a context packet
  have hat : ∀ {v : Table} {k gain}, g ∈ (v.at k (.context gain)).2 → isIfData g.pkt = false := by
    intro v k gain hg
    obtain ⟨pkt, hpkt, rfl⟩ := List.mem_map.mp hg
    exact context_packets hpkt
  cases o with
  -- a stream starts with its context
  | add p =>
    simp only [Table.apply, vitaSessionAdd] at h
    cases hfree : freeSlot v with
    | none =>
      rw [hfree] at h
      cases h
    | some k =>
      rw [hfree] at h
      exact hat h
  | remove token =>
    simp only [Table.apply, vitaSessionRemove] at h
    cases htoken : slotOf token <;> rw [htoken] at h <;> cases h
  | contextAll gain =>
    simp only [Table.apply, vitaSendContextAll] at h
    split_ifs at h
    · exact context_packets (mem_forActive h).2
    · cases h
  | contextPacket token gain =>
    simp only [Table.apply, vitaSendContextPacket] at h
    cases htoken : slotOf token with
    | none =>
      rw [htoken] at h
      cases h
    | some k =>
      rw [htoken] at h
      dsimp only at h
      split_ifs at h
      · exact hat h
      · cases h
  | updatePayloadFormat w => cases (mem_forActive h).2
  | callback buf => exact absurd rfl (ho buf)

end

/-! ## The daemon -/

section
variable {opts : Options} {env : Env} {m : Msg} {i : SessId} {d d' : Daemon} {q q' : Phase}

/-- The observation is no packet. -/
def Obs.silent : Obs → Prop
  | .datagram _ => False
  | _ => True

/-- An operation is one on the VITA table, at the present gain, or sends no packet. -/
theorem exec_packets {β : Type} {o : Op β} {b : β} (h : exec opts env m i β o d = some (b, d')) :
    (∃ x : VitaOp, (∀ buf, x ≠ .callback buf) ∧ VitaOp.At d.radio.gainTenthDb x ∧
      d' = d.vitaApply x) ∨
    d'.vita = d.vita ∧ Emits Obs.silent d d' := by
  by_cases hreads : o.Reads
  · rw [exec_reads hreads h]
    exact .inr ⟨rfl, .of_eq rfl⟩
  cases o with
  -- the operations of the table, none of which is the callback
  | vitaSessionAdd | vitaSessionRemove | vitaUpdatePayloadFormat | vitaSendContextAll =>
    cases h
    refine .inl ⟨_, ?_, ?_, rfl⟩
    · exact fun _ => nofun
    · first | rfl | trivial
  | set x =>
    cases h
    exact .inr ⟨rfl, _, rfl, forall_mem_map_obs (fun _ => trivial) _⟩
  | makeNonce =>
    refine .inr ⟨?_, .makeNonce (fun _ => trivial) h⟩
    obtain ⟨raw, -, rfl⟩ := makeNonce_eq h
    rfl
  | rxClaim =>
    obtain rfl : (d.rxClaim i).2 = d' := congrArg Prod.snd (Option.some.inj h)
    unfold Daemon.rxClaim
    split_ifs <;> exact .inr ⟨rfl, .of_eq rfl⟩
  | send f =>
    cases h
    exact .inr ⟨rfl, .send trivial d⟩
  | broadcast skipSelf e =>
    cases h
    exact .inr ⟨rfl, .log (forall_mem_map_obs (fun _ => trivial) _) d⟩
  | checkResponse =>
    cases h
    exact .inr ⟨rfl, .log (forall_mem_ite trivial) d⟩
  | freeSession =>
    cases h
    exact .inr ⟨rfl, [.closed i], rfl, List.forall_mem_singleton.mpr trivial⟩
  | bridgeStart | bridgeStopLocked =>
    cases h
    exact .inr ⟨rfl, _, rfl, forall_mem_ite trivial⟩
  | modify | rxReleaseLocked | allocStreamId | pthreadJoin | resetAdcLevel =>
    cases h
    exact .inr ⟨rfl, .of_eq rfl⟩
  | _ => exact absurd trivial hreads

/-- Where no packet is sent, the last Context packets stay the same. -/
theorem Announced.quiet (h : Announced d.vita d.trace) (hvita : d'.vita = d.vita)
    (hquiet : Emits Obs.silent d d') : Announced d'.vita d'.trace := by
  obtain ⟨new, htrace, hnew⟩ := hquiet
  rw [hvita, htrace]
  refine ⟨h.sock, h.enabled, fun k hactive => ?_⟩
  rw [lastContext_skip fun g hg => (hnew _ hg).elim]
  exact h.last k hactive

/-- Every operation of a handler keeps the memory of the slots, and sends no data. -/
theorem exec_announced {β : Type} {o : Op β} {b : β} (h : Announced d.vita d.trace)
    (hexec : exec opts env m i β o d = some (b, d')) :
    Announced d'.vita d'.trace ∧
      Emits (fun x => ∀ g, x = .datagram g → isIfData g.pkt = false) d d' := by
  rcases exec_packets hexec with ⟨x, hx, -, rfl⟩ | ⟨hvita, new, htrace, hnew⟩
  · refine ⟨h.apply x, _, rfl, fun o ho g hg => ?_⟩
    subst hg
    obtain ⟨g', hg', heq⟩ := List.mem_map.mp ho
    cases heq
    exact no_data hx (List.mem_reverse.mp hg')
  · refine ⟨h.quiet hvita ⟨new, htrace, hnew⟩, new, htrace, fun o ho g hg => ?_⟩
    subst hg
    exact (hnew _ ho).elim

/-- Only `rtl_set_gain` sets the gain. -/
theorem gain_of_set {β : Type} (x : Setting β) (hx : gainSet (.set x) = none) (dev : Device)
    (r : Radio) : (x.apply dev r).2.1.gainTenthDb = r.gainTenthDb := by
  cases x with
  | gain gainDb => cases hx
  | agc enable => rfl
  | frequency freqHz =>
    simp only [Setting.apply, rtlSetFrequency]
    split_ifs <;> rfl
  | sampleRate rateSps =>
    simp only [Setting.apply, rtlSetSampleRate]
    split_ifs <;> rfl
  | biasTee enable =>
    simp only [Setting.apply, rtlSetBiasTee]
    split_ifs <;> rfl
  | ppm value =>
    simp only [Setting.apply, rtlSetPpm]
    split_ifs <;> rfl
  | directSampling mode =>
    simp only [Setting.apply, rtlSetDirectSampling]
    split_ifs <;> rfl

/-- A request that is not recalibrating after an operation leaves the slots up to date, if they were
or if it was recalibrating before. -/
theorem exec_fresh {β : Type} {o : Op β} {b : β} (h : Announced d.vita d.trace)
    (hnext : Next q β o b q') (hexec : exec opts env m i β o d = some (b, d'))
    (hdone : q'.track.recalibrating = false)
    (hfresh : q.track.recalibrating = false → UpToDate d.vita d.radio.gainTenthDb) :
    UpToDate d'.vita d'.radio.gainTenthDb := by
  rw [hnext.track] at hdone
  -- no operation but a setting changes the gain, and packets carry the gain that is set
  have hother : (∀ x : Setting β, o ≠ .set x) → q.track.recalibrating = false →
      UpToDate d'.vita d'.radio.gainTenthDb := by
    intro hset hq
    have hradio : d'.radio = d.radio := by
      rcases exec_hardware hexec with ⟨x, hx, -⟩ | ⟨-, hradio, -⟩
      · exact absurd hx (hset x)
      · exact hradio
    rw [hradio]
    rcases exec_packets hexec with ⟨x, -, hgain, rfl⟩ | ⟨hvita, -⟩
    · exact (hfresh hq).apply h.sock h.enabled hgain
    · rw [hvita]
      exact hfresh hq
  cases o with
  | set x =>
    cases hexec
    have hsame : gainSet (.set x) = none → q.track.recalibrating = false →
        UpToDate d.vita (d.set env.device x).2.radio.gainTenthDb := by
      intro hx hq
      rw [show (d.set env.device x).2.radio.gainTenthDb = d.radio.gainTenthDb from
        gain_of_set x hx env.device d.radio]
      exact hfresh hq
    -- a new gain makes the next context packet due, so it is not done here
    cases x with
    | gain gainDb => cases hdone
    | _ => exact hsame rfl hdone
  -- the context goes to every active slot with the gain of the moment
  | vitaSendContextAll =>
    cases hexec
    exact fresh_contextAll _ h.sock h.enabled
  | rxClaim =>
    refine hother nofun ?_
    cases b <;> exact hdone
  | broadcast skipSelf e => exact hother nofun (by cases e <;> exact hdone)
  | _ => exact hother nofun hdone

/-- `rtl_callback` does nothing, or hands the buffer to `vita_send_callback`. -/
theorem rtlCallback_packets (buf : List UInt8) (nowMs : UInt64) (d : Daemon) :
    d.rtlCallback buf nowMs = d ∨ ∃ d₁ : Daemon, d₁.vita = d.vita ∧ Emits Obs.silent d d₁ ∧
      d.rtlCallback buf nowMs = d₁.vitaApply (.callback buf) := by
  unfold Daemon.rtlCallback
  split_ifs
  · rcases measureAdcLevel buf nowMs d.adc with ⟨_ | level, adc⟩
    · exact .inr ⟨{ d with adc := adc }, rfl, .of_eq rfl, rfl⟩
    · let d' : Daemon := { d with adc := adc }
      refine .inr ⟨d'.broadcast none (.adcOverload d'.overloadStream level), rfl, ?_, rfl⟩
      exact .trans (.of_eq rfl) (.log (forall_mem_map_obs (fun _ => trivial) _) d')
  · exact .inl rfl

/-- A USB buffer sends IF Data packets of active streams. -/
theorem rtlCallback_announced (h : Announced d.vita d.trace) (buf : List UInt8) (nowMs : UInt64) :
    Announced (d.rtlCallback buf nowMs).vita (d.rtlCallback buf nowMs).trace ∧
      (∀ gain, UpToDate d.vita gain → UpToDate (d.rtlCallback buf nowMs).vita gain) ∧
      Emits (fun x => ∀ g, x = .datagram g → (d.vita.slots g.slot).active = true ∧
        isContext g.pkt = false ∧ streamIdOf g.pkt = (d.vita.slots g.slot).vitaStreamId.toNat)
        d (d.rtlCallback buf nowMs) := by
  rcases rtlCallback_packets buf nowMs d with heq | ⟨d₁, hvita, hsilent, heq⟩
  · rw [heq]
    exact ⟨h, fun _ => id, .of_eq rfl⟩
  rw [heq]
  refine ⟨(h.quiet hvita hsilent).apply (.callback buf), fun gain hfresh => ?_, ?_⟩
  · rw [← hvita] at hfresh
    exact hfresh.apply (hvita ▸ h.sock) (hvita ▸ h.enabled) trivial
  · obtain ⟨new, htrace, hnew⟩ := hsilent
    refine Emits.trans ⟨new, htrace, ?_⟩ ⟨_, rfl, ?_⟩
    · rintro o ho g rfl
      exact (hnew _ ho).elim
    · rintro o ho g rfl
      obtain ⟨g', hg', heq⟩ := List.mem_map.mp ho
      cases heq
      rw [hvita] at hg'
      exact callback_packets (List.mem_reverse.mp hg')

end

/-! ## The pool -/

section
variable {opts : Options} {P P' : Pool} {m : Move}

/-- The invariant: while no request is recalibrating, what the slots remember is the word of the
gain. -/
def Calibrated (P : Pool) : Prop :=
  ∃ ph, InStep P ph ∧ Announced P.daemon.vita P.daemon.trace ∧
    ((∀ i, (ph i).track.recalibrating = false) → UpToDate P.daemon.vita P.daemon.radio.gainTenthDb)

/-- A packet among the new observations, and what was observed before it. -/
theorem split_new {new tr later earlier : List Obs} {x : Obs}
    (h : new ++ tr = later ++ x :: earlier) (hlen : tr.length ≤ earlier.length) :
    ∃ mid, earlier = mid ++ tr ∧ new = later ++ x :: mid := by
  rcases List.append_eq_append_iff.mp h with ⟨rest, -, htr⟩ | ⟨rest, hnew, hrest⟩
  · have hlen' := congrArg List.length htr
    simp only [List.length_append, List.length_cons] at hlen'
    omega
  · cases rest with
    | nil =>
      have hlen' := congrArg List.length hrest
      simp only [List.nil_append, List.length_cons] at hlen'
      omega
    | cons y mid =>
      obtain ⟨rfl, rfl⟩ := List.cons.inj hrest
      exact ⟨mid, rfl, hnew⟩

/-- A move that sends no IF Data packet. -/
theorem contextFirst_of_no_data
    (h : Emits (fun x => ∀ g, x = .datagram g → isIfData g.pkt = false) P.daemon P'.daemon) :
    ContextFirst P m P' := by
  obtain ⟨new, htrace, hnew⟩ := h
  intro later g earlier hsplit hlen hdata
  obtain ⟨mid, -, rfl⟩ := split_new (htrace.symm.trans hsplit) hlen
  have hno := hnew (.datagram g) (List.mem_append_right _ List.mem_cons_self) g rfl
  exact nomatch hno.symm.trans hdata

/-- One move keeps the invariant, and sends the context packet first. -/
theorem Calibrated.next (h : Calibrated P) (hmove : P.move opts m = some P')
    (hundisturbed : Undisturbed P m) : Calibrated P' ∧ ContextFirst P m P' := by
  obtain ⟨ph, hin, hann, hfresh⟩ := h
  obtain ⟨ph', hin', hturn⟩ := hin.next hmove
  -- a request that performs an operation, and is at the next place afterwards or done
  have hgo : ∀ {i env β} {o : Op β} {b : β} {q r : Phase},
      Next (ph i) β o b q → exec opts env (P.daemon.message i env) i β o P.daemon =
        some (b, P'.daemon) → r.track.recalibrating = q.track.recalibrating →
      (∀ j, (Function.update ph i r j).track.recalibrating = false) →
      UpToDate P'.daemon.vita P'.daemon.radio.gainTenthDb := by
    intro i env β o b q r hnext hexec hr hall
    have hdone := hall i
    rw [Function.update_self, hr] at hdone
    refine exec_fresh hann hnext hexec hdone fun hq => hfresh fun j => ?_
    by_cases hj : j = i
    · rw [hj]
      exact hq
    · have hj' := hall j
      rwa [Function.update_of_ne hj] at hj'
  obtain ⟨d', threads'⟩ := P'
  cases hturn with
  | connect fd stack =>
    have hsilent : Emits Obs.silent P.daemon (P.daemon.sessionCreate fd stack) ∧
        (P.daemon.sessionCreate fd stack).vita = P.daemon.vita := by
      rcases sessionCreate_cases fd stack P.daemon with hd | ⟨k, -, hd⟩
      · rw [hd]
        exact ⟨.of_eq rfl, rfl⟩
      · rw [hd]
        exact ⟨⟨[.connected k], rfl, List.forall_mem_singleton.mpr trivial⟩, rfl⟩
    obtain ⟨⟨new, htrace, hnew⟩, hvita⟩ := hsilent
    refine ⟨⟨ph, hin', hann.quiet hvita ⟨new, htrace, hnew⟩, fun hall => ?_⟩,
      contextFirst_of_no_data ⟨new, htrace, ?_⟩⟩
    · show UpToDate (P.daemon.sessionCreate fd stack).vita
        (P.daemon.sessionCreate fd stack).radio.gainTenthDb
      rw [hvita, (sessionCreate_hardware fd stack P.daemon).1]
      exact hfresh hall
    · rintro o ho g rfl
      exact (hnew _ ho).elim
  | receive | disconnect =>
    exact ⟨⟨ph, hin', hann, hfresh⟩, contextFirst_of_no_data (.of_eq rfl)⟩
  | @go i env _ _ _ _ _ hnext hexec =>
    obtain ⟨hann', hdata⟩ := exec_announced hann hexec
    exact ⟨⟨_, hin', hann', hgo hnext hexec rfl⟩, contextFirst_of_no_data hdata⟩
  | @finish i env _ _ _ _ _ _ hnext hexec hrests =>
    obtain ⟨hann', hdata⟩ := exec_announced hann hexec
    exact ⟨⟨_, hin', hann', hgo hnext hexec hrests.recalibrating.symm⟩,
      contextFirst_of_no_data hdata⟩
  | usb buf nowMs =>
    obtain ⟨hann', hkeeps, new, htrace, hnew⟩ := rtlCallback_announced hann buf nowMs
    have hradio := (rtlCallback_hardware buf nowMs P.daemon).1
    have hnow : UpToDate P.daemon.vita P.daemon.radio.gainTenthDb :=
      hfresh fun i => by rw [← hin.track i]; exact hundisturbed i
    refine ⟨⟨ph, hin', hann', fun _ => ?_⟩, fun later g earlier hsplit hlen _ => ?_⟩
    · show UpToDate _ (P.daemon.rtlCallback buf nowMs).radio.gainTenthDb
      rw [hradio]
      exact hkeeps _ hnow
    · obtain ⟨mid, rfl, rfl⟩ := split_new (htrace.symm.trans hsplit) hlen
      obtain ⟨hactive, -, hid⟩ := hnew (.datagram g) (List.mem_append_right _ List.mem_cons_self) g rfl
      -- what the buffer has sent before this packet is no Context packet
      have hmid : ∀ g', .datagram g' ∈ mid → isContext g'.pkt = false := fun g' hg' =>
        (hnew _ (List.mem_append_right _ (List.mem_cons_of_mem _ hg')) g' rfl).2.1
      obtain ⟨c, hc, href⟩ := hann.last g.slot hactive
      rw [lastContext_skip hmid, hid]
      refine ⟨c, hc, ?_⟩
      show refWordOf c = (refLevelWord (P.daemon.rtlCallback buf nowMs).radio.gainTenthDb).toNat
      rw [href, hradio, hnow g.slot hactive]

end

/-- With Context packets enabled, in every interleaving in which no USB buffer arrives while a
request has set the gain and not sent the Context packets yet: before every IF Data packet, the last
Context packet on its stream carries the Reference Level word of the gain. -/
theorem context_precedes_data (opts : Options) (dev : Device) (o : Startup) (ms : List Move)
    (hundisturbed : Along (Pool.move opts) (fun P m _ => Undisturbed P m) (Pool.init dev o true) ms) :
    Along (Pool.move opts) ContextFirst (Pool.init dev o true) ms := by
  have hstart : Calibrated (Pool.init dev o true) :=
    ⟨_, inStep_init dev o true, ⟨rfl, rfl, nofun⟩, fun _ => nofun⟩
  have hnext : ∀ P m P', Calibrated P → Pool.move opts P m = some P' → Undisturbed P m →
      Calibrated P' ∧ ContextFirst P m P' := fun _ _ _ h hmove hC => h.next hmove hC
  exact along_of_invariant hnext hstart hundisturbed

/-- Two clients have said `hello`, and the first one has started a stream. -/
def streaming : List Move := greeted ++ handles 0 openFrame 33 ++ handles 0 startFrame 20

/-- A USB buffer of one packet. -/
def usbBuffer : Move := .usb (List.replicate 512 127) 0

/-- The client sets the gain, and a USB buffer arrives afterwards. -/
def gainThenData : List Move := streaming ++ handles 0 gainFrame 26 ++ [usbBuffer]

/-- A gain is set and data are sent: the context packet comes first. -/
theorem context_precedes_data_in_order :
    (runActs (Pool.move openAccess) (Pool.init obedient ⟨.normal, false, false, 0, 0⟩ true)
      gainThenData).any (fun P => P.daemon.radio.gainTenthDb = 100 ∧
        P.daemon.trace.head?.any (fun o => (Obs.packet? o).any fun g => isIfData g.pkt) = true) = true ∧
    Along (Pool.move openAccess) ContextFirst (Pool.init obedient ⟨.normal, false, false, 0, 0⟩ true)
      gainThenData :=
  ⟨by decide +kernel, context_precedes_data openAccess obedient _ gainThenData (by decide +kernel)⟩

/-- The gain is set, and the USB buffer arrives before the reply. -/
theorem data_precedes_context :
    ∃ P P', Reachable (Pool.move openAccess) (Pool.init obedient ⟨.normal, false, false, 0, 0⟩ true) P ∧
      P.move openAccess usbBuffer = some P' ∧ ¬ ContextFirst P usbBuffer P' := by
  have hrun : ((runActs (Pool.move openAccess) (Pool.init obedient ⟨.normal, false, false, 0, 0⟩ true)
      (streaming ++ handles 0 gainFrame 22)).any fun P => (P.move openAccess usbBuffer).any fun P' =>
        P'.daemon.trace.tail = P.daemon.trace ∧ P'.daemon.trace.head?.any (fun o =>
          (Obs.packet? o).any fun g => isIfData g.pkt &&
            (lastContext g.slot (streamIdOf g.pkt) P.daemon.trace).map refWordOf ≠
              some (refLevelWord P'.daemon.radio.gainTenthDb).toNat) = true) = true := by
    decide +kernel
  obtain ⟨P, hP, hmove⟩ := (Option.any_eq_true ..).mp hrun
  obtain ⟨P', hP', hstale⟩ := (Option.any_eq_true ..).mp hmove
  obtain ⟨htail, hhead⟩ := of_decide_eq_true hstale
  obtain ⟨o, ho, hpacket⟩ := (Option.any_eq_true ..).mp hhead
  obtain ⟨g, hg, hdata⟩ := (Option.any_eq_true ..).mp hpacket
  refine ⟨P, P', ⟨_, hP⟩, hP', fun hfirst => ?_⟩
  obtain ⟨hifData, hword⟩ := Bool.and_eq_true_iff.mp hdata
  have htrace : P'.daemon.trace = [] ++ .datagram g :: P.daemon.trace := by
    cases o with
    | datagram g' =>
      cases hg
      rw [List.nil_append, ← htail]
      exact (List.cons_head?_tail ho).symm
    | _ => cases hg
  obtain ⟨c, hc, href⟩ := hfirst [] g P.daemon.trace htrace le_rfl hifData
  rw [hc, Option.map_some, href] at hword
  exact of_decide_eq_true hword rfl

end SlcRtld.Property
