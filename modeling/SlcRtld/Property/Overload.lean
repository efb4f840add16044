import SlcRtld.Rtl.Bridge

/-!
# Overload notifications

The level meter over a sequence of USB buffers, with resets in between. A notification needs an
onset, that is, an overloaded buffer while `g_adc_overload` is clear, and a gap to the last
notification (`buffer_cases`). So notifications keep their distance and stand on overloaded buffers.
But an onset that comes too early is not made up for: as long as the overload lasts there is no
other onset, unless the meter is reset. A run of overloaded buffers has a notification exactly when
it has an onset that is late enough (`overload_reported_iff`).
-/

namespace SlcRtld.Property

open Rtl

/-! ## The meter over a sequence of buffers -/

/-- What happens to the level meter: a USB buffer at a time, or `rtl_reset_adc_level`. -/
inductive MeterEvent where
  | buffer (nowMs : UInt64) (buf : List UInt8)
  | reset

/-- The buffer has samples, and of those that are looked at at least 100 in a million clip. -/
def Overloaded (buf : List UInt8) : Prop :=
  buf ≠ [] ∧ rtlAdcClipPpmTrigger * (sampled buf).length ≤ ((sampled buf).filter clips).length * 1000000

/-- Whether a buffer is overloaded can be computed. -/
instance (buf : List UInt8) : Decidable (Overloaded buf) := inferInstanceAs (Decidable (_ ∧ _))

/-- The meter after an event. -/
def MeterEvent.next (a : Adc) : MeterEvent → Adc
  | .buffer nowMs buf => (measureAdcLevel buf nowMs a).2
  | .reset => rtlResetAdcLevel a

/-- The time of the notification that an event gives, if it gives one. -/
def MeterEvent.notice (a : Adc) : MeterEvent → Option ℕ
  | .buffer nowMs buf => (measureAdcLevel buf nowMs a).1.map fun _ => nowMs.toNat
  | .reset => none

/-- The time of an event, if it is a buffer. -/
def MeterEvent.time? : MeterEvent → Option ℕ
  | .buffer nowMs _ => some nowMs.toNat
  | .reset => none

/-- The meter after a sequence of events. -/
def meterAfter (a : Adc) (es : List MeterEvent) : Adc := es.foldl MeterEvent.next a

/-- The times of the notifications along a sequence of events. -/
def notices : Adc → List MeterEvent → List ℕ
  | _, [] => []
  | a, e :: es => (e.notice a).toList ++ notices (e.next a) es

/-- The times of the buffers. -/
def times (es : List MeterEvent) : List ℕ := es.filterMap MeterEvent.time?

/-- The meter when the daemon starts. -/
def meterStart : Adc := ⟨0, 0, false, false, 0⟩

/-- The times do not decrease, and start at 1000 or later. -/
structure Timed (es : List MeterEvent) : Prop where
  sorted : (times es).Pairwise (· ≤ ·)
  late : ∀ t ∈ times es, 1000 ≤ t

/-! ## One buffer -/

section
variable {a : Adc} {nowMs : UInt64} {buf : List UInt8}

/-- A buffer that is not empty is sampled. -/
theorem sampled_length_pos (h : buf ≠ []) : 0 < (sampled buf).length := by
  have hpos := List.length_pos_of_ne_nil h
  rw [sampled, List.length_map, List.length_range, rtlAdcStride]
  omega

/-- The trigger compares the whole number of clipped samples per million. -/
theorem overloaded_iff (h : buf ≠ []) : Overloaded buf ↔
    rtlAdcClipPpmTrigger ≤ ((sampled buf).filter clips).length * 1000000 / (sampled buf).length := by
  rw [Nat.le_div_iff_mul_le (sampled_length_pos h)]
  exact ⟨fun hover => hover.2, fun hover => ⟨h, hover⟩⟩

/-- The gap does not wrap as long as time goes on. -/
theorem gap_iff (h : a.lastOverloadMs.toNat ≤ nowMs.toNat) :
    adcOverloadMinGapMs.toUInt64 ≤ nowMs - a.lastOverloadMs ↔
      a.lastOverloadMs.toNat + adcOverloadMinGapMs ≤ nowMs.toNat := by
  have hgap : adcOverloadMinGapMs.toUInt64.toNat = adcOverloadMinGapMs := rfl
  rw [UInt64.le_iff_toNat_le, hgap, UInt64.toNat_sub_of_le _ _ (UInt64.le_iff_toNat_le.mpr h)]
  omega

/-- A notification is given on an onset that is late enough, and its time is kept. -/
theorem measure_notice (hover : Overloaded buf) (honset : a.overload = false)
    (hlast : a.lastOverloadMs.toNat ≤ nowMs.toNat)
    (hgap : a.lastOverloadMs.toNat + adcOverloadMinGapMs ≤ nowMs.toNat) :
    (MeterEvent.buffer nowMs buf).notice a = some nowMs.toNat ∧
      ((MeterEvent.buffer nowMs buf).next a).lastOverloadMs = nowMs := by
  have hne : buf.isEmpty = false := List.isEmpty_eq_false_iff.mpr hover.1
  have htrigger := (overloaded_iff hover.1).mp hover
  simp only [MeterEvent.notice, MeterEvent.next, measureAdcLevel, hne, Bool.false_eq_true, if_false,
    htrigger, decide_true, honset, Bool.not_false, Bool.and_true, Bool.true_and, decide_eq_true_eq,
    if_pos ((gap_iff hlast).mpr hgap)]
  exact ⟨rfl, trivial⟩

/-- Otherwise there is none, and the time of the last one stays. -/
theorem measure_quiet (hlast : a.lastOverloadMs.toNat ≤ nowMs.toNat)
    (h : ¬ (Overloaded buf ∧ a.overload = false ∧
      a.lastOverloadMs.toNat + adcOverloadMinGapMs ≤ nowMs.toNat)) :
    (MeterEvent.buffer nowMs buf).notice a = none ∧
      ((MeterEvent.buffer nowMs buf).next a).lastOverloadMs = a.lastOverloadMs := by
  unfold MeterEvent.notice MeterEvent.next measureAdcLevel
  by_cases hempty : buf.isEmpty
  · simp only [hempty, if_true]
    exact ⟨rfl, trivial⟩
  · have hne : buf ≠ [] := fun hnil => hempty (hnil ▸ rfl)
    have hcond : (decide (rtlAdcClipPpmTrigger ≤
        ((sampled buf).filter clips).length * 1000000 / (sampled buf).length) && !a.overload &&
        decide (adcOverloadMinGapMs.toUInt64 ≤ nowMs - a.lastOverloadMs)) ≠ true := by
      intro hall
      simp only [Bool.and_eq_true, decide_eq_true_eq, Bool.not_eq_true', ← overloaded_iff hne,
        gap_iff hlast] at hall
      exact h ⟨hall.1.1, hall.1.2, hall.2⟩
    simp only [hempty, if_neg hcond, Bool.false_eq_true, if_false]
    exact ⟨rfl, trivial⟩

/-- A buffer gives a notification, or leaves the time of the last one as it is. -/
theorem buffer_cases (buf : List UInt8) (hlast : a.lastOverloadMs.toNat ≤ nowMs.toNat) :
    (Overloaded buf ∧ a.overload = false ∧
        a.lastOverloadMs.toNat + adcOverloadMinGapMs ≤ nowMs.toNat ∧
        (MeterEvent.buffer nowMs buf).notice a = some nowMs.toNat ∧
        ((MeterEvent.buffer nowMs buf).next a).lastOverloadMs = nowMs) ∨
      (¬ (Overloaded buf ∧ a.overload = false ∧
          a.lastOverloadMs.toNat + adcOverloadMinGapMs ≤ nowMs.toNat) ∧
        (MeterEvent.buffer nowMs buf).notice a = none ∧
        ((MeterEvent.buffer nowMs buf).next a).lastOverloadMs = a.lastOverloadMs) := by
  by_cases h : Overloaded buf ∧ a.overload = false ∧
      a.lastOverloadMs.toNat + adcOverloadMinGapMs ≤ nowMs.toNat
  · obtain ⟨hover, honset, hgap⟩ := h
    exact .inl ⟨hover, honset, hgap, measure_notice hover honset hlast hgap⟩
  · exact .inr ⟨h, measure_quiet hlast h⟩

end

/-! ## A sequence of events -/

section
variable {a : Adc} {es es' : List MeterEvent}

/-- Some buffers, and then more. -/
theorem meterAfter_append (a : Adc) (es es' : List MeterEvent) :
    meterAfter a (es ++ es') = meterAfter (meterAfter a es) es' := List.foldl_append

/-- The times go on from the last notification. -/
structure Onward (a : Adc) (es : List MeterEvent) : Prop where
  sorted : (times es).Pairwise (· ≤ ·)
  later : ∀ t ∈ times es, a.lastOverloadMs.toNat ≤ t

/-- Time goes on from an event to the next ones. -/
theorem Onward.next {e : MeterEvent} (h : Onward a (e :: es)) : Onward (e.next a) es := by
  obtain ⟨hsorted, hlater⟩ := h
  cases e with
  | reset => exact ⟨hsorted, hlater⟩
  | buffer nowMs buf =>
    obtain ⟨hnow, hrest⟩ := List.pairwise_cons.mp hsorted
    obtain ⟨hlast, hlater⟩ := List.forall_mem_cons.mp hlater
    refine ⟨hrest, fun t ht => ?_⟩
    rcases buffer_cases buf hlast with ⟨-, -, -, -, hnext⟩ | ⟨-, -, hnext⟩
    · rw [hnext]
      exact hnow t ht
    · rw [hnext]
      exact hlater t ht

/-- Notifications keep their distance, from each other and from the last one. -/
theorem notices_apart (h : Onward a es) :
    (∀ s ∈ notices a es, a.lastOverloadMs.toNat + adcOverloadMinGapMs ≤ s) ∧
      (notices a es).Pairwise (fun s t => s + adcOverloadMinGapMs ≤ t) := by
  induction es generalizing a with
  | nil => exact ⟨nofun, .nil⟩
  | cons e es ih =>
    obtain ⟨hfrom, hapart⟩ := ih h.next
    cases e with
    | reset => exact ⟨hfrom, hapart⟩
    | buffer nowMs buf =>
      have hlast := (List.forall_mem_cons.mp h.later).1
      rcases buffer_cases buf hlast with ⟨-, -, hgap, hnotice, hnext⟩ | ⟨-, hnotice, hnext⟩
      · rw [hnext] at hfrom
        rw [notices, hnotice]
        refine ⟨List.forall_mem_cons.mpr ⟨hgap, fun s hs => ?_⟩, List.pairwise_cons.mpr ⟨hfrom, hapart⟩⟩
        exact Nat.le_trans hgap (Nat.le_trans (Nat.le_add_right _ _) (hfrom s hs))
      · rw [hnext] at hfrom
        rw [notices, hnotice]
        exact ⟨hfrom, hapart⟩

/-- The last notification is the latest one. -/
theorem last_notice (h : Onward a es) (t : ℕ) :
    (meterAfter a es).lastOverloadMs.toNat ≤ t ↔
      a.lastOverloadMs.toNat ≤ t ∧ ∀ s ∈ notices a es, s ≤ t := by
  induction es generalizing a with
  | nil => exact ⟨fun hle => ⟨hle, nofun⟩, fun hle => hle.1⟩
  | cons e es ih =>
    have ih := ih h.next
    cases e with
    | reset => exact ih
    | buffer nowMs buf =>
      have hlast := (List.forall_mem_cons.mp h.later).1
      rcases buffer_cases buf hlast with ⟨-, -, -, hnotice, hnext⟩ | ⟨-, hnotice, hnext⟩
      · rw [hnext] at ih
        rw [notices, hnotice]
        refine ih.trans ⟨fun hall => ⟨Nat.le_trans hlast hall.1, List.forall_mem_cons.mpr hall⟩,
          fun hall => List.forall_mem_cons.mp hall.2⟩
      · rw [hnext] at ih
        rw [notices, hnotice]
        exact ih

/-- An onset along the events that comes late enough after a time. -/
def LateOnset (a : Adc) (last : ℕ) (es : List MeterEvent) : Prop :=
  ∃ before nowMs buf rest, es = before ++ .buffer nowMs buf :: rest ∧ Overloaded buf ∧
    (meterAfter a before).overload = false ∧ last + adcOverloadMinGapMs ≤ nowMs.toNat

/-- The first event is such an onset, or one of the others is. -/
theorem lateOnset_cons {last : ℕ} {e : MeterEvent} : LateOnset a last (e :: es) ↔
    (∃ nowMs buf, e = .buffer nowMs buf ∧ Overloaded buf ∧ a.overload = false ∧
      last + adcOverloadMinGapMs ≤ nowMs.toNat) ∨ LateOnset (e.next a) last es := by
  constructor
  · rintro ⟨before, nowMs, buf, rest, hsplit, h⟩
    rcases List.cons_eq_append_iff.mp hsplit with ⟨rfl, hhead⟩ | ⟨before', rfl, rfl⟩
    · exact .inl ⟨nowMs, buf, (List.cons.inj hhead).1.symm, h⟩
    · exact .inr ⟨before', nowMs, buf, rest, rfl, h⟩
  · rintro (⟨nowMs, buf, rfl, h⟩ | ⟨before, nowMs, buf, rest, rfl, h⟩)
    · exact ⟨[], nowMs, buf, es, rfl, h⟩
    · exact ⟨e :: before, nowMs, buf, rest, rfl, h⟩

/-- A part of a sequence has a notification exactly when it has an onset that is late enough after
the last notification before it. -/
theorem notices_ne_nil_iff (h : Onward a es) :
    notices a es ≠ [] ↔ LateOnset a a.lastOverloadMs.toNat es := by
  induction es generalizing a with
  | nil =>
    refine ⟨fun hne => absurd rfl hne, ?_⟩
    rintro ⟨before, _, _, _, hnil, -⟩
    cases before <;> cases hnil
  | cons e es ih =>
    have ih := ih h.next
    rw [lateOnset_cons]
    cases e with
    | reset =>
      refine ih.trans ⟨.inr, fun h => h.resolve_left ?_⟩
      rintro ⟨_, _, hbuffer, -⟩
      cases hbuffer
    | buffer nowMs buf =>
      have hlast := (List.forall_mem_cons.mp h.later).1
      rcases buffer_cases buf hlast with ⟨hover, honset, hgap, hnotice, -⟩ | ⟨hquiet, hnotice, hnext⟩
      · rw [notices, hnotice]
        exact ⟨fun _ => .inl ⟨nowMs, buf, rfl, hover, honset, hgap⟩, fun _ => List.cons_ne_nil _ _⟩
      · rw [hnext] at ih
        rw [notices, hnotice]
        refine ih.trans ⟨.inr, fun h => h.resolve_left ?_⟩
        rintro ⟨_, _, hbuffer, honset⟩
        cases hbuffer
        exact hquiet honset

/-- A run in parts. -/
theorem Onward.append (h : Onward a (es ++ es')) : Onward a es ∧ Onward (meterAfter a es) es' := by
  induction es generalizing a with
  | nil => exact ⟨⟨.nil, nofun⟩, h⟩
  | cons e es ih =>
    obtain ⟨-, hrest⟩ := ih h.next
    have htimes : times (e :: es ++ es') = times (e :: es) ++ times es' := List.filterMap_append
    have hsorted := h.sorted
    have hlater := h.later
    rw [htimes] at hsorted hlater
    exact ⟨⟨(List.pairwise_append.mp hsorted).1, fun t ht => hlater t (List.mem_append_left _ ht)⟩, hrest⟩

end

/-! ## Runs of overloaded buffers -/

/-- A part of a sequence that begins and ends with a buffer, in which every buffer is overloaded,
while the last buffer before it and the first one after it are not. -/
structure OverloadRun (before run after : List MeterEvent) : Prop where
  begins : ∃ nowMs buf rest, run = .buffer nowMs buf :: rest
  ends : ∃ rest nowMs buf, run = rest ++ [.buffer nowMs buf]
  overloaded : ∀ nowMs buf, .buffer nowMs buf ∈ run → Overloaded buf
  notBefore : ∀ p nowMs buf q, before = p ++ .buffer nowMs buf :: q → times q = [] → ¬ Overloaded buf
  notAfter : ∀ p nowMs buf q, after = p ++ .buffer nowMs buf :: q → times p = [] → ¬ Overloaded buf

/-- The buffers span more than the gap between notifications. -/
def SpansGap (run : List MeterEvent) : Prop :=
  ∃ s ∈ (times run).head?, ∃ t ∈ (times run).getLast?, s + adcOverloadMinGapMs < t

/-- Notifications are at least the gap apart and are given on overloaded buffers. A run of
overloaded buffers that spans more than the gap has one exactly when it has an onset (an overloaded
buffer while `g_adc_overload` is clear) that comes at least the gap after every notification before
the run. -/
theorem overload_reported_iff {es : List MeterEvent} (h : Timed es) :
    (notices meterStart es).Pairwise (fun s t => s + adcOverloadMinGapMs ≤ t) ∧
      (∀ before nowMs buf after, es = before ++ .buffer nowMs buf :: after →
        (MeterEvent.buffer nowMs buf).notice (meterAfter meterStart before) ≠ none → Overloaded buf) ∧
      ∀ before run after, es = before ++ run ++ after → OverloadRun before run after → SpansGap run →
        (notices (meterAfter meterStart before) run ≠ [] ↔
          ∃ first nowMs buf rest, run = first ++ .buffer nowMs buf :: rest ∧
            (meterAfter meterStart (before ++ first)).overload = false ∧
            ∀ s ∈ notices meterStart before, s + adcOverloadMinGapMs ≤ nowMs.toNat) := by
  have honward : Onward meterStart es := ⟨h.sorted, fun t _ => Nat.zero_le t⟩
  refine ⟨(notices_apart honward).2, ?_, ?_⟩
  -- a buffer that is reported is overloaded
  · rintro before nowMs buf after rfl hnotice
    have hlater := (honward.append.2).later
    have hlast := (List.forall_mem_cons.mp hlater).1
    rcases buffer_cases buf hlast with ⟨hover, -⟩ | ⟨-, hnone, -⟩
    · exact hover
    · exact absurd hnone hnotice
  -- a run is reported at a buffer that starts an overload long enough after the last report
  · rintro before run after rfl hrun -
    obtain ⟨hbefore, hrunOnward⟩ := honward.append.1.append
    have hlatest := last_notice hbefore
    rw [notices_ne_nil_iff hrunOnward]
    constructor
    · rintro ⟨first, nowMs, buf, rest, rfl, -, honset, hgap⟩
      refine ⟨first, nowMs, buf, rest, rfl, by rwa [meterAfter_append], fun s hs => ?_⟩
      have hle := ((hlatest _).mp (Nat.le_refl _)).2 s hs
      omega
    · rintro ⟨first, nowMs, buf, rest, rfl, honset, hgap⟩
      rw [meterAfter_append] at honset
      refine ⟨first, nowMs, buf, rest, rfl, hrun.overloaded nowMs buf (by simp), honset, ?_⟩
      have hlate : 1000 ≤ nowMs.toNat := h.late _ (by simp [times, MeterEvent.time?])
      have hall := (hlatest (nowMs.toNat - adcOverloadMinGapMs)).mpr
        ⟨Nat.zero_le _, fun s hs => Nat.le_sub_of_add_le (hgap s hs)⟩
      rw [adcOverloadMinGapMs] at hall ⊢
      omega

/-- An overload that is over at 1200. -/
def overloadOnce : List MeterEvent := [.buffer 1000 [0], .buffer 1200 [128]]

/-- An overload that comes back at a time and lasts until 4000. -/
def overloadAgain (nowMs : UInt64) : List MeterEvent := [.buffer nowMs [0], .buffer 4000 [0]]

/-- It is an overload by itself, with a buffer before it that is not overloaded. -/
theorem overloadAgain_run (nowMs : UInt64) : OverloadRun overloadOnce (overloadAgain nowMs) [] where
  begins := ⟨nowMs, [0], _, rfl⟩
  ends := ⟨[.buffer nowMs [0]], 4000, [0], rfl⟩
  overloaded := by
    intro t buf hmem
    simp only [overloadAgain, List.mem_cons, MeterEvent.buffer.injEq, List.not_mem_nil, or_false] at hmem
    rcases hmem with ⟨-, rfl⟩ | ⟨-, rfl⟩ <;> decide
  notBefore := by
    intro p t buf q hsplit hq
    rcases List.cons_eq_append_iff.mp hsplit with ⟨-, hhead⟩ | ⟨p', -, hrest⟩
    · rw [(List.cons.inj hhead).2] at hq
      cases hq
    · rcases List.cons_eq_append_iff.mp hrest with ⟨-, hhead⟩ | ⟨p'', -, hnil⟩
      · obtain ⟨-, rfl⟩ := MeterEvent.buffer.inj (List.cons.inj hhead).1
        decide
      · exact absurd hnil.symm (by simp)
  notAfter := by
    intro p t buf q hsplit
    exact absurd hsplit.symm (by simp)

/-- An overload that comes back half a second after the notification is not reported, although it
lasts for two and a half seconds. -/
theorem overload_lost : Timed (overloadOnce ++ overloadAgain 1500 ++ []) ∧
    OverloadRun overloadOnce (overloadAgain 1500) [] ∧ SpansGap (overloadAgain 1500) ∧
    notices meterStart overloadOnce = [1000] ∧
    notices (meterAfter meterStart overloadOnce) (overloadAgain 1500) = [] :=
  ⟨⟨by decide, by decide⟩, overloadAgain_run 1500, ⟨1500, rfl, 4000, rfl, by decide⟩, by decide, by decide⟩

/-- One that comes back later is reported. -/
theorem overload_reported_again :
    notices (meterAfter meterStart overloadOnce) (overloadAgain 2500) ≠ [] := by
  have htimed : Timed (overloadOnce ++ overloadAgain 2500 ++ []) := ⟨by decide, by decide⟩
  refine ((overload_reported_iff htimed).2.2 _ _ _ rfl (overloadAgain_run 2500)
    ⟨2500, rfl, 4000, rfl, by decide⟩).mpr ⟨[], 2500, [0], _, rfl, by decide, by decide⟩

end SlcRtld.Property
