import SlcRtld.Rtl.Radio

/-!
# The reader thread and the level meter

The rest of `rtl/rtl_bridge.c`: the count of streams that keeps the USB reader thread running, and
the measurement of the ADC level on each USB buffer. The reader threads are kept by name, so that
what `pthread_join` waits for is the thread that `s_async_tid` names when it is called.
-/

namespace SlcRtld.Rtl

/-! ## The reader -/

/-- The variables around the reader thread. -/
structure Bridge where
  /-- `s_stream_count`. -/
  streamCount : ℤ
  /-- `s_running`. -/
  running : Bool
  /-- `s_async_tid`, the name of the reader created last. -/
  asyncTid : ℕ
  /-- The readers that have been created and not joined. -/
  readers : List ℕ
deriving DecidableEq

/-- `rtl_bridge_start`, given whether `pthread_create` succeeds: whether it does, whether the
buffer was reset and the level meter with it, and the variables afterwards. A new reader gets a
name that no reader had before. -/
def rtlBridgeStart (created : Bool) (b : Bridge) : Bool × Bool × Bridge :=
  let count := b.streamCount + 1
  if count = 1 then
    if created then
      let tid := b.asyncTid + 1
      (true, true, ⟨count, true, tid, tid :: b.readers⟩)
    else (false, true, { b with running := false })
  else (true, false, { b with streamCount := count })

/-- The part of `rtl_bridge_stop` that holds the mutex: whether the reader is to be joined. -/
def rtlBridgeStopLocked (b : Bridge) : Bool × Bridge :=
  let count := max (b.streamCount - 1) 0
  if count = 0 && b.running then (true, { b with streamCount := count, running := false })
  else (false, { b with streamCount := count })

/-- The `pthread_join` at the end of `rtl_bridge_stop`. -/
def pthreadJoin (b : Bridge) : Bridge := { b with readers := b.readers.erase b.asyncTid }

/-! ## The level meter -/

/-- The ADC measurement. -/
structure Adc where
  /-- `s_adc_sumsq`. -/
  sumsq : ℕ
  /-- `s_adc_n`. -/
  n : ℕ
  /-- `s_adc_level_valid`. -/
  levelValid : Bool
  /-- `g_adc_overload`. -/
  overload : Bool
  /-- `s_last_overload_ms`. -/
  lastOverloadMs : UInt64
deriving DecidableEq

/-- `rtl_reset_adc_level`. -/
def rtlResetAdcLevel (a : Adc) : Adc :=
  { a with levelValid := false, sumsq := 0, n := 0, overload := false }

/-- Every `RTL_ADC_STRIDE`'th byte of a buffer. -/
def sampled (buf : List UInt8) : List ℕ :=
  (List.range ((buf.length + rtlAdcStride - 1) / rtlAdcStride)).map fun k =>
    (buf.getD (k * rtlAdcStride) 0).toNat

/-- A sample at the edge of the range. -/
def clips (v : ℕ) : Bool := v ≤ rtlAdcClipLow || rtlAdcClipHigh ≤ v

/-- `measure_adc_level` at a time: the sum of squares and the number of samples that the overload
handler is called on, if it is called, and the measurement afterwards. -/
def measureAdcLevel (buf : List UInt8) (nowMs : UInt64) (a : Adc) : Option (ℕ × ℕ) × Adc :=
  if buf.isEmpty then (none, a)
  else
    let vs := sampled buf
    let n := vs.length
    let sumsq := (vs.map fun v => (((v : ℤ) - 128) * ((v : ℤ) - 128)).toNat).sum
    let clipped := (vs.filter clips).length
    let overload : Bool := rtlAdcClipPpmTrigger ≤ clipped * 1000000 / n
    let a' := { a with sumsq := sumsq, n := n, levelValid := true, overload := overload }
    if overload && !a.overload && adcOverloadMinGapMs.toUInt64 ≤ nowMs - a.lastOverloadMs then
      (some (sumsq, n), { a' with lastOverloadMs := nowMs })
    else (none, a')

/-- `rtl_get_adc_level_dbfs`: the measurement that the level is computed from, if there is one. -/
def rtlGetAdcLevel (a : Adc) : Option (ℕ × ℕ) :=
  if a.levelValid && a.n ≠ 0 then some (a.sumsq, a.n) else none

end SlcRtld.Rtl
