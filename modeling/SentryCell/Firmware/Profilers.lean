import SentryCell.Lib.Word
import Mathlib.Logic.Function.Basic
/-!
# Profilers and the reset record

`firmware/diagnostics/timing_profiler.c`, `runtime_profiler.c`,
`memory_profiler.c` and `firmware/hal/watchdog.c`. All of it is foreground
bookkeeping that the communication task reports; no control decision reads
it. Task identifiers are bytes and are checked as the source checks them.
-/

namespace SentryCell

def timingTaskActuator : Byte := 0#8
def timingTaskControl : Byte := 1#8
def timingTaskSensorSafety : Byte := 2#8
def timingTaskCommunication : Byte := 3#8
def timingTaskCount : Byte := 4#8

/-! ## Start intervals and execution times -/

/-- The static variables of `timing_profiler.c`. -/
structure TimingProfiler where
  maxTicks : ℕ → Word16
  lastStartMs : ℕ → Word32
  maxJitterMs : ℕ → Word16
  hasStartSample : ℕ → Byte

/-- `timing_profiler_init`. -/
def timingProfilerInit (t : TimingProfiler) : TimingProfiler where
  maxTicks i := if i < timingTaskCount.toNat then 0 else t.maxTicks i
  lastStartMs i := if i < timingTaskCount.toNat then 0 else t.lastStartMs i
  maxJitterMs i := if i < timingTaskCount.toNat then 0 else t.maxJitterMs i
  hasStartSample i := if i < timingTaskCount.toNat then 0 else t.hasStartSample i

/-- `timing_profiler_record`. -/
def timingProfilerRecord (taskId : Byte) (elapsedTicks : Word16) (t : TimingProfiler) :
    TimingProfiler :=
  if taskId < timingTaskCount ∧ elapsedTicks > t.maxTicks taskId.toNat then
    { t with maxTicks := Function.update t.maxTicks taskId.toNat elapsedTicks }
  else t

/-- `timing_profiler_get_max_ticks`. -/
def timingProfilerGetMaxTicks (taskId : Byte) (t : TimingProfiler) : Word16 :=
  if taskId ≥ timingTaskCount then 0 else t.maxTicks taskId.toNat

/-- `timing_profiler_record_start`. -/
def timingProfilerRecordStart (taskId : Byte) (nowMs : Word32) (nominalPeriodMs : Word16)
    (t : TimingProfiler) : TimingProfiler :=
  if taskId ≥ timingTaskCount then t
  else if t.hasStartSample taskId.toNat = 0 then
    { t with
      lastStartMs := Function.update t.lastStartMs taskId.toNat nowMs
      hasStartSample := Function.update t.hasStartSample taskId.toNat 1 }
  else
    -- from the second start on there is an interval to compare
    let actualIntervalMs := nowMs - t.lastStartMs taskId.toNat
    let nominal : Word32 := nominalPeriodMs.setWidth 32
    let jitterMs :=
      if actualIntervalMs ≥ nominal then actualIntervalMs - nominal
      else nominal - actualIntervalMs
    let boundedJitterMs : Word16 := if jitterMs > 65535#32 then 65535#16 else jitterMs.setWidth 16
    { t with
      maxJitterMs :=
        if boundedJitterMs > t.maxJitterMs taskId.toNat then
          Function.update t.maxJitterMs taskId.toNat boundedJitterMs
        else t.maxJitterMs
      lastStartMs := Function.update t.lastStartMs taskId.toNat nowMs }

/-- `timing_profiler_get_max_jitter_ms`. -/
def timingProfilerGetMaxJitterMs (taskId : Byte) (t : TimingProfiler) : Word16 :=
  if taskId ≥ timingTaskCount then 0 else t.maxJitterMs taskId.toNat

/-! ## Load and overruns -/

def timer1TicksPerMs : Word32 := 2000#32

/-- The static variables of `runtime_profiler.c`. -/
structure RuntimeProfiler where
  busyTicks : Word32
  startMs : Word32
  overrunCount : ℕ → Word16

/-- `runtime_profiler_init`. -/
def runtimeProfilerInit (nowMs : Word32) (p : RuntimeProfiler) : RuntimeProfiler where
  busyTicks := 0
  startMs := nowMs
  overrunCount i := if i < timingTaskCount.toNat then 0 else p.overrunCount i

/-- `runtime_profiler_record_execution`. -/
def runtimeProfilerRecordExecution (taskId : Byte) (elapsedTicks nominalPeriodMs : Word16)
    (p : RuntimeProfiler) : RuntimeProfiler :=
  let periodTicks := nominalPeriodMs.setWidth 32 * timer1TicksPerMs
  let elapsed : Word32 := elapsedTicks.setWidth 32
  if taskId ≥ timingTaskCount then p
  else
    { p with
      busyTicks :=
        -- held at the largest value instead of wrapping
        if 0xFFFFFFFF#32 - p.busyTicks < elapsed then 0xFFFFFFFF#32 else p.busyTicks + elapsed
      overrunCount :=
        if elapsed > periodTicks ∧ p.overrunCount taskId.toNat ≠ 65535 then
          Function.update p.overrunCount taskId.toNat (p.overrunCount taskId.toNat + 1)
        else p.overrunCount }

/-- `runtime_profiler_get_elapsed_ms`. -/
def runtimeProfilerGetElapsedMs (nowMs : Word32) (p : RuntimeProfiler) : Word32 :=
  nowMs - p.startMs

/-- `runtime_profiler_get_overrun_count`. -/
def runtimeProfilerGetOverrunCount (taskId : Byte) (p : RuntimeProfiler) : Word16 :=
  if taskId ≥ timingTaskCount then 0 else p.overrunCount taskId.toNat

/-! ## The free-memory watermark -/

def memoryCanary : Byte := 0xA5#8
def memoryStackGuardBytes : Word16 := 32#16
def ramStart : Word16 := 0x0100#16
def ramEnd : Word16 := 0x08FF#16

/-- The static variables of `memory_profiler.c`. -/
structure MemoryProfiler where
  paintedBytes : Word16
  minFreeBytes : Word16

/-- `memory_profiler_init`, on the address of `__heap_start` and the stack
pointer. The painting itself is not a part of this state. -/
def memoryProfilerInit (paintStart stackPointer : Word16) : MemoryProfiler :=
  if paintStart < ramStart ∨ stackPointer > ramEnd ∨ stackPointer ≤ paintStart then ⟨0, 0⟩
  else
    let available := stackPointer - paintStart
    if available ≤ memoryStackGuardBytes then ⟨0, 0⟩
    else ⟨available - memoryStackGuardBytes, available - memoryStackGuardBytes⟩

/-- The scan of `memory_profiler_get_min_free_bytes`: how many of the next
`left` bytes from `free` on still hold the canary, added to `free`. -/
def memoryProfilerScan (sram : ℕ → Byte) : ℕ → ℕ → ℕ
  | 0, free => free
  | left + 1, free =>
    if sram free = memoryCanary then memoryProfilerScan sram left (free + 1) else free

/-- `memory_profiler_get_min_free_bytes`, on the bytes from `__heap_start`. -/
def memoryProfilerGetMinFreeBytes (sram : ℕ → Byte) (m : MemoryProfiler) : MemoryProfiler :=
  let freeBytes := BitVec.ofNat 16 (memoryProfilerScan sram m.paintedBytes.toNat 0)
  if freeBytes < m.minFreeBytes then { m with minFreeBytes := freeBytes } else m

/-- `memory_profiler_get_used_painted_bytes`. -/
def memoryProfilerGetUsedPaintedBytes (m : MemoryProfiler) : Word16 :=
  m.paintedBytes - m.minFreeBytes

/-! ## The reset record -/

def watchdogEventMagicA : Byte := 0xA5#8
def watchdogEventMagicB : Byte := 0x5A#8

/-- The `.noinit` variables of `watchdog.c`. -/
structure Watchdog where
  resetCause : Byte
  eventMagicA : Byte
  eventMagicB : Byte
  previousTimeoutDetected : Byte

/-- `WDT_vect`. -/
def wdtVect (w : Watchdog) : Watchdog :=
  { w with eventMagicA := watchdogEventMagicA, eventMagicB := watchdogEventMagicB }

/-- `watchdog_previous_timeout_detected`. -/
def watchdogPreviousTimeoutDetected (w : Watchdog) : Bool := w.previousTimeoutDetected ≠ 0

/-- What the profilers and the watchdog keep. -/
structure Profiler where
  timing : TimingProfiler
  runtime : RuntimeProfiler
  memory : MemoryProfiler
  watchdog : Watchdog

/-- Static storage before `main`: all zero. -/
def Profiler.zeroed : Profiler where
  timing := ⟨fun _ => 0, fun _ => 0, fun _ => 0, fun _ => 0⟩
  runtime := ⟨0, 0, fun _ => 0⟩
  memory := ⟨0, 0⟩
  watchdog := ⟨0, 0, 0, 0⟩

end SentryCell
