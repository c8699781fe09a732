import SentryCell.Firmware.Tasks
/-!
# What a status reports

The payloads of the eight statuses, as the protocol document lays them
out: which counter, maximum or record each field is, in which order and
width. `communication_task` reads them one access at a time; between two
of these no interrupt touches any of them, except the count of bytes that
the receive ring dropped.
-/

namespace SentryCell

open Foreground Word

/-- A value of each of the four tasks, in the order of their identifiers. -/
def taskReport (value : Byte → Word16) : List Byte :=
  taskWords (value timingTaskActuator) (value timingTaskControl)
    (value timingTaskSensorSafety) (value timingTaskCommunication)

/-- **The payload of a status**, in a state and among the readings of an
execution, with the overflow count that was read. The watermark is the one
that the scan of the same execution leaves. -/
def StatusKind.reportWith (overflow : Byte) (s : Firmware) (r : Readings) :
    StatusKind → List Byte
  | .commStatus => [overflow, s.protocol.parserTimeoutCount, s.protocol.crcErrorCount]
  | .timingStatus => taskReport fun i => timingProfilerGetMaxTicks i s.profiler.timing
  | .jitterStatus => taskReport fun i => timingProfilerGetMaxJitterMs i s.profiler.timing
  | .runtimeMemoryStatus =>
    let m := memoryProfilerGetMinFreeBytes r.sram s.profiler.memory
    word16Bytes m.minFreeBytes ++ word16Bytes m.paintedBytes ++
      word16Bytes (memoryProfilerGetUsedPaintedBytes m)
  | .cpuLoadStatus =>
    word32Bytes s.profiler.runtime.busyTicks ++
      word32Bytes (runtimeProfilerGetElapsedMs r.loadMs s.profiler.runtime)
  | .overrunStatus => taskReport fun i => runtimeProfilerGetOverrunCount i s.profiler.runtime
  | .resetCause => [s.profiler.watchdog.resetCause]
  | .watchdogStatus => [if watchdogPreviousTimeoutDetected s.profiler.watchdog then 1 else 0]

/-- **What a status reports of a state**: every field is what it holds. -/
def StatusKind.report (s : Firmware) (r : Readings) (kind : StatusKind) : List Byte :=
  kind.reportWith s.uart.rx.rxOverflowCount s r

variable {kind : StatusKind} {overflow : Byte} {s s' : Firmware} {r : Readings}

/-- A payload has the length that the protocol document gives its status. -/
theorem length_reportWith : (kind.reportWith overflow s r).length = kind.payloadLength := by
  rcases kind <;> rfl

/-- So every payload fits a frame. -/
theorem length_reportWith_le : (kind.reportWith overflow s r).length ≤ 8 := by
  rw [length_reportWith]
  exact kind.payloadLength_le

/-! ## What no interrupt touches -/

/-- **The records that a status is collected from.** The watchdog's marker
is not one of them: it tells the next session. -/
structure KeepsReports (p p' : Profiler) : Prop where
  timing : p'.timing = p.timing
  runtime : p'.runtime = p.runtime
  memory : p'.memory = p.memory
  resetCause : p'.watchdog.resetCause = p.watchdog.resetCause
  detected : p'.watchdog.previousTimeoutDetected = p.watchdog.previousTimeoutDetected

theorem KeepsReports.of_eq {p p' : Profiler} (h : p' = p) : KeepsReports p p' := by
  subst h
  exact ⟨rfl, rfl, rfl, rfl, rfl⟩

/-- **Every handler leaves the records alone.** The watchdog's interrupt
writes its marker and nothing else of them. -/
theorem keepsReports_of_handler {x : Interrupt} (h : x.handler s = some s') :
    KeepsReports s.profiler s'.profiler := by
  obtain ⟨byte, rfl⟩ | rfl | rfl | ⟨tick, rfl⟩ | rfl := handler_cases h
  · exact .of_eq rfl
  · exact .of_eq rfl
  · exact .of_eq rfl
  · exact .of_eq rfl
  · exact ⟨rfl, rfl, rfl, rfl, rfl⟩

/-- What is reported depends on the parser's counters and on the records. -/
theorem reportWith_congr (hp : s'.protocol = s.protocol)
    (hk : KeepsReports s.profiler s'.profiler) :
    kind.reportWith overflow s' r = kind.reportWith overflow s r := by
  obtain ⟨ht, hr, hm, hc, hd⟩ := hk
  rcases kind with _ | _ | _ | _ | _ | _ | _ | _
  · simp only [StatusKind.reportWith, hp]
  · simp only [StatusKind.reportWith, ht]
  · simp only [StatusKind.reportWith, ht]
  · simp only [StatusKind.reportWith, hm]
  · simp only [StatusKind.reportWith, hr]
  · simp only [StatusKind.reportWith, hr]
  · simp only [StatusKind.reportWith, hc]
  · have hsame : watchdogPreviousTimeoutDetected s'.profiler.watchdog =
        watchdogPreviousTimeoutDetected s.profiler.watchdog := by
      unfold watchdogPreviousTimeoutDetected
      rw [hd]
    simp only [StatusKind.reportWith, hsame]

/-- A second scan of the same memory finds nothing more. -/
theorem getMinFreeBytes_idem (sram : ℕ → Byte) (m : MemoryProfiler) :
    memoryProfilerGetMinFreeBytes sram (memoryProfilerGetMinFreeBytes sram m) =
      memoryProfilerGetMinFreeBytes sram m := by
  let freeBytes := BitVec.ofNat 16 (memoryProfilerScan sram m.paintedBytes.toNat 0)
  by_cases h : freeBytes < m.minFreeBytes
  · have hscan : memoryProfilerGetMinFreeBytes sram m = { m with minFreeBytes := freeBytes } :=
      if_pos h
    rw [hscan]
    exact if_neg (BitVec.lt_irrefl freeBytes)
  · have hscan : memoryProfilerGetMinFreeBytes sram m = m := if_neg h
    rw [hscan, hscan]

end SentryCell
