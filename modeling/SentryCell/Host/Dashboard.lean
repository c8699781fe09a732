import SentryCell.Host.Telemetry
import SentryCell.Lib.Deque
import Mathlib.Data.Rat.Defs
import Mathlib.Order.MinMax
/-!
# The dashboard's store

`DashboardSnapshot` and `DashboardStore` of `supervisor/dashboard.py`.
Timestamps are of any ordered type with a subtraction, of which nothing is
assumed, and `Clock` is what the standard library makes of them. The
methods hold the store's lock from their first access to their last, so
that a call is one step.
-/

namespace SentryCell.Host

/-- The states of the connection. -/
inductive Connection where
  | connected
  | degraded
  | disconnected
  deriving DecidableEq, Repr

/-- The levels of an event. -/
inductive Level where
  | info
  | warning
  | error
  deriving DecidableEq, Repr

/-- **The library's functions on timestamps**: `isoformat` of the moment in
UTC, to the millisecond, and `round` to two places. -/
structure Clock (T : Type) where
  isoformat : T → String
  round : T → T

/-- `_utc_timestamp`. -/
def utcTimestamp {T : Type} (clock : Clock T) (epochSeconds : T) : String :=
  (clock.isoformat epochSeconds).replace "+00:00" "Z"

/-- `text[:256]`. -/
def bounded (text : String) : String := String.ofList (text.toList.take 256)

/-- `ticks_to_microseconds`. -/
def ticksToMicroseconds (ticks : ℤ) : ℚ := ticks * (1 / 2)

/-- `calculate_scheduled_task_utilization`. -/
def calculateScheduledTaskUtilization (busyTicks elapsedMs : ℤ) : ℚ :=
  if elapsedMs = 0 then 0 else 100 * busyTicks / (elapsedMs * 2000)

/-! ## The snapshot and its dictionary -/

structure DashboardSnapshot (T : Type) where
  connection : Connection := .disconnected
  updatedAtEpoch : Option T := none
  lastError : Option String := none
  comm : Option CommStatus := none
  timing : Option TimingStatus := none
  jitter : Option JitterStatus := none
  runtimeMemory : Option RuntimeMemoryStatus := none
  cpu : Option CpuLoadStatus := none
  overruns : Option OverrunStatus := none
  watchdog : Option WatchdogStatus := none

structure CommDict where
  rxOverflow : Option ℤ
  parserTimeout : Option ℤ
  crcErrors : Option ℤ

structure TimingDict where
  actuatorUs : Option ℚ
  controlUs : Option ℚ
  sensorSafetyUs : Option ℚ
  communicationUs : Option ℚ

structure JitterDict where
  actuatorMs : Option ℤ
  controlMs : Option ℤ
  sensorSafetyMs : Option ℤ
  communicationMs : Option ℤ

structure RuntimeMemoryDict where
  paintedRegionBytes : Option ℤ
  usedPaintedBytes : Option ℤ
  minimumFreeObservedBytes : Option ℤ

structure CpuDict where
  busyTicks : Option ℤ
  elapsedMs : Option ℤ
  scheduledTaskUtilizationPercent : Option ℚ

structure OverrunsDict where
  actuator : Option ℤ
  control : Option ℤ
  sensorSafety : Option ℤ
  communication : Option ℤ

def commDict (comm : Option CommStatus) : CommDict where
  rxOverflow := comm.map (·.uartRxOverflow)
  parserTimeout := comm.map (·.parserTimeouts)
  crcErrors := comm.map (·.crcErrors)

def timingDict (timing : Option TimingStatus) : TimingDict where
  actuatorUs := timing.map fun t => ticksToMicroseconds t.actuatorTicks
  controlUs := timing.map fun t => ticksToMicroseconds t.controlTicks
  sensorSafetyUs := timing.map fun t => ticksToMicroseconds t.sensorSafetyTicks
  communicationUs := timing.map fun t => ticksToMicroseconds t.communicationTicks

def jitterDict (jitter : Option JitterStatus) : JitterDict where
  actuatorMs := jitter.map (·.actuatorMs)
  controlMs := jitter.map (·.controlMs)
  sensorSafetyMs := jitter.map (·.sensorSafetyMs)
  communicationMs := jitter.map (·.communicationMs)

def runtimeMemoryDict (memory : Option RuntimeMemoryStatus) : RuntimeMemoryDict where
  paintedRegionBytes := memory.map (·.paintedBytes)
  usedPaintedBytes := memory.map (·.usedPaintedBytes)
  minimumFreeObservedBytes := memory.map (·.minFreeBytes)

def cpuDict (cpu : Option CpuLoadStatus) : CpuDict where
  busyTicks := cpu.map (·.busyTicks)
  elapsedMs := cpu.map (·.elapsedMs)
  scheduledTaskUtilizationPercent :=
    cpu.map fun c => calculateScheduledTaskUtilization c.busyTicks c.elapsedMs

def overrunsDict (overruns : Option OverrunStatus) : OverrunsDict where
  actuator := overruns.map (·.actuator)
  control := overruns.map (·.control)
  sensorSafety := overruns.map (·.sensorSafety)
  communication := overruns.map (·.communication)

/-- What `to_dict` returns. -/
structure SnapshotDict (T : Type) where
  connection : Connection
  lastUpdate : Option String
  ageSeconds : Option T
  stale : Bool
  lastError : Option String
  comm : CommDict
  timing : TimingDict
  jitter : JitterDict
  runtimeMemory : RuntimeMemoryDict
  cpu : CpuDict
  overruns : OverrunsDict
  previousTimeoutDetected : Option Bool

variable {T : Type} [LinearOrder T] [Sub T] [Zero T] (clock : Clock T)

/-- `DashboardSnapshot.to_dict`. -/
def DashboardSnapshot.toDict (s : DashboardSnapshot T) (now staleAfterSeconds : T) :
    SnapshotDict T :=
  -- the wall clock may have gone back since
  let ageSeconds := s.updatedAtEpoch.map fun updated => max 0 (now - updated)
  { connection := s.connection
    lastUpdate := s.updatedAtEpoch.map (utcTimestamp clock)
    ageSeconds := ageSeconds.map clock.round
    stale := decide (s.connection ≠ .connected) ||
      match ageSeconds with
      | none => true
      | some age => decide (age > staleAfterSeconds)
    lastError := s.lastError
    comm := commDict s.comm
    timing := timingDict s.timing
    jitter := jitterDict s.jitter
    runtimeMemory := runtimeMemoryDict s.runtimeMemory
    cpu := cpuDict s.cpu
    overruns := overrunsDict s.overruns
    previousTimeoutDetected := s.watchdog.map fun w => decide (w.timeoutMarker = 1) }

/-! ## The store -/

/-- **What a store is made with**, as `__init__` checks it. -/
structure StoreLimits (T : Type) [LT T] [Zero T] where
  historyLimit : ℕ
  eventLimit : ℕ
  staleAfterSeconds : T
  history_pos : 0 < historyLimit
  event_pos : 0 < eventLimit
  stale_pos : 0 < staleAfterSeconds

/-- The checks of `DashboardStore.__init__`. -/
def StoreLimits.check (historyLimit eventLimit : ℤ) (staleAfterSeconds : T) :
    Except PyError (StoreLimits T) :=
  if hh : historyLimit ≤ 0 then
    .error (.valueError "history_limit must be greater than zero")
  else if he : eventLimit ≤ 0 then
    .error (.valueError "event_limit must be greater than zero")
  else if hs : staleAfterSeconds ≤ 0 then
    .error (.valueError "stale_after_seconds must be greater than zero")
  else
    .ok {
      historyLimit := historyLimit.toNat
      eventLimit := eventLimit.toNat
      staleAfterSeconds := staleAfterSeconds
      history_pos := by omega
      event_pos := by omega
      stale_pos := lt_of_not_ge hs }

/-- An entry of the event log. -/
structure EventEntry where
  timestamp : String
  level : Level
  message : String
  deriving DecidableEq, Repr

/-- A sample of the history. -/
structure HistorySample where
  timestamp : Option String
  cpuUtilizationPercent : Option ℚ
  minimumFreeObservedBytes : Option ℤ
  rxOverflow : Option ℤ
  parserTimeout : Option ℤ
  crcErrors : Option ℤ

/-- **The store**: the snapshot and the two bounded deques. -/
structure DashboardStore (limits : StoreLimits T) where
  snapshot : DashboardSnapshot T
  history : BoundedDeque HistorySample limits.historyLimit
  events : BoundedDeque EventEntry limits.eventLimit

variable {limits : StoreLimits T}

/-- The store `__init__` makes. -/
def DashboardStore.new (limits : StoreLimits T) : DashboardStore limits :=
  ⟨{}, .empty, .empty⟩

/-- `_append_event_locked`. -/
def DashboardStore.appendEventLocked (timestamp : T) (level : Level) (message : String)
    (s : DashboardStore limits) : DashboardStore limits :=
  { s with events := s.events.append ⟨utcTimestamp clock timestamp, level, bounded message⟩ }

/-- The counters of the communication status, with their labels. -/
def commFields : List (String × (CommStatus → ℤ)) :=
  [("RX overflow", (·.uartRxOverflow)), ("Parser timeout", (·.parserTimeouts)),
    ("CRC error", (·.crcErrors))]

/-- The counters of the overrun status, with their labels. -/
def overrunFields : List (String × (OverrunStatus → ℤ)) :=
  [("Actuator", (·.actuator)), ("Control", (·.control)), ("Sensor/Safety", (·.sensorSafety)),
    ("Communication", (·.communication))]

/-- The text of a change of a counter. -/
def counterText (label what : String) (before after : ℤ) : String :=
  label ++ " " ++ what ++ " changed: " ++ toString before ++ " → " ++ toString after

/-- One turn of the loops over the fields of two statuses. -/
def DashboardStore.recordFieldChange {α : Type} (what : String) (previous current : α)
    (timestamp : T) (s : DashboardStore limits) (field : String × (α → ℤ)) :
    DashboardStore limits :=
  let before := field.2 previous
  let after := field.2 current
  if before ≠ after then
    s.appendEventLocked clock timestamp .warning (counterText field.1 what before after)
  else s

/-- The loops: an event for each field that differs. -/
def DashboardStore.recordFieldChanges {α : Type} (fields : List (String × (α → ℤ)))
    (what : String) (previous current : α) (timestamp : T) (s : DashboardStore limits) :
    DashboardStore limits :=
  fields.foldl (DashboardStore.recordFieldChange clock what previous current timestamp) s

/-- `_record_value_change_events_locked`. -/
def DashboardStore.recordValueChangeEventsLocked (previous current : DashboardSnapshot T)
    (timestamp : T) (s : DashboardStore limits) : DashboardStore limits :=
  let s := match previous.comm, current.comm with
    | some before, some after =>
      s.recordFieldChanges clock commFields "counter" before after timestamp
    | _, _ => s
  let previousMarker := previous.watchdog.map (·.timeoutMarker)
  let currentMarker := current.watchdog.map (·.timeoutMarker)
  let s :=
    if currentMarker = some 1 ∧ previousMarker ≠ some 1 then
      s.appendEventLocked clock timestamp .warning "Previous watchdog timeout marker detected"
    else s
  match previous.overruns, current.overruns with
  | some before, some after =>
    s.recordFieldChanges clock overrunFields "overrun counter" before after timestamp
  | _, _ => s

/-- The seven statuses of a cycle, the arguments of `record_success`. -/
structure Telemetry where
  comm : CommStatus
  timing : TimingStatus
  jitter : JitterStatus
  runtimeMemory : RuntimeMemoryStatus
  cpu : CpuLoadStatus
  overruns : OverrunStatus
  watchdog : WatchdogStatus
  deriving DecidableEq, Repr

/-- The snapshot `record_success` makes. -/
def Telemetry.snapshot (t : Telemetry) (timestamp : T) : DashboardSnapshot T where
  connection := .connected
  updatedAtEpoch := some timestamp
  lastError := none
  comm := some t.comm
  timing := some t.timing
  jitter := some t.jitter
  runtimeMemory := some t.runtimeMemory
  cpu := some t.cpu
  overruns := some t.overruns
  watchdog := some t.watchdog

/-- The sample `record_success` takes of a snapshot's dictionary. -/
def SnapshotDict.sample (payload : SnapshotDict T) : HistorySample where
  timestamp := payload.lastUpdate
  cpuUtilizationPercent := payload.cpu.scheduledTaskUtilizationPercent
  minimumFreeObservedBytes := payload.runtimeMemory.minimumFreeObservedBytes
  rxOverflow := payload.comm.rxOverflow
  parserTimeout := payload.comm.parserTimeout
  crcErrors := payload.comm.crcErrors

/-- `record_success`. -/
def DashboardStore.recordSuccess (telemetry : Telemetry) (timestamp : T)
    (s : DashboardStore limits) : DashboardStore limits :=
  let previous := s.snapshot
  let current := telemetry.snapshot timestamp
  let s :=
    if previous.connection ≠ .connected then
      s.appendEventLocked clock timestamp .info
        (if previous.updatedAtEpoch = none then "Connected" else "Connection recovered")
    else s
  -- compared with the last success: a failure keeps its values
  let s := s.recordValueChangeEventsLocked clock previous current timestamp
  let payload := current.toDict clock timestamp limits.staleAfterSeconds
  { s with
    snapshot := current
    history := s.history.append payload.sample }

/-- The error text that is kept. -/
def boundedError (error : String) : String :=
  bounded (if error = "" then "serial polling failed" else error)

/-- The state of the connection after a failure. -/
def failedConnection (limits : StoreLimits T) (updatedAtEpoch : Option T) (timestamp : T) :
    Connection :=
  match updatedAtEpoch with
  | none => .disconnected
  | some updated =>
    if timestamp - updated > limits.staleAfterSeconds then .disconnected else .degraded

/-- `record_failure`. -/
def DashboardStore.recordFailure (error : String) (timestamp : T) (s : DashboardStore limits) :
    DashboardStore limits :=
  let bounded := boundedError error
  let previous := s.snapshot
  let connection := failedConnection limits previous.updatedAtEpoch timestamp
  let s := { s with
    snapshot := { previous with connection := connection, lastError := some bounded } }
  -- a failure that changes nothing is no event
  if connection ≠ previous.connection then
    let label := if connection = .degraded then "Connection degraded" else "Disconnected"
    let level : Level := if connection = .degraded then .warning else .error
    s.appendEventLocked clock timestamp level (label ++ ": " ++ bounded)
  else s

/-- What `status_payload` returns. -/
structure StatusPayload (T : Type) extends SnapshotDict T where
  events : List EventEntry

/-- `status_payload`. -/
def DashboardStore.statusPayload (now : T) (s : DashboardStore limits) : StatusPayload T :=
  { s.snapshot.toDict clock now limits.staleAfterSeconds with events := s.events.items.reverse }

section

variable {s : DashboardStore limits} {timestamp : T} {error : String}

/-- A failure leaves the telemetry and the update time alone. -/
theorem snapshot_recordFailure :
    (s.recordFailure clock error timestamp).snapshot =
      { s.snapshot with
        connection := failedConnection limits s.snapshot.updatedAtEpoch timestamp
        lastError := some (boundedError error) } := by
  unfold DashboardStore.recordFailure
  dsimp only
  split <;> rfl

/-- A failure leaves the history alone, which holds successes only. -/
theorem history_recordFailure : (s.recordFailure clock error timestamp).history = s.history := by
  unfold DashboardStore.recordFailure
  dsimp only
  split <;> rfl

end

end SentryCell.Host
