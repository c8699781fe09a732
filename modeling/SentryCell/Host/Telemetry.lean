import SentryCell.Host.Codec
/-!
# The supervisor's status decoders

The eight `decode_…_status` functions of `supervisor/protocol.py` and the
dataclasses they return. Each checks the type and the length of the
payload and reads its fields at fixed slices, low byte first;
`expectStatus` is what they share, and `decode_error` that each rejects
every frame of another type.
-/

namespace SentryCell.Host

def typeCommStatus : ℕ := 0x83
def typeTimingStatus : ℕ := 0x84
def typeJitterStatus : ℕ := 0x85
def typeRuntimeMemoryStatus : ℕ := 0x86
def typeCpuLoadStatus : ℕ := 0x87
def typeOverrunStatus : ℕ := 0x88
def typeResetCause : ℕ := 0x89
def typeWatchdogStatus : ℕ := 0x8B

structure CommStatus where
  uartRxOverflow : ℤ
  parserTimeouts : ℤ
  crcErrors : ℤ
  deriving DecidableEq, Repr

structure TimingStatus where
  actuatorTicks : ℤ
  controlTicks : ℤ
  sensorSafetyTicks : ℤ
  communicationTicks : ℤ
  deriving DecidableEq, Repr

structure JitterStatus where
  actuatorMs : ℤ
  controlMs : ℤ
  sensorSafetyMs : ℤ
  communicationMs : ℤ
  deriving DecidableEq, Repr

structure RuntimeMemoryStatus where
  minFreeBytes : ℤ
  paintedBytes : ℤ
  usedPaintedBytes : ℤ
  deriving DecidableEq, Repr

structure CpuLoadStatus where
  busyTicks : ℤ
  elapsedMs : ℤ
  deriving DecidableEq, Repr

structure OverrunStatus where
  actuator : ℤ
  control : ℤ
  sensorSafety : ℤ
  communication : ℤ
  deriving DecidableEq, Repr

structure ResetCauseStatus where
  resetCause : ℤ
  deriving DecidableEq, Repr

structure WatchdogStatus where
  timeoutMarker : ℤ
  deriving DecidableEq, Repr

/-! ## Python's integers and slices -/

/-- The format `02X` of an integer. The width counts the sign. -/
def hexInt (v : ℤ) : String :=
  if 0 ≤ v then hex02 v.toNat
  else "-" ++ String.ofList ((Nat.toDigits 16 v.natAbs).map Char.toUpper)

/-- `int.from_bytes(data, "little")`. -/
def fromBytesLittle : List Byte → ℕ
  | [] => 0
  | byte :: data => byte.toNat + 256 * fromBytesLittle data

/-- `data[start:stop]`. -/
def slice (data : List Byte) (start stop : ℕ) : List Byte := (data.take stop).drop start

/-! ## The decoders -/

/-- The checks the decoders begin with. `unit` is how the length is
spelled. -/
def expectStatus (name : String) (type length : ℕ) (unit : String) (frame : Frame) :
    Except PyError Unit :=
  if frame.frameType ≠ type then
    .error (.protocolError ("expected " ++ name ++ " type 0x" ++ hex02 type ++ ", received 0x" ++
      hexInt frame.frameType))
  else if frame.payload.length ≠ length then
    .error (.protocolError (name ++ " payload must contain exactly " ++ toString length ++ " " ++
      unit ++ ", received " ++ toString frame.payload.length))
  else .ok ()

/-- `decode_comm_status`. -/
def decodeCommStatus (frame : Frame) : Except PyError CommStatus := do
  expectStatus "COMM_STATUS" typeCommStatus 3 "bytes" frame
  return {
    uartRxOverflow := (frame.payload.getD 0 0).toNat
    parserTimeouts := (frame.payload.getD 1 0).toNat
    crcErrors := (frame.payload.getD 2 0).toNat }

/-- `decode_timing_status`. -/
def decodeTimingStatus (frame : Frame) : Except PyError TimingStatus := do
  expectStatus "TIMING_STATUS" typeTimingStatus 8 "bytes" frame
  return {
    actuatorTicks := fromBytesLittle (slice frame.payload 0 2)
    controlTicks := fromBytesLittle (slice frame.payload 2 4)
    sensorSafetyTicks := fromBytesLittle (slice frame.payload 4 6)
    communicationTicks := fromBytesLittle (slice frame.payload 6 8) }

/-- `decode_jitter_status`. -/
def decodeJitterStatus (frame : Frame) : Except PyError JitterStatus := do
  expectStatus "JITTER_STATUS" typeJitterStatus 8 "bytes" frame
  return {
    actuatorMs := fromBytesLittle (slice frame.payload 0 2)
    controlMs := fromBytesLittle (slice frame.payload 2 4)
    sensorSafetyMs := fromBytesLittle (slice frame.payload 4 6)
    communicationMs := fromBytesLittle (slice frame.payload 6 8) }

/-- `decode_runtime_memory_status`. -/
def decodeRuntimeMemoryStatus (frame : Frame) : Except PyError RuntimeMemoryStatus := do
  expectStatus "RUNTIME_MEMORY_STATUS" typeRuntimeMemoryStatus 6 "bytes" frame
  return {
    minFreeBytes := fromBytesLittle (slice frame.payload 0 2)
    paintedBytes := fromBytesLittle (slice frame.payload 2 4)
    usedPaintedBytes := fromBytesLittle (slice frame.payload 4 6) }

/-- `decode_cpu_load_status`. -/
def decodeCpuLoadStatus (frame : Frame) : Except PyError CpuLoadStatus := do
  expectStatus "CPU_LOAD_STATUS" typeCpuLoadStatus 8 "bytes" frame
  return {
    busyTicks := fromBytesLittle (slice frame.payload 0 4)
    elapsedMs := fromBytesLittle (slice frame.payload 4 8) }

/-- `decode_overrun_status`. -/
def decodeOverrunStatus (frame : Frame) : Except PyError OverrunStatus := do
  expectStatus "OVERRUN_STATUS" typeOverrunStatus 8 "bytes" frame
  return {
    actuator := fromBytesLittle (slice frame.payload 0 2)
    control := fromBytesLittle (slice frame.payload 2 4)
    sensorSafety := fromBytesLittle (slice frame.payload 4 6)
    communication := fromBytesLittle (slice frame.payload 6 8) }

/-- `decode_reset_cause`. -/
def decodeResetCause (frame : Frame) : Except PyError ResetCauseStatus := do
  expectStatus "RESET_CAUSE" typeResetCause 1 "byte" frame
  return { resetCause := (frame.payload.getD 0 0).toNat }

/-- `decode_watchdog_status`. -/
def decodeWatchdogStatus (frame : Frame) : Except PyError WatchdogStatus := do
  expectStatus "WATCHDOG_STATUS" typeWatchdogStatus 1 "byte" frame
  let marker := (frame.payload.getD 0 0).toNat
  if marker ≠ 0 ∧ marker ≠ 1 then
    throw (.protocolError ("WATCHDOG_STATUS marker must be 0 or 1, received " ++ toString marker))
  return { timeoutMarker := marker }

/-! ## What they accept -/

variable {frame : Frame} {name unit : String} {type length : ℕ} {α : Type}

/-- A frame of the expected type and length passes the check. -/
theorem expectStatus_ok (ht : frame.frameType = type) (hl : frame.payload.length = length) :
    expectStatus name type length unit frame = .ok () := by
  rw [expectStatus, if_neg (not_not.mpr ht), if_neg (not_not.mpr hl)]

/-- **A decoder rejects every frame of another type**, whatever follows
its checks. -/
theorem decode_error (ht : frame.frameType ≠ type) (decode : Unit → Except PyError α) :
    ∃ message, (expectStatus name type length unit frame >>= decode) =
      .error (.protocolError message) := by
  rw [expectStatus, if_pos ht]
  exact ⟨_, rfl⟩

/-- What follows the checks of a frame that passes them. -/
theorem decode_ok (ht : frame.frameType = type) (hl : frame.payload.length = length)
    (decode : Unit → Except PyError α) :
    (expectStatus name type length unit frame >>= decode) = decode () := by
  rw [expectStatus_ok ht hl]
  rfl

end SentryCell.Host
