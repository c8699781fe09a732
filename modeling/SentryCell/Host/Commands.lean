import SentryCell.Host.Os
/-!
# The supervisor's commands

The `run_…` functions of `supervisor/main.py` and what they call, as
scripts: every `print`, `sleep`, read and write is a call of the system that
may raise, and what they compute in between is the codec's and the
decoders'. The dashboard has its own model, and the command line is taken as
parsed.
-/

namespace SentryCell.Host.Supervisor

open Calls

def typePing : ℕ := 0x01
def typeEcho : ℕ := 0x02
def typeGetResetCause : ℕ := 0x09
def typeInjectWatchdogBlock : ℕ := 0x0A
def typePong : ℕ := 0x81
def typeAck : ℕ := 0x90

/-- **What the commands take from the platform**: the constants of
`termios`, where the repository is, and how Python reads a digit and spells
a float with `:g`, `:.1f` and `str`. -/
structure Platform where
  termios : Termios
  /-- `_repository_root()`. -/
  repositoryRoot : String
  /-- The value of a decimal digit, in Python's tables of Unicode. -/
  decimal : Char → Option ℕ
  general : ℚ → String
  fixed : ℚ → String
  plain : ℚ → String

variable {α : Type}

/-! ## Frames -/

/-- What the codec returns or raises. -/
def codec (o : Except PyError α) : HostM α := Script.ofExcept (o.mapError PyError.raised)

/-- `link.write(encode_frame(frame))`. -/
def send (frame : Frame) : HostM Unit := do
  let data ← codec (encodeFrame frame)
  SerialLink.write data

/-- `validate_observe_seconds`. -/
def validateObserveSeconds (observeSeconds : ℚ) : HostM Unit :=
  if ¬ observeSeconds > 0 then
    Script.raise ⟨.valueError, "observe-seconds must be greater than zero"⟩
  else pure ()

/-- `read_protocol_frame`, with its default of one second. -/
def readProtocolFrame : HostM Frame := do
  let header ← SerialLink.readExact 5 1
  let payloadLength := (header.getD 4 0).toNat
  if payloadLength > maxPayload then
    Script.raise ⟨.protocolError, "response LENGTH " ++ toString payloadLength ++ " exceeds " ++
      toString maxPayload ++ " bytes"⟩
  else do
    let payloadAndCrc ← SerialLink.readExact (payloadLength + 1) 1
    codec (decodeFrame (header ++ payloadAndCrc))

/-- `payload.hex(' ').upper()`. -/
def hexSpaced (payload : List Byte) : String :=
  " ".intercalate (payload.map fun b => hex02 b.toNat)

/-- `require_response`. -/
def requireResponse (response : Frame) (expectedType : ℕ) (expectedSequence : ℤ)
    (expectedPayload : List Byte) : HostM Unit :=
  if response.frameType ≠ expectedType then
    Script.raise ⟨.supervisorError, "unexpected response type 0x" ++ hexInt response.frameType ++
      "; expected 0x" ++ hex02 expectedType⟩
  else if response.sequence ≠ expectedSequence then
    Script.raise ⟨.supervisorError, "unexpected response sequence 0x" ++ hexInt response.sequence ++
      "; expected 0x" ++ hexInt expectedSequence⟩
  else if response.payload ≠ expectedPayload then
    Script.raise ⟨.supervisorError, "unexpected response payload " ++ hexSpaced response.payload⟩
  else pure ()

/-- `_request_validation_status`. The other requests for a status do the
same. -/
def requestStatus (requestType : ℕ) (sequence : ℤ) (statusName : String)
    (decoder : Frame → Except PyError α) : HostM α := do
  send ⟨requestType, sequence, []⟩
  let response ← readProtocolFrame
  if response.sequence ≠ sequence then
    Script.raise ⟨.supervisorError, "unexpected " ++ statusName ++ " sequence 0x" ++
      hexInt response.sequence ++ "; expected 0x" ++ hexInt sequence⟩
  else codec (decoder response)

/-- `_request_comm_status`. -/
def requestCommStatus (sequence : ℤ) : HostM CommStatus :=
  requestStatus typeGetCommStatus sequence "COMM_STATUS" decodeCommStatus

/-- `_request_reset_cause`. -/
def requestResetCause (sequence : ℤ) : HostM ResetCauseStatus :=
  requestStatus typeGetResetCause sequence "RESET_CAUSE" decodeResetCause

/-- `_request_watchdog_status`. -/
def requestWatchdogStatus (sequence : ℤ) : HostM WatchdogStatus :=
  requestStatus typeGetWatchdogStatus sequence "WATCHDOG_STATUS" decodeWatchdogStatus

/-- A request, and the one response that is accepted. -/
def roundTrip (request : Frame) (expectedType : ℕ) : HostM Unit := do
  send request
  let response ← readProtocolFrame
  requireResponse response expectedType request.sequence request.payload

/-- What `_verify_recovery_ping` catches. -/
def failsRecovery : ErrorKind → Bool
  | .osError => true
  | .fileExistsError => true
  | .protocolError => true
  | .crcError => true
  | .serialLinkError => true
  | .serialTimeoutError => true
  | .supervisorError => true
  | _ => false

/-- `_verify_recovery_ping`. -/
def verifyRecoveryPing (sequence : ℤ) : HostM Bool :=
  let exchange : HostM Bool := do
    roundTrip ⟨typePing, sequence, []⟩ typePong
    pure true
  -- any other exception ends the command
  exchange.handle fun e => if failsRecovery e.kind then pure false else Script.raise e

/-! ## Bring-up and profiles -/

/-- The status that `--status` shows. -/
def showStatus : HostM Unit := do
  let status ← requestStatus typeGetCommStatus 0x30 "COMM_STATUS" decodeCommStatus
  printAll ["", "Communication health",
    "UART RX overflow : " ++ toString status.uartRxOverflow,
    "Parser timeouts  : " ++ toString status.parserTimeouts,
    "CRC errors       : " ++ toString status.crcErrors]

/-- A line of execution times. -/
def ticksLine (pf : Platform) (label : String) (ticks : ℤ) : String :=
  label ++ ": " ++ toString ticks ++ " ticks = " ++ pf.general (ticksToMicroseconds ticks) ++ " us"

/-- The maxima that `--timing` shows. -/
def showTiming (pf : Platform) : HostM Unit := do
  let timing ← requestStatus typeGetTimingStatus 0x40 "TIMING_STATUS" decodeTimingStatus
  printAll ["", "Task execution-time maxima",
    ticksLine pf "Actuator        " timing.actuatorTicks,
    ticksLine pf "Control         " timing.controlTicks,
    ticksLine pf "Sensor/Safety   " timing.sensorSafetyTicks,
    ticksLine pf "Communication   " timing.communicationTicks]

/-- The maxima that `--jitter` shows. -/
def showJitter : HostM Unit := do
  let jitter ← requestStatus typeGetJitterStatus 0x50 "JITTER_STATUS" decodeJitterStatus
  printAll ["", "Scheduler jitter maxima", "Resolution: 1 ms", "",
    "Actuator        : " ++ toString jitter.actuatorMs ++ " ms",
    "Control         : " ++ toString jitter.controlMs ++ " ms",
    "Sensor/Safety   : " ++ toString jitter.sensorSafetyMs ++ " ms",
    "Communication   : " ++ toString jitter.communicationMs ++ " ms"]

/-- A part of a command that a flag asks for. -/
def whenRequested (requested : Bool) (part : HostM Unit) : HostM Unit :=
  if requested then part else pure ()

/-- `run_supervisor`. -/
def runSupervisor (pf : Platform) (port : String)
    (statusRequested timingRequested jitterRequested : Bool) : HostM Unit := do
  printAll ["SENTRY-CELL UNO Supervisor", "Port: " ++ port, ""]
  withLink pf.termios port do
    os (.sleep (22 / 10))
    roundTrip ⟨typePing, 0x10, []⟩ typePong
    print "PING seq=0x10 -> PONG [PASS]"
    roundTrip ⟨typeEcho, 0x20, [0x11#8, 0x22#8, 0x33#8, 0x44#8]⟩ typeAck
    print "ECHO seq=0x20 payload=11 22 33 44 -> ACK [PASS]"
    whenRequested statusRequested showStatus
    whenRequested timingRequested (showTiming pf)
    whenRequested jitterRequested showJitter
  printAll ["", "Protocol checks: PASS", "Serial link: PASS", "Supervisor bring-up: PASS"]

/-- `run_runtime_memory`. -/
def runRuntimeMemory (pf : Platform) (port : String) (observeSeconds : ℚ) : HostM Unit := do
  validateObserveSeconds observeSeconds
  printAll ["SENTRY-CELL UNO Runtime SRAM Watermark", "Port: " ++ port,
    "Observation window: " ++ pf.general observeSeconds ++ " s", ""]
  let status ← withLink pf.termios port do
    os (.sleep (22 / 10))
    print "RUN PHYSICAL SCENARIO NOW"
    os (.sleep observeSeconds)
    requestStatus typeGetRuntimeMemoryStatus 0x60 "RUNTIME_MEMORY_STATUS" decodeRuntimeMemoryStatus
  printAll ["", "Runtime SRAM watermark", "",
    "Painted region        : " ++ toString status.paintedBytes ++ " bytes",
    "Used painted region   : " ++ toString status.usedPaintedBytes ++ " bytes",
    "Minimum free observed : " ++ toString status.minFreeBytes ++ " bytes", "",
    "Observed watermark, not guaranteed worst-case stack bound."]

/-- `run_rt_profile`. -/
def runRtProfile (pf : Platform) (port : String) (observeSeconds : ℚ) : HostM Unit := do
  validateObserveSeconds observeSeconds
  printAll ["SENTRY-CELL UNO Scheduled-Task Runtime Profile", "Port: " ++ port,
    "Observation window: " ++ pf.general observeSeconds ++ " s", ""]
  let (cpuStatus, overruns) ← withLink pf.termios port do
    os (.sleep (22 / 10))
    print "RUN PHYSICAL SCENARIO NOW"
    os (.sleep observeSeconds)
    let cpuStatus ← requestStatus typeGetCpuLoadStatus 0x70 "CPU_LOAD_STATUS" decodeCpuLoadStatus
    let overruns ← requestStatus typeGetOverrunStatus 0x71 "OVERRUN_STATUS" decodeOverrunStatus
    pure (cpuStatus, overruns)
  let utilization := calculateScheduledTaskUtilization cpuStatus.busyTicks cpuStatus.elapsedMs
  printAll ["", "Real-Time Runtime Profile", "",
    "Observation time                : " ++ toString cpuStatus.elapsedMs ++ " ms",
    "Scheduled-task busy time        : " ++ toString cpuStatus.busyTicks ++ " ticks",
    "Scheduled-task CPU utilization  : " ++ pf.fixed utilization ++ " %", "",
    "Execution overruns",
    "Actuator       : " ++ toString overruns.actuator,
    "Control        : " ++ toString overruns.control,
    "Sensor/Safety  : " ++ toString overruns.sensorSafety,
    "Communication  : " ++ toString overruns.communication, "",
    "ISR and scheduler overhead are not included in this utilization."]

/-! ## The watchdog test -/

/-- `'PASS' if … else 'FAIL'`. -/
def passFail (passed : Bool) : String := if passed then "PASS" else "FAIL"

/-- `watchdog_test_passed`. -/
def watchdogTestPassed (mcuRecovered pingAfterReset : Bool) (timeoutMarker : ℤ) : Bool :=
  mcuRecovered && pingAfterReset && timeoutMarker == 1

/-- The marker and the reset cause, once the board answers. -/
def readAfterReset (recoveryPing : Bool) : HostM (ℤ × ℤ) :=
  if recoveryPing then do
    let watchdogStatus ← requestWatchdogStatus 0x73
    let resetStatus ← requestResetCause 0x74
    pure (watchdogStatus.timeoutMarker, resetStatus.resetCause)
  else pure (0, 0)

/-- What `run_watchdog_test` does while the link is open. -/
def watchdogSession : HostM (Bool × ℤ × ℤ) := do
  os (.sleep (22 / 10))
  let initialStatus ← requestWatchdogStatus 0x70
  printAll ["Initial watchdog marker : " ++ toString initialStatus.timeoutMarker,
    "Injecting controlled firmware block..."]
  send ⟨typeInjectWatchdogBlock, 0x71, []⟩
  -- long enough for two time-outs of the watchdog and the boot loader
  os (.sleep 4)
  let recoveryPing ← verifyRecoveryPing 0x72
  let (watchdogMarker, resetCause) ← readAfterReset recoveryPing
  pure (recoveryPing, watchdogMarker, resetCause)

/-- `run_watchdog_test`. -/
def runWatchdogTest (pf : Platform) (port : String) : HostM Unit := do
  printAll ["Watchdog fault injection", "Port: " ++ port, ""]
  let (recoveryPing, watchdogMarker, resetCause) ← withLink pf.termios port watchdogSession
  let mcuRecovered := recoveryPing
  let passed := watchdogTestPassed mcuRecovered recoveryPing watchdogMarker
  printAll ["", "MCU recovered            : " ++ passFail mcuRecovered,
    "PING after reset         : " ++ passFail recoveryPing,
    "Watchdog timeout marker  : " ++ passFail (watchdogMarker == 1),
    "Raw boot reset cause     : 0x" ++ hexInt resetCause ++ " [informational]", "",
    "Watchdog test            : " ++ passFail passed]
  if ¬ passed then
    Script.raise ⟨.supervisorError,
      "watchdog test requires recovered communication, PING, and timeout marker 1"⟩
  else pure ()

/-! ## The monitor -/

/-- `CsvLogger`. -/
def monitorLogger : CsvLogger where
  columns := ["timestamp", "sequence", "uart_rx_overflow", "parser_timeouts", "crc_errors"]
  name := "CSV logger"

/-- `CommHealthSample`. -/
structure CommHealthSample where
  timestamp : String
  sequence : ℤ
  uartRxOverflow : ℤ
  parserTimeouts : ℤ
  crcErrors : ℤ
  deriving DecidableEq, Repr

/-- The row that `CsvLogger.write` makes of a sample. -/
def CommHealthSample.row (s : CommHealthSample) : List String :=
  [s.timestamp, toString s.sequence, toString s.uartRxOverflow, toString s.parserTimeouts,
    toString s.crcErrors]

/-- `validate_monitor_options`. -/
def validateMonitorOptions (samples : ℤ) (intervalS : ℚ) : HostM Unit :=
  if samples ≤ 0 then Script.raise ⟨.valueError, "--samples must be greater than zero"⟩
  else if intervalS ≤ 0 then Script.raise ⟨.valueError, "--interval must be greater than zero"⟩
  else pure ()

/-- `next_sequence`. -/
def nextSequence (sequence : ℤ) : HostM ℤ :=
  if ¬ (0 ≤ sequence ∧ sequence ≤ 0xFF) then
    Script.raise ⟨.valueError, "sequence must be in range 0..255"⟩
  else pure ((sequence + 1) % 256)

/-- The wait before a round of the monitor, and when the round is due. -/
def awaitAcquisition (intervalS : ℚ) (sampleIndex : ℕ) (nextAcquisition : ℚ) : HostM ℚ :=
  if sampleIndex > 0 then do
    let nextAcquisition := nextAcquisition + intervalS
    let reading ← os .monotonic
    -- a round that is late is not waited for, and stays on the schedule
    let remaining := nextAcquisition - reading
    if remaining > 0 then do
      os (.sleep remaining)
      pure nextAcquisition
    else pure nextAcquisition
  else pure nextAcquisition

/-- A round of the monitor, from `next_acquisition` and `sequence` to the
same. -/
def monitorRound (samples : ℤ) (intervalS : ℚ) (state : ℚ × ℤ) (sampleIndex : ℕ) :
    HostM (ℚ × ℤ) := do
  let nextAcquisition ← awaitAcquisition intervalS sampleIndex state.1
  let status ← requestStatus typeGetCommStatus state.2 "COMM_STATUS" decodeCommStatus
  let now ← os .now
  let sample : CommHealthSample :=
    ⟨now.isoformat, state.2, status.uartRxOverflow, status.parserTimeouts, status.crcErrors⟩
  monitorLogger.write sample.row
  print ("[" ++ toString (sampleIndex + 1) ++ "/" ++ toString samples ++ "] seq=0x" ++
    hexInt sample.sequence ++ " overflow=" ++ toString sample.uartRxOverflow ++
    " timeout=" ++ toString sample.parserTimeouts ++ " crc=" ++ toString sample.crcErrors)
  let sequence ← nextSequence state.2
  pure (nextAcquisition, sequence)

/-- `run_monitor`. -/
def runMonitor (pf : Platform) (port : String) (samples : ℤ) (intervalS : ℚ) (csvPath : String) :
    HostM Unit := do
  validateMonitorOptions samples intervalS
  printAll ["SENTRY-CELL UNO Communication Monitor", "Port: " ++ port,
    "Samples: " ++ toString samples, "Interval: " ++ pf.plain intervalS ++ " s",
    "CSV: " ++ csvPath, ""]
  withLink pf.termios port do
    os (.sleep (22 / 10))
    withLogger monitorLogger csvPath do
      let nextAcquisition ← os .monotonic
      let _ ← Script.forEach (monitorRound samples intervalS) (List.range samples.toNat)
        (nextAcquisition, 0x40)
      pure ()
  printAll ["", "Communication monitoring: PASS", "CSV written: " ++ csvPath]

/-! ## Fault injection -/

/-- `FaultInjectionCsvLogger`. -/
def faultLogger : CsvLogger where
  columns := ["timestamp", "fault_id", "counter_name", "before", "after", "counter_incremented",
    "recovery_ping", "result"]
  name := "fault-injection CSV logger"

/-- `FaultInjectionResult`. -/
structure FaultInjectionResult where
  faultId : String
  counterName : String
  before : ℤ
  after : ℤ
  counterIncremented : Bool
  recoveryPing : Bool
  deriving DecidableEq, Repr

/-- `FaultInjectionResult.passed`. -/
def FaultInjectionResult.passed (r : FaultInjectionResult) : Bool :=
  r.counterIncremented && r.recoveryPing

/-- The row that `FaultInjectionCsvLogger.write` makes of a result. -/
def FaultInjectionResult.row (r : FaultInjectionResult) (timestamp : String) : List String :=
  [timestamp, r.faultId, r.counterName, toString r.before, toString r.after,
    toString r.counterIncremented, toString r.recoveryPing, passFail r.passed]

/-- `require_counter_increment_capacity`. -/
def requireCounterIncrementCapacity (counterName : String) (before : ℤ) : HostM Unit :=
  if before = 0xFF then
    Script.raise ⟨.saturatedCounterError, counterName ++
      " counter is saturated at 255; an increment cannot be demonstrated"⟩
  else pure ()

/-- `build_fault_result`. -/
def buildFaultResult (faultId counterName : String) (before after : ℤ) (recoveryPing : Bool) :
    FaultInjectionResult where
  faultId := faultId
  counterName := counterName
  before := before
  after := after
  counterIncremented := decide (after > before)
  recoveryPing := recoveryPing

/-- `_require_no_bad_crc_response`. -/
def requireNoBadCrcResponse : HostM Unit := do
  let unexpected : HostM (Option (List Byte)) := do
    let unexpected ← SerialLink.readExact 1 (15 / 100)
    pure (some unexpected)
  let answer ← unexpected.handle fun e =>
    if e.kind = .serialTimeoutError then pure none else Script.raise e
  match answer with
  -- silence is the answer that is wanted
  | none => pure ()
  | some unexpected => Script.raise ⟨.supervisorError,
      "corrupted-CRC frame produced an unexpected response byte 0x" ++
        hex02 (unexpected.getD 0 0).toNat⟩

/-- `_print_fault_result`. -/
def printFaultResult (title counterLabel : String) (result : FaultInjectionResult) : HostM Unit :=
  printAll [title,
    counterLabel ++ ": " ++ toString result.before ++ " -> " ++ toString result.after,
    "Recovery PING/PONG: " ++ passFail result.recoveryPing,
    "Result: " ++ passFail result.passed, ""]

/-- What the two parts of the campaign differ in. -/
structure FaultCase where
  faultId : String
  counterName : String
  counterLabel : String
  title : String
  counter : CommStatus → ℤ
  beforeSequence : Byte
  afterSequence : Byte
  pingSequence : Byte
  inject : HostM Unit

/-- The last byte inverted: `bad_crc_frame[-1] ^= 0xFF`. -/
def corruptCrc (data : List Byte) : List Byte :=
  data.dropLast ++ [data.getLastD 0 ^^^ 0xFF#8]

/-- `FI-COM-001`. -/
def badCrc : FaultCase where
  faultId := "FI-COM-001"
  counterName := "crc_errors"
  counterLabel := "CRC errors"
  title := "FI-COM-001 BAD_CRC"
  counter := CommStatus.crcErrors
  beforeSequence := 0x50#8
  afterSequence := 0x52#8
  pingSequence := 0x53#8
  inject := do
    let data ← codec (encodeFrame ⟨typePing, 0x51, []⟩)
    SerialLink.write (corruptCrc data)
    requireNoBadCrcResponse

/-- `FI-COM-002`. -/
def partialFrame : FaultCase where
  faultId := "FI-COM-002"
  counterName := "parser_timeouts"
  counterLabel := "Parser timeouts"
  title := "FI-COM-002 PARTIAL_FRAME_TIMEOUT"
  counter := CommStatus.parserTimeouts
  beforeSequence := 0x60#8
  afterSequence := 0x61#8
  pingSequence := 0x62#8
  inject := do
    SerialLink.write [0xA5#8, 0x01#8, 0x01#8]
    -- longer than the time-out of the parser
    os (.sleep (20 / 100))

/-- A part of the campaign: a counter is read, the fault injected, and the
counter read again. -/
def FaultCase.run (c : FaultCase) : HostM FaultInjectionResult := do
  let beforeStatus ← requestCommStatus c.beforeSequence.toNat
  -- a counter at its limit could not show the fault
  requireCounterIncrementCapacity c.counterLabel (c.counter beforeStatus)
  c.inject
  let afterStatus ← requestCommStatus c.afterSequence.toNat
  let recovery ← verifyRecoveryPing c.pingSequence.toNat
  let result := buildFaultResult c.faultId c.counterName (c.counter beforeStatus)
    (c.counter afterStatus) recovery
  let now ← os .now
  faultLogger.write (result.row now.isoformat)
  printFaultResult c.title c.counterLabel result
  pure result

/-- What `run_fault_injection_comm` does while the link is open. -/
def faultSession (csvPath : String) : HostM (List FaultInjectionResult) := do
  os (.sleep (22 / 10))
  withLogger faultLogger csvPath do
    let crcResult ← badCrc.run
    let timeoutResult ← partialFrame.run
    pure [crcResult, timeoutResult]

/-- `run_fault_injection_comm`. -/
def runFaultInjectionComm (pf : Platform) (port csvPath : String) : HostM Unit := do
  printAll ["SENTRY-CELL UNO Communication Fault Injection", "Port: " ++ port,
    "CSV: " ++ csvPath, ""]
  let results ← withLink pf.termios port (faultSession csvPath)
  let campaignPassed := results.length == 2 && results.all FaultInjectionResult.passed
  print ("Communication fault campaign: " ++ passFail campaignPassed)
  if ¬ campaignPassed then
    Script.raise ⟨.supervisorError, "communication fault campaign failed"⟩
  else pure ()

end SentryCell.Host.Supervisor
