import SentryCell.Firmware.Board
import SentryCell.Firmware.Profilers
import SentryCell.Protocol.Parser
import SentryCell.Protocol.Responses
/-!
# The four tasks

`firmware/main.c`: the state of the whole program, the four task bodies,
`main` up to `sei()`, and the machine that dispatches the tasks in any
order under the interrupts. What a task reads from the clock, the counter,
the pins, the converter and unpainted memory are its `Readings`: every
execution is dispatched with its own, and nothing relates those of one
execution to those of the next. The scheduler is in the order of the
dispatches, which is any order.
-/

namespace SentryCell

open Foreground Word

/-! ## The state -/

/-- **The state of the firmware.** `accepted` is a history variable, the
frames `protocol_handle_frame` was called with, oldest first; no access
reads it. -/
structure Firmware where
  uart : Uart
  protocol : Protocol
  control : Control
  profiler : Profiler
  accepted : List ProtocolFrame

namespace Firmware

def rxLens : Lens Firmware UartRx where
  get s := s.uart.rx
  set u s := { s with uart := { s.uart with rx := u } }
  get_set _ _ := rfl
  set_get _ := rfl

def txLens : Lens Firmware UartTx where
  get s := s.uart.tx
  set u s := { s with uart := { s.uart with tx := u } }
  get_set _ _ := rfl
  set_get _ := rfl

def controlLens : Lens Firmware Control where
  get s := s.control
  set c s := { s with control := c }
  get_set _ _ := rfl
  set_get _ := rfl

def profilerLens : Lens Firmware Profiler where
  get s := s.profiler
  set p s := { s with profiler := p }
  get_set _ _ := rfl
  set_get _ := rfl

def slotsLens : Lens Firmware Slots where
  get s := s.protocol.slots
  set q s := { s with protocol := { s.protocol with slots := q } }
  get_set _ _ := rfl
  set_get _ := rfl

end Firmware

/-- The state before `main`. -/
def Firmware.zeroed : Firmware := ⟨.zeroed, .zeroed, .zeroed, .zeroed, []⟩

/-- **What one execution of a task reads** from outside the program. -/
structure Readings where
  /-- `system_time_ms()` for `timing_profiler_record_start`. -/
  startMs : Word32
  /-- `timing_counter_ticks()` into `start_ticks`. -/
  startTicks : Word16
  /-- `system_time_ms()` into `now_ms`. -/
  nowMs : Word32
  /-- `system_time_ms()` after each byte of the communication task. -/
  byteMs : ℕ → Word32
  /-- `system_time_ms()` for `runtime_profiler_get_elapsed_ms`. -/
  loadMs : Word32
  /-- `timing_counter_ticks()` into `end_ticks`. -/
  endTicks : Word16
  pind : Byte
  adc : Word16
  /-- Memory from `__heap_start` on. -/
  sram : ℕ → Byte

/-- No time passes and every input is low. -/
def Readings.zeroed : Readings where
  startMs := 0
  startTicks := 0
  nowMs := 0
  byteMs _ := 0
  loadMs := 0
  endTicks := 0
  pind := 0
  adc := 0
  sram _ := 0

/-! ## Bookkeeping at the ends of a task -/

/-- `timing_profiler_record_start`, as the task's first act. -/
def recordStart (taskId : Byte) (periodMs : Word16) (r : Readings) : Prog Profiler Unit :=
  Prog.write fun p =>
    { p with timing := timingProfilerRecordStart taskId r.startMs periodMs p.timing }

/-- `timing_profiler_record` and `runtime_profiler_record_execution`, as
its last. -/
def recordEnd (taskId : Byte) (periodMs : Word16) (r : Readings) : Prog Profiler Unit := do
  let elapsedTicks := r.endTicks - r.startTicks
  Prog.write fun p => { p with timing := timingProfilerRecord taskId elapsedTicks p.timing }
  Prog.write fun p =>
    { p with runtime := runtimeProfilerRecordExecution taskId elapsedTicks periodMs p.runtime }

def actuatorServiceTaskPeriodMs : Word16 := 1#16
def controlTaskPeriodMs : Word16 := 10#16
def sensorSafetyTaskPeriodMs : Word16 := 30#16
def communicationTaskPeriodMs : Word16 := 10#16

/-! ## `actuator_service_task` -/

def stepperStepPeriodMs : Word32 := 5#32

/-- The body of `actuator_service_task`. -/
def actuatorService (nowMs : Word32) : Prog Control Unit := do
  let state ← systemFsmGetState
  if state = .active then do
    let lastStepMs ← Prog.read Control.lastStepMs
    -- the interval is right across a wrap of the clock
    if nowMs - lastStepMs ≥ stepperStepPeriodMs then do
      Prog.write fun c => { c with lastStepMs := nowMs }
      stepperStepForward
    else pure ()
  else do
    -- the first step of the next start comes a whole period after it
    stepperStop
    Prog.write fun c => { c with lastStepMs := nowMs }

/-! ## `control_task` -/

/-- `apply_safe_state_led`. -/
def applySafeStateLed (nowMs : Word32) : Prog Control Unit := do
  let phaseMs := nowMs % 1000
  let lastFault ← Prog.read Control.lastFault
  if lastFault = .obstacleCritical then
    -- two short flashes a second for the obstacle, half a second for any
    -- other fault
    if phaseMs < 150 ∨ (phaseMs ≥ 300 ∧ phaseMs < 450) then ledOn else ledOff
  else if phaseMs < 500 then ledOn
  else ledOff

/-- The arming of the button, and the event of an armed press. It returns
the state the outputs are set by. -/
def controlButton (buttonPressed : Byte) (state : SystemState) : Prog Control SystemState :=
  if state = .safeState then do
    -- a button held through SAFE_STATE has to be released before it counts
    Prog.write fun c => { c with buttonArmed := 0 }
    pure state
  else if buttonPressed = 0 then do
    Prog.write fun c => { c with buttonArmed := 1 }
    pure state
  else do
    let buttonArmed ← Prog.read Control.buttonArmed
    if buttonArmed ≠ 0 then do
      Prog.write fun c => { c with buttonArmed := 0 }
      -- in BOOT the press is used up without an event
      if state = .idle ∨ state = .active then do
        systemFsmEvent .startStop
        systemFsmGetState
      else pure state
    else pure state

/-- The `switch` of `control_task`. -/
def controlOutputs (nowMs : Word32) : SystemState → Prog Control Unit
  | .idle => do
    relayOff
    dcMotorStop
    servoSetPulseMs 1
    ledOff
  | .active => do
    relayOn
    dcMotorForward
    servoSetPulseMs 2
    ledOn
  | .safeState => do
    relayOff
    dcMotorStop
    servoSetPulseMs 1
    applySafeStateLed nowMs
  | .boot => setSafeOutputs

/-- The body of `control_task`. -/
def controlStep (pind : Byte) (nowMs : Word32) : Prog Control Unit := do
  let state ← systemFsmGetState
  let state ← controlButton (buttonIsPressed pind) state
  controlOutputs nowMs state

/-! ## `sensor_safety_task` -/

def hcsr04TicksPerCentimeter : Word16 := 116#16

/-- What `sensor_safety_task` does with a pulse. -/
def judgePulse (pulseTicks : Word16) : Prog Control Unit := do
  let distanceCm := pulseTicks / hcsr04TicksPerCentimeter
  -- a pulse of less than a centimetre is no measurement
  let valid : Byte := if distanceCm > 0 then 1 else 0
  let state ← systemFsmGetState
  if state = .active ∧ safetyObstacleIsCritical valid distanceCm ≠ 0 then do
    diagnosticsRecordFault .obstacleCritical
    systemFsmEvent .criticalFault
  else pure ()

/-- The end of a measurement: its result, or an abort. -/
def finishMeasurement : Prog Control Unit := do
  let ready ← hcsr04ResultReady
  if ready ≠ 0 then do
    let pulseTicks ← hcsr04GetPulseTicks
    judgePulse pulseTicks
  -- no echo within one period of the task
  else hcsr04Abort

/-- The body of `sensor_safety_task`. -/
def sensorSafety (adc : Word16) : Prog Control Unit := do
  Prog.write fun c => { c with lastThermistorRaw := adc }
  let measurementActive ← Prog.read Control.measurementActive
  if measurementActive = 0 then do
    -- a capture still under way answers 0, and the next execution tries again
    let started ← hcsr04Start
    Prog.write fun c => { c with measurementActive := started }
  else do
    finishMeasurement
    Prog.write fun c => { c with measurementActive := 0 }

/-! ## `communication_task` -/

/-- The loop that is never left. -/
def forever {σ : Type} : Prog σ Unit := .loop (fun _ : Unit => .ret (some ())) () (.ret ())

/-- `protocol_process_byte`, and the frame it hands over. -/
def Firmware.processByte (byte : Byte) (nowMs : Word32) (s : Firmware) : Firmware :=
  { s with
    protocol := protocolProcessByte byte nowMs s.protocol
    accepted := s.accepted ++ (handledFrame byte s.protocol).toList }

/-- `protocol_check_timeout`. -/
def Firmware.checkTimeout (nowMs : Word32) (s : Firmware) : Firmware :=
  { s with protocol := protocolCheckTimeout nowMs s.protocol }

/-- One turn of the `while` loop of `communication_task`. -/
def drainByte (r : Readings) (n : ℕ) : Prog Firmware (Option ℕ) := do
  let byte ← (uartReadByte false).zoom Firmware.rxLens
  match byte with
  | none => pure none
  | some byte => do
    -- the clock is read anew for every byte
    Prog.write (Firmware.processByte byte (r.byteMs n))
    pure (some (n + 1))

/-- The watchdog-block request: safe outputs, and then nothing more. -/
def serveBlock : Prog Firmware Unit := do
  let requested ← Prog.read fun s => s.protocol.slots.watchdogBlockRequestPending
  if requested ≠ 0 then do
    -- the interrupts go on, but nothing kicks the watchdog any more
    setSafeOutputs.zoom Firmware.controlLens
    forever
  else pure ()

/-- The immediate response, if one is pending. -/
def serveResponse : Prog Firmware Unit := do
  let response ← Prog.read fun s => protocolGetResponse s.protocol.slots
  match response with
  | none => pure ()
  | some response => do
    let sent ← (protocolSendFrame response).zoom Firmware.txLens
    if sent ≠ 0 then (Prog.write protocolResponseSent).zoom Firmware.slotsLens else pure ()

/-- The `protocol_send_…` functions of the eight statuses: the frame, and
the flag cleared if it was enqueued. -/
def protocolSendStatus (kind : StatusKind) (sequence : Byte) (payload : List Byte) :
    Prog Firmware Byte := do
  let sent ← (protocolSendFrame (statusFrame kind sequence payload)).zoom Firmware.txLens
  if sent = 0 then pure 0
  else do
    (Prog.write (clearRequest kind)).zoom Firmware.slotsLens
    pure 1

/-- `protocol_send_comm_status`. -/
def protocolSendCommStatus (sequence uartOverflow timeoutCount crcErrorCount : Byte) :
    Prog Firmware Byte :=
  protocolSendStatus .commStatus sequence [uartOverflow, timeoutCount, crcErrorCount]

/-- `protocol_send_timing_status`. -/
def protocolSendTimingStatus (sequence : Byte)
    (actuatorTicks controlTicks sensorSafetyTicks communicationTicks : Word16) :
    Prog Firmware Byte :=
  protocolSendStatus .timingStatus sequence
    (taskWords actuatorTicks controlTicks sensorSafetyTicks communicationTicks)

/-- `protocol_send_jitter_status`. -/
def protocolSendJitterStatus (sequence : Byte)
    (actuatorMs controlMs sensorSafetyMs communicationMs : Word16) : Prog Firmware Byte :=
  protocolSendStatus .jitterStatus sequence
    (taskWords actuatorMs controlMs sensorSafetyMs communicationMs)

/-- `protocol_send_runtime_memory_status`. -/
def protocolSendRuntimeMemoryStatus (sequence : Byte)
    (minFreeBytes paintedBytes usedPaintedBytes : Word16) : Prog Firmware Byte :=
  protocolSendStatus .runtimeMemoryStatus sequence
    (word16Bytes minFreeBytes ++ word16Bytes paintedBytes ++ word16Bytes usedPaintedBytes)

/-- `protocol_send_cpu_load_status`. -/
def protocolSendCpuLoadStatus (sequence : Byte) (busyTicks elapsedMs : Word32) :
    Prog Firmware Byte :=
  protocolSendStatus .cpuLoadStatus sequence (word32Bytes busyTicks ++ word32Bytes elapsedMs)

/-- `protocol_send_overrun_status`. -/
def protocolSendOverrunStatus (sequence : Byte)
    (actuator control sensorSafety communication : Word16) : Prog Firmware Byte :=
  protocolSendStatus .overrunStatus sequence
    (taskWords actuator control sensorSafety communication)

/-- `protocol_send_reset_cause`. -/
def protocolSendResetCause (sequence cause : Byte) : Prog Firmware Byte :=
  protocolSendStatus .resetCause sequence [cause]

/-- `protocol_send_watchdog_status`. -/
def protocolSendWatchdogStatus (sequence timeoutDetected : Byte) : Prog Firmware Byte :=
  protocolSendStatus .watchdogStatus sequence [if timeoutDetected ≠ 0 then 1 else 0]

/-- One value of `profiler` for each of the four tasks, read in order. -/
def readTaskWords (value : Byte → Profiler → Word16)
    (send : Word16 → Word16 → Word16 → Word16 → Prog Firmware Byte) : Prog Firmware Byte := do
  let actuator ← Prog.read fun s => value timingTaskActuator s.profiler
  let control ← Prog.read fun s => value timingTaskControl s.profiler
  let sensorSafety ← Prog.read fun s => value timingTaskSensorSafety s.profiler
  let communication ← Prog.read fun s => value timingTaskCommunication s.profiler
  send actuator control sensorSafety communication

/-- The values of a status, read and sent. -/
def collectStatus (r : Readings) (sequence : Byte) : StatusKind → Prog Firmware Byte
  | .commStatus => do
    let uartOverflow ← Prog.read fun s => s.uart.rx.rxOverflowCount
    let timeoutCount ← Prog.read fun s => s.protocol.parserTimeoutCount
    let crcErrorCount ← Prog.read fun s => s.protocol.crcErrorCount
    protocolSendCommStatus sequence uartOverflow timeoutCount crcErrorCount
  | .timingStatus =>
    readTaskWords (fun i p => timingProfilerGetMaxTicks i p.timing)
      (protocolSendTimingStatus sequence)
  | .jitterStatus =>
    readTaskWords (fun i p => timingProfilerGetMaxJitterMs i p.timing)
      (protocolSendJitterStatus sequence)
  | .runtimeMemoryStatus => do
    -- the scan comes first, and may lower the minimum that is read
    (Prog.write fun p : Profiler =>
      { p with memory := memoryProfilerGetMinFreeBytes r.sram p.memory }).zoom
        Firmware.profilerLens
    let minFreeBytes ← Prog.read fun s => s.profiler.memory.minFreeBytes
    let paintedBytes ← Prog.read fun s => s.profiler.memory.paintedBytes
    let usedPaintedBytes ← Prog.read fun s => memoryProfilerGetUsedPaintedBytes s.profiler.memory
    protocolSendRuntimeMemoryStatus sequence minFreeBytes paintedBytes usedPaintedBytes
  | .cpuLoadStatus => do
    let busyTicks ← Prog.read fun s => s.profiler.runtime.busyTicks
    let elapsedMs ← Prog.read fun s => runtimeProfilerGetElapsedMs r.loadMs s.profiler.runtime
    protocolSendCpuLoadStatus sequence busyTicks elapsedMs
  | .overrunStatus =>
    readTaskWords (fun i p => runtimeProfilerGetOverrunCount i p.runtime)
      (protocolSendOverrunStatus sequence)
  | .resetCause => do
    let cause ← Prog.read fun s => s.profiler.watchdog.resetCause
    protocolSendResetCause sequence cause
  | .watchdogStatus => do
    let detected ← Prog.read fun s => watchdogPreviousTimeoutDetected s.profiler.watchdog
    protocolSendWatchdogStatus sequence (if detected then 1 else 0)

/-- A status, if it is requested. -/
def serveStatus (r : Readings) (kind : StatusKind) : Prog Firmware Unit := do
  let sequence ← Prog.read fun s => protocolStatusRequested kind s.protocol.slots
  match sequence with
  | none => pure ()
  | some sequence => do
    let _ ← collectStatus r sequence kind
    pure ()

/-- The statuses in the order the task serves them. -/
def servedStatuses : List StatusKind :=
  [.commStatus, .timingStatus, .jitterStatus, .runtimeMemoryStatus, .cpuLoadStatus,
    .overrunStatus, .resetCause, .watchdogStatus]

/-- The status blocks of `communication_task`, one after another. -/
def serveStatuses (r : Readings) : List StatusKind → Prog Firmware Unit
  | [] => pure ()
  | kind :: kinds => do
    serveStatus r kind
    serveStatuses r kinds

/-- The body of `communication_task`. -/
def communication (r : Readings) : Prog Firmware Unit := do
  -- one check for the whole pass, before any of its bytes
  Prog.write (Firmware.checkTimeout r.nowMs)
  .loop (drainByte r) 0 (.ret ())
  serveBlock
  serveResponse
  serveStatuses r servedStatuses

/-! ## The tasks and the machine -/

/-- The tasks `main` registers. -/
inductive Task where
  | actuatorService
  | control
  | sensorSafety
  | communication
  deriving DecidableEq, Repr

/-- The profilers' identifier of a task. -/
def Task.id : Task → Byte
  | .actuatorService => timingTaskActuator
  | .control => timingTaskControl
  | .sensorSafety => timingTaskSensorSafety
  | .communication => timingTaskCommunication

/-- The period a task is registered with. -/
def Task.periodMs : Task → Word16
  | .actuatorService => actuatorServiceTaskPeriodMs
  | .control => controlTaskPeriodMs
  | .sensorSafety => sensorSafetyTaskPeriodMs
  | .communication => communicationTaskPeriodMs

/-- What a task does between its bookkeeping. -/
def Task.body (r : Readings) : Task → Prog Firmware Unit
  | .actuatorService => (SentryCell.actuatorService r.nowMs).zoom Firmware.controlLens
  | .control => (controlStep r.pind r.nowMs).zoom Firmware.controlLens
  | .sensorSafety => (SentryCell.sensorSafety r.adc).zoom Firmware.controlLens
  | .communication => SentryCell.communication r

/-- A task and what this execution of it reads. -/
structure Dispatch where
  task : Task
  readings : Readings

/-- One execution of a task. -/
def Dispatch.program (d : Dispatch) : Prog Firmware Unit := do
  (recordStart d.task.id d.task.periodMs d.readings).zoom Firmware.profilerLens
  d.task.body d.readings
  (recordEnd d.task.id d.task.periodMs d.readings).zoom Firmware.profilerLens

/-- The interrupts, with what the handler reads. -/
inductive Interrupt where
  | usartRx (byte : Byte)
  | usartUdre
  | timer1Compa
  | timer1Capt (captureTick : Word16)
  | wdt
  deriving DecidableEq, Repr

/-- A handler, where its interrupt is enabled. -/
def Interrupt.handler (s : Firmware) : Interrupt → Option Firmware
  | .usartRx byte =>
    if isSet s.uart.tx.ucsr0b rxcie0 then
      some (Firmware.rxLens.set (usartRxVect byte s.uart.rx) s)
    else none
  | .usartUdre =>
    if isSet s.uart.tx.ucsr0b udrie0 then
      some (Firmware.txLens.set (usartUdreVect s.uart.tx) s)
    else none
  | .timer1Compa =>
    if isSet s.control.timsk1 ocie1a then
      some { s with control := timer1CompaVect s.control }
    else none
  | .timer1Capt captureTick =>
    if isSet s.control.timsk1 icie1 then
      some { s with control := timer1CaptVect captureTick s.control }
    else none
  | .wdt => some { s with profiler := { s.profiler with watchdog := wdtVect s.profiler.watchdog } }

/-- **The firmware**: any task may be dispatched next, and any enabled
interrupt may come between two accesses. -/
def firmware : Machine Firmware Dispatch Unit Interrupt where
  task := Dispatch.program
  ready _ _ := true
  env x s := x.handler s

abbrev FirmwareConfig := Config Firmware Dispatch Unit
abbrev FirmwareEvent := Event Dispatch Interrupt

/-- **What a handler does**: each changes one component. -/
theorem handler_cases {x : Interrupt} {s s' : Firmware} (h : x.handler s = some s') :
    (∃ byte, s' = Firmware.rxLens.set (usartRxVect byte s.uart.rx) s) ∨
    s' = Firmware.txLens.set (usartUdreVect s.uart.tx) s ∨
    s' = { s with control := timer1CompaVect s.control } ∨
    (∃ captureTick, s' = { s with control := timer1CaptVect captureTick s.control }) ∨
    s' = { s with profiler := { s.profiler with watchdog := wdtVect s.profiler.watchdog } } := by
  rcases x with byte | _ | _ | captureTick | _ <;>
    simp only [Interrupt.handler, Option.ite_none_right_eq_some, Option.some.injEq] at h
  · exact .inl ⟨byte, h.2.symm⟩
  · exact .inr (.inl h.2.symm)
  · exact .inr (.inr (.inl h.2.symm))
  · exact .inr (.inr (.inr (.inl ⟨captureTick, h.2.symm⟩)))
  · exact .inr (.inr (.inr (.inr h.symm)))

section

variable {x : Interrupt} {s s' : Firmware}

/-- No handler touches the protocol's variables: the parser runs in the
foreground. -/
theorem protocol_of_handler (h : x.handler s = some s') : s'.protocol = s.protocol := by
  obtain ⟨byte, rfl⟩ | rfl | rfl | ⟨tick, rfl⟩ | rfl := handler_cases h <;> rfl

/-- The transmitter is its own interrupt's. -/
theorem tx_of_handler (h : x.handler s = some s') :
    s'.uart.tx = s.uart.tx ∨ s'.uart.tx = usartUdreVect s.uart.tx := by
  obtain ⟨byte, rfl⟩ | rfl | rfl | ⟨tick, rfl⟩ | rfl := handler_cases h
  · exact .inl rfl
  · exact .inr rfl
  · exact .inl rfl
  · exact .inl rfl
  · exact .inl rfl

/-- The receiver is what it was, or what the receive handler made of it with
a byte. -/
theorem rx_of_handler (h : x.handler s = some s') :
    s'.uart.rx = s.uart.rx ∨ ∃ byte, s'.uart.rx = usartRxVect byte s.uart.rx := by
  obtain ⟨byte, rfl⟩ | rfl | rfl | ⟨tick, rfl⟩ | rfl := handler_cases h
  · exact .inr ⟨byte, rfl⟩
  · exact .inl rfl
  · exact .inl rfl
  · exact .inl rfl
  · exact .inl rfl

end

/-- **An execution of a task**, by its body: the bookkeeping around it
writes the profilers alone. -/
theorem Dispatch.triple {τ : Type} {L : Lens τ Firmware} {C : Contract τ} {I J : τ → Prop}
    {d : Dispatch} (hstable : Stable C I) (hstable' : Stable C J) (hinv : ∀ t, I t → C.inv t)
    (hinv' : ∀ t, J t → C.inv t)
    (hprofiler : ∀ t p, I t → C.guar t (L.set (Firmware.profilerLens.set p (L.get t)) t) ∧
      I (L.set (Firmware.profilerLens.set p (L.get t)) t))
    (hprofiler' : ∀ t p, J t → C.guar t (L.set (Firmware.profilerLens.set p (L.get t)) t) ∧
      J (L.set (Firmware.profilerLens.set p (L.get t)) t))
    (hbody : Triple C I ((d.task.body d.readings).zoom L) fun _ => J) :
    Triple C I (d.program.zoom L) fun _ => J := by
  simp only [Dispatch.program, Prog.bind_eq, Prog.zoom_bind, Prog.zoom_zoom]
  refine Triple.bind (Triple.zoom (L.comp Firmware.profilerLens) _ hstable hinv
    fun t p => hprofiler t p) fun _ => ?_
  refine Triple.bind hbody fun _ => ?_
  exact Triple.zoom (L.comp Firmware.profilerLens) _ hstable' hinv' fun t p => hprofiler' t p

/-! ## `main` -/

/-- What `main` reads before the interrupts are enabled. -/
structure Boot where
  tcnt1 : Word16
  systemMs : Word32
  heapStart : Word16
  stackPointer : Word16

/-- `stepper_init`. -/
def stepperInit : Prog Control Unit := do
  Prog.write fun c => { c with stepIndex := 0 }
  stepperStop

/-- `hcsr04_init`. -/
def hcsr04Init : Prog Control Unit := do
  gpioWriteLow Control.portdLens hcsr04TriggerBit
  gpioWriteLow Control.portbLens 0
  Prog.write fun c =>
    { c with
      timsk1 := c.timsk1 &&& ~~~bit icie1
      hcsr04 := ⟨0, 0, .idle, 0⟩
      tccr1b := bit ices1 ||| bit cs11 }

/-- `servo_init`. -/
def servoInit (tcnt1 : Word16) : Prog Control Unit := do
  gpioWriteLow Control.portbLens servoSignalBit
  Prog.write fun c =>
    { c with
      servo := ⟨servoMinPulseMs, 0, servoMinPulseMs, tcnt1 + servoInitialCompareDelayTicks⟩
      timsk1 := c.timsk1 ||| bit ocie1a }

/-- The control side of `main`, from `led_init` to the event `INIT_DONE`. -/
def controlInit (tcnt1 : Word16) : Prog Control Unit := do
  ledOff
  gpioWriteHigh Control.portdLens buttonBit
  stepperInit
  dcMotorStop
  relayOff
  hcsr04Init
  servoInit tcnt1
  setSafeOutputs
  Prog.write fun c => { c with systemState := .boot, lastFault := .none, faultCount := 0 }
  systemFsmEvent .initDone

/-- `main` up to `sei()`: the control side, and the rest. -/
def mainInit (b : Boot) : Prog Firmware Unit := do
  (controlInit b.tcnt1).zoom Firmware.controlLens
  Prog.write fun s =>
    { s with
      uart := uartInit s.uart
      protocol := protocolInit s.protocol
      profiler := {
        s.profiler with
        timing := timingProfilerInit s.profiler.timing
        memory := memoryProfilerInit b.heapStart b.stackPointer
        runtime := runtimeProfilerInit b.systemMs s.profiler.runtime } }

/-- The state at `sei()`, from whatever the registers and variables held. -/
@[irreducible] def Firmware.boot (b : Boot) (s : Firmware) : Firmware :=
  match (mainInit b).uninterrupted s with
  | some (_, s') => s'
  | none => s

theorem straight_gpioWriteLow (port : Lens Control Byte) (i : ℕ) :
    (gpioWriteLow port i).Straight :=
  (Prog.straight_read _).bind fun _ => Prog.straight_write _

theorem straight_stepperStop : stepperStop.Straight :=
  (straight_gpioWriteLow _ _).bind fun _ => (straight_gpioWriteLow _ _).bind fun _ =>
    (straight_gpioWriteLow _ _).bind fun _ => straight_gpioWriteLow _ _

theorem straight_dcMotorStop : dcMotorStop.Straight :=
  (straight_gpioWriteLow _ _).bind fun _ => straight_gpioWriteLow _ _

theorem straight_setSafeOutputs : setSafeOutputs.Straight :=
  straight_stepperStop.bind fun _ => straight_dcMotorStop.bind fun _ =>
    (straight_gpioWriteLow _ _).bind fun _ => (Prog.straight_write _).bind fun _ =>
      straight_gpioWriteLow _ _

/-- The initialisation has no loop to get stuck in. -/
theorem straight_mainInit (b : Boot) : (mainInit b).Straight := by
  have hgpio := straight_gpioWriteLow
  refine (Prog.Straight.zoom _ ?_).bind fun _ => Prog.straight_write _
  refine (hgpio _ _).bind fun _ => ?_
  refine ((Prog.straight_read _).bind fun _ => Prog.straight_write _).bind fun _ => ?_
  refine ((Prog.straight_write _).bind fun _ => straight_stepperStop).bind fun _ => ?_
  refine straight_dcMotorStop.bind fun _ => (hgpio _ _).bind fun _ => ?_
  refine ((hgpio _ _).bind fun _ => (hgpio _ _).bind fun _ =>
    Prog.straight_write _).bind fun _ => ?_
  refine ((hgpio _ _).bind fun _ => Prog.straight_write _).bind fun _ => ?_
  exact straight_setSafeOutputs.bind fun _ => (Prog.straight_write _).bind fun _ =>
    Prog.straight_write _

theorem uninterrupted_mainInit (b : Boot) (s : Firmware) :
    (mainInit b).uninterrupted s = some ((), s.boot b) := by
  obtain ⟨⟨⟨⟩, s'⟩, hs⟩ := (straight_mainInit b).uninterrupted s
  unfold Firmware.boot
  rw [hs]

/-- What the control side of `main` leaves alone. -/
theorem boot_spec (b : Boot) (s : Firmware) :
    (s.boot b).uart = uartInit s.uart ∧ (s.boot b).protocol = protocolInit s.protocol ∧
      (s.boot b).accepted = s.accepted := by
  let C : Contract Firmware := ⟨Eq, fun _ _ => True, fun _ => True⟩
  let I : Firmware → Prop := fun t =>
    t.uart = s.uart ∧ t.protocol = s.protocol ∧ t.accepted = s.accepted
  have hstable : ∀ P : Firmware → Prop, Stable C P := fun P t t' h he => he ▸ h
  have hinit : Triple C I (mainInit b) fun _ t => t.uart = uartInit s.uart ∧
      t.protocol = protocolInit s.protocol ∧ t.accepted = s.accepted := by
    simp only [mainInit, Prog.bind_eq]
    refine Triple.bind (Triple.zoom (I := I) Firmware.controlLens _ (hstable _)
      (fun _ _ => trivial) fun t c h => ⟨trivial, h⟩) fun _ => ?_
    refine Triple.write (hstable _) (fun _ _ => trivial) fun t h => ⟨trivial, ?_⟩
    obtain ⟨hu, hp, ha⟩ := h
    exact ⟨congrArg uartInit hu, congrArg protocolInit hp, ha⟩
  exact hinit.uninterrupted ⟨rfl, rfl, rfl⟩ (uninterrupted_mainInit b s)

/-- The machine after `main` has initialised. -/
def firmwareStart (b : Boot) (s : Firmware) : FirmwareConfig := ⟨s.boot b, none, []⟩

end SentryCell
