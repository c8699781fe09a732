import SentryCell.Lib.Machine
import SentryCell.Lib.Word
import Mathlib.Logic.Function.Basic
/-!
# The board: state machine, outputs and echo capture

`firmware/app`, `firmware/drivers`, `firmware/diagnostics/diagnostics.c`
and `firmware/safety`, on the one record of what they keep. The two Timer1
handlers run to completion; everything else is a program. A port is
written by reading it and writing it back, two accesses that the compare
handler, which owns bit 1 of `PORTB`, may come between. An `ATOMIC_BLOCK`
is one access.
-/

namespace SentryCell

open Foreground Word

/-! ## The system state and the retained fault -/

/-- `system_state_t`. -/
inductive SystemState where
  | boot
  | idle
  | active
  | safeState
  deriving DecidableEq, Repr

/-- `system_event_t`. -/
inductive SystemEvent where
  | initDone
  | startStop
  | criticalFault
  deriving DecidableEq, Repr

/-- `diag_fault_t`. -/
inductive DiagFault where
  | none
  | obstacleCritical
  deriving DecidableEq, Repr

/-- `system_fsm_handle_event`. -/
def systemFsmHandleEvent (event : SystemEvent) : SystemState → SystemState
  | .boot => if event = .initDone then .idle else .boot
  | .idle => if event = .startStop then .active else .idle
  | .active =>
    if event = .startStop then .idle
    else if event = .criticalFault then .safeState
    else .active
  | .safeState => .safeState

/-- **`SAFE_STATE` answers no event**: only a reset leaves it. -/
@[simp] theorem systemFsmHandleEvent_safeState (event : SystemEvent) :
    systemFsmHandleEvent event .safeState = .safeState := rfl

/-! ## The state -/

/-- `g_capture_state` of the HC-SR04 driver. -/
inductive Hcsr04State where
  | idle
  | waitRising
  | waitFalling
  deriving DecidableEq, Repr

/-- The static variables of `hcsr04.c`. -/
structure Hcsr04 where
  startTick : Word16
  pulseTicks : Word16
  captureState : Hcsr04State
  resultReady : Byte

/-- The static variables of `servo.c`, and the compare register. -/
structure Servo where
  pulseMs : Byte
  signalHigh : Byte
  activePulseMs : Byte
  ocr1a : Word16

/-- **What the control side keeps**: the port and timer registers, the
drivers' static variables, the state machine, the retained fault and the
static variables of the three local tasks. -/
structure Control where
  portb : Byte
  portd : Byte
  timsk1 : Byte
  tccr1b : Byte
  servo : Servo
  hcsr04 : Hcsr04
  stepIndex : Byte
  systemState : SystemState
  lastFault : DiagFault
  faultCount : Word16
  lastStepMs : Word32
  buttonArmed : Byte
  measurementActive : Byte
  lastThermistorRaw : Word16

/-- Registers and static storage before `main`: all zero. -/
def Control.zeroed : Control where
  portb := 0
  portd := 0
  timsk1 := 0
  tccr1b := 0
  servo := ⟨0, 0, 0, 0⟩
  hcsr04 := ⟨0, 0, .idle, 0⟩
  stepIndex := 0
  systemState := .boot
  lastFault := .none
  faultCount := 0
  lastStepMs := 0
  buttonArmed := 0
  measurementActive := 0
  lastThermistorRaw := 0

/-- Bits of `TIMSK1` and `TCCR1B`. -/
def ocie1a : ℕ := 1
def icie1 : ℕ := 5
def cs11 : ℕ := 1
def ices1 : ℕ := 6

/-- Bits of `PORTB`. -/
def servoSignalBit : ℕ := 1
def dcMotorIn1Bit : ℕ := 2
def relayControlBit : ℕ := 3
def dcMotorIn2Bit : ℕ := 4
def ledBit : ℕ := 5

/-- Bits of `PORTD`. -/
def buttonBit : ℕ := 2
def stepperIn1Bit : ℕ := 3
def stepperIn2Bit : ℕ := 4
def stepperIn3Bit : ℕ := 5
def stepperIn4Bit : ℕ := 6
def hcsr04TriggerBit : ℕ := 7

namespace Control

def portbLens : Lens Control Byte where
  get c := c.portb
  set r c := { c with portb := r }
  get_set _ _ := rfl
  set_get _ := rfl

def portdLens : Lens Control Byte where
  get c := c.portd
  set r c := { c with portd := r }
  get_set _ _ := rfl
  set_get _ := rfl

end Control

/-! ## Pins -/

/-- `gpio_write_high`. -/
def gpioWriteHigh (port : Lens Control Byte) (i : ℕ) : Prog Control Unit := do
  let r ← Prog.read port.get
  Prog.write (port.set (r ||| bit i))

/-- `gpio_write_low`. -/
def gpioWriteLow (port : Lens Control Byte) (i : ℕ) : Prog Control Unit := do
  let r ← Prog.read port.get
  Prog.write (port.set (r &&& ~~~bit i))

/-- `gpio_read`, on the value of the input register. -/
def gpioRead (pin : Byte) (i : ℕ) : Byte := if pin &&& bit i ≠ 0 then 1 else 0

/-- `button_is_pressed`, on `PIND`. -/
def buttonIsPressed (pind : Byte) : Byte := if gpioRead pind buttonBit = 0 then 1 else 0

def ledOn : Prog Control Unit := gpioWriteHigh Control.portbLens ledBit

def ledOff : Prog Control Unit := gpioWriteLow Control.portbLens ledBit

def relayOn : Prog Control Unit := gpioWriteHigh Control.portbLens relayControlBit

def relayOff : Prog Control Unit := gpioWriteLow Control.portbLens relayControlBit

def dcMotorForward : Prog Control Unit := do
  gpioWriteHigh Control.portbLens dcMotorIn1Bit
  gpioWriteLow Control.portbLens dcMotorIn2Bit

def dcMotorStop : Prog Control Unit := do
  gpioWriteLow Control.portbLens dcMotorIn1Bit
  gpioWriteLow Control.portbLens dcMotorIn2Bit

/-! ## The stepper -/

def stepperIn1Mask : Byte := 1#8
def stepperIn2Mask : Byte := 2#8
def stepperIn3Mask : Byte := 4#8
def stepperIn4Mask : Byte := 8#8

/-- `stepper_write_phase`. -/
def stepperWritePhase (i : ℕ) (enabled : Byte) : Prog Control Unit :=
  if enabled ≠ 0 then gpioWriteHigh Control.portdLens i else gpioWriteLow Control.portdLens i

/-- `stepper_apply_state`. -/
def stepperApplyState (state : Byte) : Prog Control Unit := do
  stepperWritePhase stepperIn1Bit (state &&& stepperIn1Mask)
  stepperWritePhase stepperIn2Bit (state &&& stepperIn2Mask)
  stepperWritePhase stepperIn3Bit (state &&& stepperIn3Mask)
  stepperWritePhase stepperIn4Bit (state &&& stepperIn4Mask)

/-- The `switch` of `stepper_step_forward`. -/
def stepperState (stepIndex : Byte) : Byte :=
  match stepIndex.toNat with
  | 0 => stepperIn1Mask
  | 1 => stepperIn1Mask ||| stepperIn2Mask
  | 2 => stepperIn2Mask
  | 3 => stepperIn2Mask ||| stepperIn3Mask
  | 4 => stepperIn3Mask
  | 5 => stepperIn3Mask ||| stepperIn4Mask
  | 6 => stepperIn4Mask
  | _ => stepperIn4Mask ||| stepperIn1Mask

/-- `stepper_step_forward`. -/
def stepperStepForward : Prog Control Unit := do
  let stepIndex ← Prog.read Control.stepIndex
  stepperApplyState (stepperState stepIndex)
  Prog.write fun c =>
    let next := c.stepIndex + 1
    { c with stepIndex := if next ≥ 8 then 0 else next }

/-- `stepper_stop`. -/
def stepperStop : Prog Control Unit := do
  gpioWriteLow Control.portdLens stepperIn1Bit
  gpioWriteLow Control.portdLens stepperIn2Bit
  gpioWriteLow Control.portdLens stepperIn3Bit
  gpioWriteLow Control.portdLens stepperIn4Bit

/-! ## The servo -/

def servoMinPulseMs : Byte := 1#8
def servoMaxPulseMs : Byte := 2#8
def servoOneMsTicks : Word16 := 2000#16
def servoTwoMsTicks : Word16 := 4000#16
def servoFrameTicks : Word16 := 40000#16
def servoInitialCompareDelayTicks : Word16 := 2000#16

/-- `servo_set_pulse_ms`. -/
def servoSetPulseMs (pulseMs : Byte) : Prog Control Unit :=
  if pulseMs = servoMinPulseMs ∨ pulseMs = servoMaxPulseMs then
    Prog.write fun c => { c with servo := { c.servo with pulseMs := pulseMs } }
  else pure ()

/-- `TIMER1_COMPA_vect`. -/
def timer1CompaVect (c : Control) : Control :=
  if c.servo.signalHigh = 0 then
    let active := c.servo.pulseMs
    let interval := if active = servoMaxPulseMs then servoTwoMsTicks else servoOneMsTicks
    -- the pulse that begins here is latched until its frame is over
    { c with
      portb := c.portb ||| bit servoSignalBit
      servo := {
        c.servo with
        signalHigh := 1, activePulseMs := active, ocr1a := c.servo.ocr1a + interval } }
  else
    let interval :=
      if c.servo.activePulseMs = servoMaxPulseMs then servoFrameTicks - servoTwoMsTicks
      else servoFrameTicks - servoOneMsTicks
    { c with
      portb := c.portb &&& ~~~bit servoSignalBit
      servo := { c.servo with signalHigh := 0, ocr1a := c.servo.ocr1a + interval } }

/-! ## The echo capture -/

/-- `TIMER1_CAPT_vect`, on the value of `ICR1`. -/
def timer1CaptVect (captureTick : Word16) (c : Control) : Control :=
  match c.hcsr04.captureState with
  | .waitRising =>
    { c with
      hcsr04 := { c.hcsr04 with startTick := captureTick, captureState := .waitFalling }
      tccr1b := c.tccr1b &&& ~~~bit ices1 }
  | .waitFalling =>
    { c with
      hcsr04 := {
        c.hcsr04 with
        -- sixteen bits, whatever the counter overflowed between the edges
        pulseTicks := captureTick - c.hcsr04.startTick, resultReady := 1, captureState := .idle }
      timsk1 := c.timsk1 &&& ~~~bit icie1 }
  -- an edge that no measurement waits for
  | .idle => { c with timsk1 := c.timsk1 &&& ~~~bit icie1 }

/-- `hcsr04_start`. -/
def hcsr04Start : Prog Control Byte := do
  -- the `ATOMIC_BLOCK` is one access
  let started ← .access (fun c : Control =>
    if c.hcsr04.captureState = .idle then
      ((1 : Byte), { c with
        hcsr04 := {
          c.hcsr04 with pulseTicks := 0, resultReady := 0, captureState := .waitRising }
        tccr1b := bit ices1 ||| bit cs11
        timsk1 := c.timsk1 ||| bit icie1 })
    else (0, c)) .ret
  if started ≠ 0 then do
    gpioWriteHigh Control.portdLens hcsr04TriggerBit
    gpioWriteLow Control.portdLens hcsr04TriggerBit
    pure started
  else pure started

/-- `hcsr04_result_ready`. -/
def hcsr04ResultReady : Prog Control Byte := Prog.read fun c => c.hcsr04.resultReady

/-- `hcsr04_get_pulse_ticks`. -/
def hcsr04GetPulseTicks : Prog Control Word16 := Prog.read fun c => c.hcsr04.pulseTicks

/-- `hcsr04_abort`. -/
def hcsr04Abort : Prog Control Unit := do
  Prog.write fun c : Control => { c with
    timsk1 := c.timsk1 &&& ~~~bit icie1
    tccr1b := c.tccr1b ||| bit ices1
    hcsr04 := { c.hcsr04 with captureState := .idle, resultReady := 0 } }
  gpioWriteLow Control.portdLens hcsr04TriggerBit

/-! ## Safety and diagnostics -/

def safetyObstacleThresholdCm : Word16 := 20#16

/-- `safety_obstacle_is_critical`. -/
def safetyObstacleIsCritical (valid : Byte) (distanceCm : Word16) : Byte :=
  if valid ≠ 0 ∧ distanceCm > 0 ∧ distanceCm ≤ safetyObstacleThresholdCm then 1 else 0

/-- `diagnostics_record_fault`. -/
def diagnosticsRecordFault (fault : DiagFault) : Prog Control Unit :=
  Prog.write fun c =>
    -- a fault that is repeated is not counted again
    if fault = .none ∨ fault = c.lastFault then c
    else { c with lastFault := fault, faultCount := c.faultCount + 1 }

/-- `system_fsm_handle_event`, as the one access it makes. -/
def systemFsmEvent (event : SystemEvent) : Prog Control Unit :=
  Prog.write fun c => { c with systemState := systemFsmHandleEvent event c.systemState }

/-- `system_fsm_get_state`. -/
def systemFsmGetState : Prog Control SystemState := Prog.read Control.systemState

/-- `set_safe_outputs`. -/
def setSafeOutputs : Prog Control Unit := do
  stepperStop
  dcMotorStop
  relayOff
  servoSetPulseMs 1
  ledOff

end SentryCell
