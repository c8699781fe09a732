import SentryCell.Firmware.Tasks
import SentryCell.Lib.Simulation
/-!
# The local tasks by themselves

The three local tasks and the echo capture are a machine of their own
(`localMachine`), with nothing of the UART, the protocol or the profilers.
`Control.masked` leaves out what the servo's compare interrupt owns, which
no local task depends on: a program is `Insensitive` if from states with
the same mask it makes the same steps.
-/

namespace SentryCell

open Foreground Word Machine

/-! ## The local machine -/

/-- **A dispatch of a task but the communication task**, with
`system_time_ms()` and the sample of the button where it takes them. -/
inductive LocalDispatch where
  | actuatorService (nowMs : Word32)
  | control (nowMs : Word32) (buttonPressed : Byte)
  | sensorSafety
  deriving DecidableEq, Repr

/-- The body of `control_task`, with the button sampled. -/
def controlSampled (nowMs : Word32) (buttonPressed : Byte) : Prog Control Unit := do
  let state ← systemFsmGetState
  let state ← controlButton buttonPressed state
  controlOutputs nowMs state

/-- What a local task does between its bookkeeping. -/
def LocalDispatch.body : LocalDispatch → Prog Control Unit
  | .actuatorService nowMs => SentryCell.actuatorService nowMs
  | .control nowMs buttonPressed => controlSampled nowMs buttonPressed
  | .sensorSafety => SentryCell.sensorSafety 0

/-- A local task. Its bookkeeping takes as many accesses as in the
firmware, and changes nothing here. -/
def LocalDispatch.program (d : LocalDispatch) : Prog Control Unit := do
  Prog.write fun c => c
  d.body
  Prog.write fun c => c
  Prog.write fun c => c

/-- **The control side by itself**: the local tasks, and the echo capture
with the value of `ICR1`. -/
def localMachine : Machine Control LocalDispatch Unit Word16 where
  task := LocalDispatch.program
  ready _ _ := true
  env captureTick c :=
    if isSet c.timsk1 icie1 then some (timer1CaptVect captureTick c) else none

abbrev LocalConfig := Config Control LocalDispatch Unit
abbrev LocalEvent := Event LocalDispatch Word16

/-! ## What the local tasks depend on -/

/-- The bits of `PORTB` that the compare interrupt leaves alone. -/
def unsignalled (r : Byte) : Byte := r &&& ~~~bit servoSignalBit

/-- **The control side without the servo signal** and its timer, and
without the thermistor, which no task looks at. -/
def Control.masked (c : Control) : Control :=
  { c with
    portb := unsignalled c.portb
    servo := ⟨c.servo.pulseMs, 0, 0, 0⟩
    lastThermistorRaw := 0 }

/-- The same control side, as far as the local tasks go. -/
def SameControl (c c' : Control) : Prop := c.masked = c'.masked

/-- Masking the signal bit out commutes with setting bits in a register. -/
theorem unsignalled_or (r x : Byte) : unsignalled (r ||| x) = unsignalled r ||| unsignalled x := by
  unfold unsignalled
  ext i
  simp [Bool.and_or_distrib_right]

/-- Masking the signal bit out commutes with clearing bits of a register. -/
theorem unsignalled_and (r x : Byte) : unsignalled (r &&& x) = unsignalled r &&& x := by
  unfold unsignalled
  ext i
  simp only [BitVec.getElem_and]
  rw [Bool.and_right_comm]

/-- The signal goes high or low. -/
theorem unsignalled_signal (r : Byte) :
    unsignalled (r ||| bit servoSignalBit) = unsignalled r ∧
      unsignalled (r &&& ~~~bit servoSignalBit) = unsignalled r := by
  revert r
  decide +kernel

/-- The compare handler touches the servo's signal and its phase only, and
that is what is masked. -/
theorem masked_timer1CompaVect (c : Control) : (timer1CompaVect c).masked = c.masked := by
  obtain ⟨hhigh, hlow⟩ := unsignalled_signal c.portb
  unfold timer1CompaVect Control.masked
  split
  · simp only [hhigh]
  · simp only [hlow]

@[simp] theorem masked_masked (c : Control) : c.masked.masked = c.masked := by
  have hr : unsignalled (unsignalled c.portb) = unsignalled c.portb := by
    unfold unsignalled
    rw [BitVec.and_assoc, BitVec.and_self]
  unfold Control.masked
  simp only [hr]

/-- Captures at the same tick keep two states the same but for the signal. -/
theorem SameControl.capt {c c' : Control} (h : SameControl c c') (captureTick : Word16) :
    SameControl (timer1CaptVect captureTick c) (timer1CaptVect captureTick c') := by
  have hcomm : ∀ c : Control,
      (timer1CaptVect captureTick c).masked = (timer1CaptVect captureTick c.masked).masked := by
    intro c
    have hmask := masked_masked c
    unfold timer1CaptVect
    rw [show c.masked.hcsr04 = c.hcsr04 from rfl]
    rcases c.hcsr04.captureState with _ | _ | _
    · exact congrArg (fun c' : Control => { c' with timsk1 := c.timsk1 &&& ~~~bit icie1 }) hmask.symm
    · exact congrArg (fun c' : Control => { c' with
        hcsr04 := { c.hcsr04 with startTick := captureTick, captureState := .waitFalling }
        tccr1b := c.tccr1b &&& ~~~bit ices1 }) hmask.symm
    · exact congrArg (fun c' : Control => { c' with
        hcsr04 := { c.hcsr04 with
          pulseTicks := captureTick - c.hcsr04.startTick, resultReady := 1, captureState := .idle }
        timsk1 := c.timsk1 &&& ~~~bit icie1 }) hmask.symm
  unfold SameControl at h ⊢
  rw [hcomm c, hcomm c', h]

/-! ## The local tasks -/

variable {α β : Type}

/-- **A program that does not depend on what is masked.** -/
def Insensitive (p : Prog Control α) : Prop := Prog.Sim SameControl Eq p p

/-- What does not look at the state is insensitive to the signal. -/
theorem insensitive_ret (a : α) : Insensitive (.ret a) := .ret rfl

/-- **Sequencing**: for every result of the first program, what follows has to
be insensitive too. -/
theorem Insensitive.bind {p : Prog Control α} {g : α → Prog Control β} (hp : Insensitive p)
    (hg : ∀ a, Insensitive (g a)) : Insensitive (p.bind g) :=
  Prog.Sim.bind hp fun a _ hab => hab ▸ hg a

/-- An access that the mask does not change. -/
theorem insensitive_access {f : Control → α × Control} {k : α → Prog Control β}
    (hresult : ∀ c, (f c).1 = (f c.masked).1)
    (hstate : ∀ c, (f c).2.masked = (f c.masked).2.masked) (hk : ∀ a, Insensitive (k a)) :
    Insensitive (.access f k) := by
  refine .access Eq (fun c c' h => ⟨?_, ?_⟩) fun a b hab => hab ▸ hk a
  · rw [hresult c, hresult c', h]
  · unfold SameControl
    rw [hstate c, hstate c', h]

/-- A read is insensitive if masking the signal out does not change what
is read. -/
theorem insensitive_read {f : Control → α} (h : ∀ c, f c = f c.masked) :
    Insensitive (Prog.read f) :=
  insensitive_access h (fun c => (masked_masked c).symm) fun a => insensitive_ret a

/-- A write is insensitive if what it leaves, but for the signal, is a matter
of what it found, but for the signal. -/
theorem insensitive_write {f : Control → Control} (h : ∀ c, (f c).masked = (f c.masked).masked) :
    Insensitive (Prog.write f) :=
  insensitive_access (fun _ => rfl) h fun _ => insensitive_ret _

/-- A branch on what both runs know is insensitive if both its sides are. -/
theorem Insensitive.ite {c : Prop} [Decidable c] {p q : Prog Control α} (hp : Insensitive p)
    (hq : Insensitive q) : Insensitive (if c then p else q) := by
  split
  · exact hp
  · exact hq

/-- **A pin driven through `PORTB`** may be read with the signal on it and
written back. -/
theorem insensitive_portb {f : Byte → Byte}
    (hf : ∀ r r', unsignalled r = unsignalled r' → unsignalled (f r) = unsignalled (f r')) :
    Insensitive ((Prog.read Control.portbLens.get).bind fun r =>
      Prog.write (Control.portbLens.set (f r))) := by
  refine .access (fun r r' => unsignalled r = unsignalled r') (fun c c' h => ⟨?_, h⟩) ?_
  · exact congrArg Control.portb h
  · intro r r' hr
    refine .access Eq (fun c c' h => ⟨rfl, ?_⟩) fun _ _ _ => .ret rfl
    show { c.masked with portb := unsignalled (f r) } =
      { c'.masked with portb := unsignalled (f r') }
    rw [h, hf r r' hr]

/-- A read-modify-write of PORTD is insensitive, for the signal is in the
other port. -/
theorem insensitive_portd (f : Byte → Byte) :
    Insensitive ((Prog.read Control.portdLens.get).bind fun r =>
      Prog.write (Control.portdLens.set (f r))) := by
  refine (insensitive_read fun c => rfl).bind fun r => insensitive_write fun c => ?_
  exact congrArg (fun c' : Control => { c' with portd := f r }) (masked_masked c).symm

/-- Setting a bit of PORTB goes on from a register in which the signal may
differ, and leaves it so. -/
theorem insensitive_portb_high (i : ℕ) : Insensitive (gpioWriteHigh Control.portbLens i) := by
  refine insensitive_portb fun r r' hr => ?_
  rw [unsignalled_or, unsignalled_or, hr]

theorem insensitive_portb_low (i : ℕ) : Insensitive (gpioWriteLow Control.portbLens i) := by
  refine insensitive_portb fun r r' hr => ?_
  rw [unsignalled_and, unsignalled_and, hr]

theorem insensitive_portd_high (i : ℕ) : Insensitive (gpioWriteHigh Control.portdLens i) :=
  insensitive_portd fun r => r ||| bit i

theorem insensitive_portd_low (i : ℕ) : Insensitive (gpioWriteLow Control.portdLens i) :=
  insensitive_portd fun r => r &&& ~~~bit i

theorem insensitive_servoSetPulseMs (pulseMs : Byte) : Insensitive (servoSetPulseMs pulseMs) := by
  refine .ite (insensitive_write fun c => ?_) (insensitive_ret ())
  exact congrArg (fun c' : Control => { c' with servo := ⟨pulseMs, 0, 0, 0⟩ })
    (masked_masked c).symm

theorem insensitive_systemFsmEvent (event : SystemEvent) : Insensitive (systemFsmEvent event) := by
  refine insensitive_write fun c => ?_
  exact congrArg (fun c' : Control => { c' with
    systemState := systemFsmHandleEvent event c.systemState }) (masked_masked c).symm

theorem insensitive_systemFsmGetState : Insensitive systemFsmGetState :=
  insensitive_read fun _ => rfl

/-! ### `actuator_service_task` -/

theorem insensitive_stepperStop : Insensitive stepperStop :=
  (insensitive_portd_low _).bind fun _ => (insensitive_portd_low _).bind fun _ =>
    (insensitive_portd_low _).bind fun _ => insensitive_portd_low _

theorem insensitive_stepperWritePhase (i : ℕ) (enabled : Byte) :
    Insensitive (stepperWritePhase i enabled) :=
  .ite (insensitive_portd_high i) (insensitive_portd_low i)

theorem insensitive_stepperStepForward : Insensitive stepperStepForward := by
  have hphase := insensitive_stepperWritePhase
  refine (insensitive_read fun _ => rfl).bind fun stepIndex => ?_
  refine ((hphase _ _).bind fun _ => (hphase _ _).bind fun _ => (hphase _ _).bind fun _ =>
    hphase _ _).bind fun _ => insensitive_write fun c => ?_
  exact congrArg (fun c' : Control => { c' with
    stepIndex := if c.stepIndex + 1 ≥ 8 then 0 else c.stepIndex + 1 }) (masked_masked c).symm

/-- The actuator's body reads its own variables and the state machine, and
drives PORTD. -/
theorem insensitive_actuatorService (nowMs : Word32) : Insensitive (actuatorService nowMs) := by
  have hwrite : Insensitive (Prog.write fun c => { c with lastStepMs := nowMs }) :=
    insensitive_write fun c =>
      congrArg (fun c' : Control => { c' with lastStepMs := nowMs }) (masked_masked c).symm
  refine insensitive_systemFsmGetState.bind fun state => .ite ?_ ?_
  · refine (insensitive_read fun _ => rfl).bind fun lastStepMs => .ite ?_ (insensitive_ret ())
    exact hwrite.bind fun _ => insensitive_stepperStepForward
  · exact insensitive_stepperStop.bind fun _ => hwrite

/-! ### `control_task` -/

theorem insensitive_dcMotorStop : Insensitive dcMotorStop :=
  (insensitive_portb_low _).bind fun _ => insensitive_portb_low _

theorem insensitive_applySafeStateLed (nowMs : Word32) :
    Insensitive (applySafeStateLed nowMs) := by
  have hled : ∀ (c : Prop) [Decidable c], Insensitive (if c then ledOn else ledOff) :=
    fun c _ => .ite (insensitive_portb_high _) (insensitive_portb_low _)
  exact (insensitive_read fun _ => rfl).bind fun lastFault => .ite (hled _) (hled _)

/-- What the button's sample does to the latch and to the state machine is the
same in both runs. -/
theorem insensitive_controlButton (buttonPressed : Byte) (state : SystemState) :
    Insensitive (controlButton buttonPressed state) := by
  have hwrite : ∀ b : Byte, Insensitive (Prog.write fun c => { c with buttonArmed := b }) :=
    fun b => insensitive_write fun c =>
      congrArg (fun c' : Control => { c' with buttonArmed := b }) (masked_masked c).symm
  refine .ite ((hwrite 0).bind fun _ => insensitive_ret _) ?_
  refine .ite ((hwrite 1).bind fun _ => insensitive_ret _) ?_
  refine (insensitive_read fun _ => rfl).bind fun buttonArmed => .ite ?_ (insensitive_ret _)
  refine (hwrite 0).bind fun _ => .ite ?_ (insensitive_ret _)
  exact (insensitive_systemFsmEvent _).bind fun _ => insensitive_systemFsmGetState

/-- The outputs that the control task drives do not depend on the signal, in
any of the states. -/
theorem insensitive_controlOutputs (nowMs : Word32) (state : SystemState) :
    Insensitive (controlOutputs nowMs state) := by
  have hidle : ∀ led : Prog Control Unit, Insensitive led →
      Insensitive (relayOff.bind fun _ => dcMotorStop.bind fun _ =>
        (servoSetPulseMs 1).bind fun _ => led) := fun led hled =>
    (insensitive_portb_low _).bind fun _ => insensitive_dcMotorStop.bind fun _ =>
      (insensitive_servoSetPulseMs 1).bind fun _ => hled
  rcases state with _ | _ | _ | _
  · exact insensitive_stepperStop.bind fun _ => insensitive_dcMotorStop.bind fun _ =>
      (insensitive_portb_low _).bind fun _ => (insensitive_servoSetPulseMs 1).bind fun _ =>
        insensitive_portb_low _
  · exact hidle _ (insensitive_portb_low _)
  · exact (insensitive_portb_high _).bind fun _ =>
      ((insensitive_portb_high _).bind fun _ => insensitive_portb_low _).bind fun _ =>
        (insensitive_servoSetPulseMs 2).bind fun _ => insensitive_portb_high _
  · exact hidle _ (insensitive_applySafeStateLed nowMs)

theorem insensitive_controlSampled (nowMs : Word32) (buttonPressed : Byte) :
    Insensitive (controlSampled nowMs buttonPressed) :=
  insensitive_systemFsmGetState.bind fun _ => (insensitive_controlButton _ _).bind fun _ =>
    insensitive_controlOutputs nowMs _

/-! ### `sensor_safety_task` -/

theorem insensitive_hcsr04Start : Insensitive hcsr04Start := by
  refine Insensitive.bind (insensitive_access ?_ ?_ insensitive_ret) fun started =>
    .ite ?_ (insensitive_ret _)
  · intro c
    rw [show c.masked.hcsr04 = c.hcsr04 from rfl]
    split <;> rfl
  · intro c
    rw [show c.masked.hcsr04 = c.hcsr04 from rfl]
    split
    · exact congrArg (fun c' : Control => { c' with
        hcsr04 := { c.hcsr04 with pulseTicks := 0, resultReady := 0, captureState := .waitRising }
        tccr1b := bit ices1 ||| bit cs11
        timsk1 := c.timsk1 ||| bit icie1 }) (masked_masked c).symm
    · exact (masked_masked c).symm
  · exact (insensitive_portd_high _).bind fun _ => (insensitive_portd_low _).bind fun _ =>
      insensitive_ret _

/-- The verdict on a pulse is about the pulse, and does not see the signal. -/
theorem insensitive_judgePulse (pulseTicks : Word16) : Insensitive (judgePulse pulseTicks) := by
  refine insensitive_systemFsmGetState.bind fun state => .ite ?_ (insensitive_ret ())
  refine Insensitive.bind (insensitive_write fun c => ?_) fun _ => insensitive_systemFsmEvent _
  rw [show c.masked.lastFault = c.lastFault from rfl]
  split
  · exact (masked_masked c).symm
  · exact congrArg (fun c' : Control => { c' with
      lastFault := .obstacleCritical, faultCount := c.faultCount + 1 }) (masked_masked c).symm

theorem insensitive_hcsr04Abort : Insensitive hcsr04Abort := by
  refine Insensitive.bind (insensitive_write fun c => ?_) fun _ => insensitive_portd_low _
  exact congrArg (fun c' : Control => { c' with
    timsk1 := c.timsk1 &&& ~~~bit icie1
    tccr1b := c.tccr1b ||| bit ices1
    hcsr04 := { c.hcsr04 with captureState := .idle, resultReady := 0 } }) (masked_masked c).symm

/-- The thermistor's reading is masked, so that any two will do. -/
theorem sim_sensorSafety (adc adc' : Word16) :
    Prog.Sim SameControl Eq (sensorSafety adc) (sensorSafety adc') := by
  have hactive : ∀ b : Byte,
      Insensitive (Prog.write fun c => { c with measurementActive := b }) :=
    fun b => insensitive_write fun c =>
      congrArg (fun c' : Control => { c' with measurementActive := b }) (masked_masked c).symm
  refine Prog.Sim.bind (Q := fun _ _ => True) (Prog.sim_write fun c c' h => h) fun _ _ _ => ?_
  refine Insensitive.bind (insensitive_read fun _ => rfl) fun measurementActive => .ite ?_ ?_
  · exact insensitive_hcsr04Start.bind fun started => hactive started
  · refine Insensitive.bind (p := finishMeasurement) ?_ fun _ => hactive 0
    refine (insensitive_read fun _ => rfl).bind fun ready => .ite ?_ insensitive_hcsr04Abort
    exact (insensitive_read fun _ => rfl).bind fun pulseTicks => insensitive_judgePulse pulseTicks

end SentryCell
