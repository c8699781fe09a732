import SentryCell.Firmware.Tasks
import SentryCell.Lib.Frame
/-!
# What the local tasks can change

The drivers write the ports, the commanded pulse and the stepper's two
variables, and nothing else. A relation that allows for these
(`Drivable`) holds of every access of a task that only drives outputs;
`controlStep` and `sensorSafety` need it to allow for what they decide as
well.
-/

namespace SentryCell

open Foreground Word

/-- **A relation that no driver can break.** -/
structure Drivable (R : Control → Control → Prop) : Prop where
  refl : ∀ c, R c c
  portb : ∀ c r, R c (Control.portbLens.set r c)
  portd : ∀ c r, R c (Control.portdLens.set r c)
  pulse : ∀ c pulseMs, R c { c with servo := { c.servo with pulseMs := pulseMs } }
  stepIndex : ∀ c stepIndex, R c { c with stepIndex := stepIndex }
  lastStep : ∀ c lastStepMs, R c { c with lastStepMs := lastStepMs }

namespace Drivable

variable {R : Control → Control → Prop}

/-- A pin is driven by a read and a write of its port, so a frame that allows
the one write allows both of `gpio_write_high` and `gpio_write_low`. -/
theorem gpio (hR : Drivable R) {port : Lens Control Byte} (hport : ∀ c r, R c (port.set r c))
    (i : ℕ) : (gpioWriteHigh port i).Within R ∧ (gpioWriteLow port i).Within R :=
  ⟨.read_bind hR.refl fun r => Prog.within_write fun c => hport c (r ||| bit i),
    .read_bind hR.refl fun r => Prog.within_write fun c => hport c (r &&& ~~~bit i)⟩

theorem portbHigh (hR : Drivable R) (i : ℕ) : (gpioWriteHigh Control.portbLens i).Within R :=
  (hR.gpio hR.portb i).1

theorem portbLow (hR : Drivable R) (i : ℕ) : (gpioWriteLow Control.portbLens i).Within R :=
  (hR.gpio hR.portb i).2

theorem portdHigh (hR : Drivable R) (i : ℕ) : (gpioWriteHigh Control.portdLens i).Within R :=
  (hR.gpio hR.portd i).1

theorem portdLow (hR : Drivable R) (i : ℕ) : (gpioWriteLow Control.portdLens i).Within R :=
  (hR.gpio hR.portd i).2

theorem stepperStop (hR : Drivable R) : SentryCell.stepperStop.Within R :=
  (hR.portdLow _).bind fun _ => (hR.portdLow _).bind fun _ => (hR.portdLow _).bind fun _ =>
    hR.portdLow _

theorem stepperStepForward (hR : Drivable R) : SentryCell.stepperStepForward.Within R := by
  have hphase : ∀ i enabled, (stepperWritePhase i enabled).Within R := fun i enabled =>
    .ite (hR.portdHigh i) (hR.portdLow i)
  refine .read_bind hR.refl fun stepIndex => ?_
  refine Prog.Within.bind ?_ fun _ => Prog.within_write fun c => hR.stepIndex c _
  exact (hphase _ _).bind fun _ => (hphase _ _).bind fun _ => (hphase _ _).bind fun _ =>
    hphase _ _

theorem dcMotorStop (hR : Drivable R) : SentryCell.dcMotorStop.Within R :=
  (hR.portbLow _).bind fun _ => hR.portbLow _

theorem servoSetPulseMs (hR : Drivable R) (pulseMs : Byte) :
    (SentryCell.servoSetPulseMs pulseMs).Within R :=
  .ite (Prog.within_write fun c => hR.pulse c pulseMs) (Prog.within_ret _)

/-- `set_safe_outputs` is made of the drivers' own stops, and stays in
whatever frame they stay in. -/
theorem setSafeOutputs (hR : Drivable R) : SentryCell.setSafeOutputs.Within R :=
  hR.stepperStop.bind fun _ => hR.dcMotorStop.bind fun _ => (hR.portbLow _).bind fun _ =>
    (hR.servoSetPulseMs _).bind fun _ => hR.portbLow _

/-! ## The tasks -/

/-- The actuator's body stays in every frame in which its pins and its two
variables may be driven. -/
theorem actuatorService (hR : Drivable R) (nowMs : Word32) :
    (SentryCell.actuatorService nowMs).Within R := by
  refine .read_bind hR.refl fun state => .ite ?_ ?_
  · refine .read_bind hR.refl fun lastStepMs => .ite ?_ (Prog.within_ret _)
    exact .write_bind (fun c => hR.lastStep c nowMs) hR.stepperStepForward
  · exact hR.stepperStop.bind fun _ => Prog.within_write fun c => hR.lastStep c nowMs

/-- The outputs of the control task stay in the frame whichever of the states
it finds. -/
theorem controlOutputs (hR : Drivable R) (nowMs : Word32) (state : SystemState) :
    (SentryCell.controlOutputs nowMs state).Within R := by
  have hrest : ∀ led : Prog Control Unit, led.Within R →
      (relayOff.bind fun _ => SentryCell.dcMotorStop.bind fun _ =>
        (SentryCell.servoSetPulseMs 1).bind fun _ => led).Within R := fun led hled =>
    (hR.portbLow _).bind fun _ => hR.dcMotorStop.bind fun _ =>
      (hR.servoSetPulseMs 1).bind fun _ => hled
  rcases state with _ | _ | _ | _
  · exact hR.setSafeOutputs
  · exact hrest _ (hR.portbLow _)
  · exact (hR.portbHigh _).bind fun _ =>
      ((hR.portbHigh _).bind fun _ => hR.portbLow _).bind fun _ =>
        (hR.servoSetPulseMs 2).bind fun _ => hR.portbHigh _
  · refine hrest _ (.read_bind hR.refl fun lastFault => ?_)
    exact .ite (.ite (hR.portbHigh _) (hR.portbLow _)) (.ite (hR.portbHigh _) (hR.portbLow _))

/-- The button may arm and disarm, and start and stop. -/
theorem controlStep (hR : Drivable R)
    (harmed : ∀ c buttonArmed, R c { c with buttonArmed := buttonArmed })
    (hevent : ∀ c, R c { c with systemState := systemFsmHandleEvent .startStop c.systemState })
    (pind : Byte) (nowMs : Word32) : (SentryCell.controlStep pind nowMs).Within R := by
  refine .read_bind hR.refl fun state => Prog.Within.bind ?_ fun state => hR.controlOutputs nowMs _
  refine .ite ?_ (.ite ?_ ?_)
  · exact .write_bind (fun c => harmed c 0) (Prog.within_ret _)
  · exact .write_bind (fun c => harmed c 1) (Prog.within_ret _)
  · refine .read_bind hR.refl fun buttonArmed => .ite ?_ (Prog.within_ret _)
    refine .write_bind (fun c => harmed c 0) (.ite ?_ (Prog.within_ret _))
    exact .write_bind hevent (Prog.within_read hR.refl _)

/-- A pulse may be a fault. -/
theorem judgePulse (hR : Drivable R)
    (hfault : ∀ c fault count, R c { c with lastFault := fault, faultCount := count })
    (hevent : ∀ c, R c { c with systemState := systemFsmHandleEvent .criticalFault c.systemState })
    (pulseTicks : Word16) : (SentryCell.judgePulse pulseTicks).Within R := by
  have hrecord : (diagnosticsRecordFault .obstacleCritical).Within R := by
    refine Prog.within_write fun c => ?_
    split
    · exact hR.refl c
    · exact hfault c _ _
  refine .read_bind hR.refl fun state => .ite ?_ (Prog.within_ret _)
  exact hrecord.bind fun _ => Prog.within_write hevent

/-- The sensor task may measure, and stop for a fault. -/
theorem sensorSafety (hR : Drivable R)
    (hthermistor : ∀ c adc, R c { c with lastThermistorRaw := adc })
    (hactive : ∀ c active, R c { c with measurementActive := active })
    (hecho : ∀ c driver timsk1 tccr1b,
      R c { c with hcsr04 := driver, timsk1 := timsk1, tccr1b := tccr1b })
    (hfault : ∀ c fault count, R c { c with lastFault := fault, faultCount := count })
    (hevent : ∀ c, R c { c with systemState := systemFsmHandleEvent .criticalFault c.systemState })
    (adc : Word16) : (SentryCell.sensorSafety adc).Within R := by
  refine .write_bind (fun c => hthermistor c adc) (.read_bind hR.refl fun active => .ite ?_ ?_)
  · refine Prog.Within.bind ?_ fun started => Prog.within_write fun c => hactive c started
    refine Prog.Within.bind ⟨fun c => ?_, fun _ => Prog.within_ret _⟩ fun started => .ite ?_ ?_
    · dsimp only
      split
      · exact hecho c _ _ _
      · exact hR.refl c
    · exact (hR.portdHigh _).bind fun _ => (hR.portdLow _).bind fun _ => Prog.within_ret _
    · exact Prog.within_ret _
  · refine Prog.Within.bind ?_ fun _ => Prog.within_write fun c => hactive c 0
    refine .read_bind hR.refl fun ready => .ite ?_ ?_
    · exact .read_bind hR.refl fun pulseTicks => hR.judgePulse hfault hevent pulseTicks
    · exact .write_bind (fun c => hecho c _ _ _) (hR.portdLow _)

end Drivable

end SentryCell
