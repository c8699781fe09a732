import SentryCell.Firmware.Communication
/-!
# The safe state over whole runs

`SAFE_STATE` is latched, and the tasks that own the actuators disarm them.
`Outputs` is what the control side shows to the argument: no interrupt
changes it, so between two accesses of a task it stays what the task left
(`Drives`). The guarantee of every access is `Outputs.Latches`, and what
the control and the actuator task leave behind is `Task.Leaves`.
-/

namespace SentryCell

open Foreground Word Machine

/-! ## What the interrupts leave alone -/

/-- **The outputs**: the pins but the servo signal, the servo command, the
system state and the retained fault. -/
structure Outputs where
  portb : ℕ → Bool
  portd : ℕ → Bool
  pulseMs : Byte
  state : SystemState
  fault : DiagFault

def Control.outputs (c : Control) : Outputs where
  portb := Function.update (isSet c.portb) servoSignalBit false
  portd := isSet c.portd
  pulseMs := c.servo.pulseMs
  state := c.systemState
  fault := c.lastFault

namespace Outputs

def setPortb (v : Outputs) (i : ℕ) (on : Bool) : Outputs :=
  { v with portb := Function.update v.portb i on }

def setPortd (v : Outputs) (i : ℕ) (on : Bool) : Outputs :=
  { v with portd := Function.update v.portd i on }

section

variable (v : Outputs) (i : ℕ) (on : Bool)

@[simp] theorem portb_setPortb : (v.setPortb i on).portb = Function.update v.portb i on := rfl
@[simp] theorem portd_setPortb : (v.setPortb i on).portd = v.portd := rfl
@[simp] theorem pulseMs_setPortb : (v.setPortb i on).pulseMs = v.pulseMs := rfl
@[simp] theorem state_setPortb : (v.setPortb i on).state = v.state := rfl
@[simp] theorem fault_setPortb : (v.setPortb i on).fault = v.fault := rfl
@[simp] theorem portb_setPortd : (v.setPortd i on).portb = v.portb := rfl
@[simp] theorem portd_setPortd : (v.setPortd i on).portd = Function.update v.portd i on := rfl
@[simp] theorem pulseMs_setPortd : (v.setPortd i on).pulseMs = v.pulseMs := rfl
@[simp] theorem state_setPortd : (v.setPortd i on).state = v.state := rfl
@[simp] theorem fault_setPortd : (v.setPortd i on).fault = v.fault := rfl

end

/-- Relay on, motor forward, and 2 ms. -/
structure Driven (v : Outputs) : Prop where
  relay : v.portb relayControlBit = true
  motorIn1 : v.portb dcMotorIn1Bit = true
  motorIn2 : v.portb dcMotorIn2Bit = false
  pulse : v.pulseMs = 2#8

/-- Relay off, motor inputs low, and 1 ms. -/
structure Disarmed (v : Outputs) : Prop where
  relay : v.portb relayControlBit = false
  motorIn1 : v.portb dcMotorIn1Bit = false
  motorIn2 : v.portb dcMotorIn2Bit = false
  pulse : v.pulseMs = 1#8

/-- All four phases low. -/
def StepperOff (v : Outputs) : Prop :=
  ∀ i ∈ [stepperIn1Bit, stepperIn2Bit, stepperIn3Bit, stepperIn4Bit], v.portd i = false

/-- The outputs of the control task follow the state. -/
def Follows (v : Outputs) : Prop := if v.state = .active then v.Driven else v.Disarmed

/-- The safe state has its fault retained. -/
def FaultRetained (v : Outputs) : Prop := v.state = .safeState ↔ v.fault = .obstacleCritical

/-- **What no access undoes**: the safe state, and in it the outputs that
are disarmed. -/
def Latches (v v' : Outputs) : Prop :=
  v.state = .safeState →
    v'.state = .safeState ∧ (v.Disarmed → v'.Disarmed) ∧ (v.StepperOff → v'.StepperOff)

variable {v v' v'' : Outputs} {i : ℕ} {on : Bool}

theorem Latches.refl (v : Outputs) : Latches v v := fun h => ⟨h, id, id⟩

theorem Latches.trans (h : Latches v v') (h' : Latches v' v'') : Latches v v'' := by
  intro hs
  obtain ⟨hs', hd, ho⟩ := h hs
  obtain ⟨hs'', hd', ho'⟩ := h' hs'
  exact ⟨hs'', hd' ∘ hd, ho' ∘ ho⟩

/-- Outside `SAFE_STATE` the latch asks for nothing. -/
theorem latches_of_ne (h : v.state ≠ .safeState) : Latches v v' := fun hs => absurd hs h

/-- A pin of `PORTB` that goes low, or is not an actuator's. -/
theorem latches_setPortb (h : on = true → i = ledBit) : Latches v (v.setPortb i on) := by
  have hkeep : ∀ j, j ≠ ledBit → v.portb j = false → (v.setPortb i on).portb j = false := by
    intro j hj hv
    by_cases hij : j = i
    · subst hij
      rw [portb_setPortb, Function.update_self, Bool.eq_false_iff]
      exact fun hon => hj (h hon)
    · rw [portb_setPortb, Function.update_of_ne hij]
      exact hv
  refine fun hs => ⟨hs, fun hd => ?_, id⟩
  exact ⟨hkeep _ (by decide) hd.relay, hkeep _ (by decide) hd.motorIn1,
    hkeep _ (by decide) hd.motorIn2, hd.pulse⟩

/-- A pin of `PORTD` that goes low, or is not the stepper's. -/
theorem latches_setPortd (h : on = true → i = hcsr04TriggerBit) :
    Latches v (v.setPortd i on) := by
  refine fun hs => ⟨hs, fun hd => ⟨hd.relay, hd.motorIn1, hd.motorIn2, hd.pulse⟩, ?_⟩
  intro ho j hj
  by_cases hij : j = i
  · subst hij
    rw [portd_setPortd, Function.update_self, Bool.eq_false_iff]
    intro hon
    rw [h hon] at hj
    revert hj
    decide
  · rw [portd_setPortd, Function.update_of_ne hij]
    exact ho j hj

/-- The commanded pulse is no output that the latch speaks of. -/
theorem latches_pulse : Latches v { v with pulseMs := 1 } :=
  fun hs => ⟨hs, fun hd => ⟨hd.relay, hd.motorIn1, hd.motorIn2, rfl⟩, id⟩

end Outputs

/-! ## Accesses, through what they show -/

/-- The control side among its interrupts. -/
def outputContract : Contract Control where
  rely c c' := c'.outputs = c.outputs
  guar c c' := c.outputs.Latches c'.outputs
  inv _ := True

/-- The handlers leave all the outputs alone but the servo's signal, which is
not among them. -/
theorem stable_outputs (P : Outputs → Prop) : Stable outputContract fun c => P c.outputs := by
  intro c c' h hr
  rw [show c'.outputs = c.outputs from hr]
  exact h

/-- **A program drives the outputs** from `v` to `v'`. -/
def Drives (p : Prog Control Unit) (v v' : Outputs) : Prop :=
  Triple outputContract (fun c => c.outputs = v) p fun _ c => c.outputs = v'

section

variable {α : Type} {p q : Prog Control Unit} {v v' v'' : Outputs} {P : Outputs → Prop}
variable {Q : α → Control → Prop} {i : ℕ} {on : Bool}

/-- Two drives in a row drive from the first outputs to the last. -/
theorem Drives.bind (hp : Drives p v v') (hq : Drives q v' v'') :
    Drives (p.bind fun _ => q) v v'' := Triple.bind hp fun _ => hq

/-- A triple from every value of the outputs. -/
theorem triple_of_outputs {p : Prog Control α}
    (h : ∀ v, P v → Triple outputContract (fun c => c.outputs = v) p Q) :
    Triple outputContract (fun c => P c.outputs) p Q :=
  fun c hc n => h c.outputs hc c rfl n

/-- What a program that drives the outputs leaves. -/
theorem Drives.triple (h : Drives p v v') (hv : P v') :
    Triple outputContract (fun c => c.outputs = v) p fun _ c => P c.outputs :=
  h.conseq (fun _ hc => hc) fun _ c hc => by rw [hc]; exact hv

/-- A value read is any value. -/
theorem read_any {β : Type} {f : Control → β} {g : β → Prog Control α}
    (hg : ∀ b, Triple outputContract (fun c => P c.outputs) (g b) Q) :
    Triple outputContract (fun c => P c.outputs) ((Prog.read f).bind g) Q :=
  Triple.read_bind (B := fun _ c => P c.outputs) (stable_outputs P) (fun _ _ => trivial)
    (fun c => Outputs.Latches.refl c.outputs) (fun _ hc => hc) hg

/-- A write that shows as a change from `v` to `v'`. -/
theorem drives_write {f : Control → Control} (hf : ∀ c, c.outputs = v → (f c).outputs = v')
    (hl : v.Latches v') : Drives (Prog.write f) v v' := by
  refine Triple.write (stable_outputs (· = v)) (fun _ _ => trivial) fun c hc => ?_
  show c.outputs.Latches (f c).outputs ∧ (f c).outputs = v'
  rw [hf c hc, hc]
  exact ⟨hl, rfl⟩

/-- A write that does not show in the outputs drives nothing. -/
theorem drives_hidden {f : Control → Control} (hf : ∀ c, (f c).outputs = c.outputs) :
    Drives (Prog.write f) v v :=
  drives_write (fun c hc => (hf c).trans hc) (.refl v)

/-- **A pin of `PORTB`**: the compare handler may come between the two
accesses, and changes nothing but its own pin. -/
theorem drives_portb {f : Byte → Byte}
    (hf : ∀ r, isSet (f r) = Function.update (isSet r) i on) (hi : i ≠ servoSignalBit)
    (hl : v.Latches (v.setPortb i on)) :
    Drives ((Prog.read Control.portbLens.get).bind fun r =>
      Prog.write (Control.portbLens.set (f r))) v (v.setPortb i on) := by
  refine Triple.read_bind (B := fun r c => c.outputs = v ∧
    v.portb = Function.update (isSet r) servoSignalBit false) (stable_outputs (· = v))
    (fun _ _ => trivial) (fun c => .refl c.outputs) ?_ fun r => ?_
  · rintro c rfl
    exact ⟨rfl, rfl⟩
  · refine Triple.write ((stable_outputs (· = v)).and (.const _)) (fun _ _ => trivial) ?_
    rintro c ⟨rfl, hr⟩
    have hset : (Control.portbLens.set (f r) c).outputs = c.outputs.setPortb i on := by
      have hpins : Function.update (isSet (f r)) servoSignalBit false =
          Function.update c.outputs.portb i on := by
        rw [hf, hr, Function.update_comm hi]
      show ({ c.outputs with portb := _ } : Outputs) = _
      rw [Outputs.setPortb, ← hpins]
      rfl
    show c.outputs.Latches _ ∧ _
    rw [hset]
    exact ⟨hl, rfl⟩

/-- A pin of `PORTD`, which no interrupt writes. -/
theorem drives_portd {f : Byte → Byte}
    (hf : ∀ r, isSet (f r) = Function.update (isSet r) i on)
    (hl : v.Latches (v.setPortd i on)) :
    Drives ((Prog.read Control.portdLens.get).bind fun r =>
      Prog.write (Control.portdLens.set (f r))) v (v.setPortd i on) := by
  refine Triple.read_bind (B := fun r c => c.outputs = v ∧ v.portd = isSet r)
    (stable_outputs (· = v)) (fun _ _ => trivial) (fun c => .refl c.outputs) ?_ fun r => ?_
  · rintro c rfl
    exact ⟨rfl, rfl⟩
  · refine Triple.write ((stable_outputs (· = v)).and (.const _)) (fun _ _ => trivial) ?_
    rintro c ⟨rfl, hr⟩
    have hset : (Control.portdLens.set (f r) c).outputs = c.outputs.setPortd i on := by
      have hpins : isSet (f r) = Function.update c.outputs.portd i on := by rw [hf, hr]
      show ({ c.outputs with portd := _ } : Outputs) = _
      rw [Outputs.setPortd, ← hpins]
      rfl
    show c.outputs.Latches _ ∧ _
    rw [hset]
    exact ⟨hl, rfl⟩

/-- A pin of PORTB goes low from any outputs, the servo's own pin apart. -/
theorem drives_portb_low (hi : i < 8) (hs : i ≠ servoSignalBit) :
    Drives (gpioWriteLow Control.portbLens i) v (v.setPortb i false) :=
  drives_portb (isSet_and_not_bit_eq hi) hs (Outputs.latches_setPortb fun h => by cases h)

/-- A pin of PORTB may go high where the latch allows it. -/
theorem drives_portb_high (hi : i < 8) (hs : i ≠ servoSignalBit)
    (hl : v.Latches (v.setPortb i true)) :
    Drives (gpioWriteHigh Control.portbLens i) v (v.setPortb i true) :=
  drives_portb (isSet_or_bit_eq hi) hs hl

theorem drives_portd_low (hi : i < 8) :
    Drives (gpioWriteLow Control.portdLens i) v (v.setPortd i false) :=
  drives_portd (isSet_and_not_bit_eq hi) (Outputs.latches_setPortd fun h => by cases h)

/-- A pin of PORTD may go high where the latch allows it. -/
theorem drives_portd_high (hi : i < 8) (hl : v.Latches (v.setPortd i true)) :
    Drives (gpioWriteHigh Control.portdLens i) v (v.setPortd i true) :=
  drives_portd (isSet_or_bit_eq hi) hl

/-! ## The drivers -/

theorem drives_ledOff : Drives ledOff v (v.setPortb ledBit false) :=
  drives_portb_low (by decide) (by decide)

theorem drives_ledOn : Drives ledOn v (v.setPortb ledBit true) :=
  drives_portb_high (by decide) (by decide) (Outputs.latches_setPortb fun _ => rfl)

theorem drives_relayOff : Drives relayOff v (v.setPortb relayControlBit false) :=
  drives_portb_low (by decide) (by decide)

theorem drives_dcMotorStop :
    Drives dcMotorStop v ((v.setPortb dcMotorIn1Bit false).setPortb dcMotorIn2Bit false) :=
  (drives_portb_low (by decide) (by decide)).bind (drives_portb_low (by decide) (by decide))

theorem drives_servoMin : Drives (servoSetPulseMs 1) v { v with pulseMs := 1 } :=
  drives_write (fun _ hc => by rw [← hc]; rfl) Outputs.latches_pulse

theorem drives_systemFsmEvent {event : SystemEvent}
    (hl : v.Latches { v with state := systemFsmHandleEvent event v.state }) :
    Drives (systemFsmEvent event) v { v with state := systemFsmHandleEvent event v.state } :=
  drives_write (fun _ hc => by rw [← hc]; rfl) hl

/-- The phases low, one after another. -/
def Outputs.stopped (v : Outputs) : Outputs :=
  (((v.setPortd stepperIn1Bit false).setPortd stepperIn2Bit false).setPortd
    stepperIn3Bit false).setPortd stepperIn4Bit false

/-- All four coils are switched off, one write after another. -/
theorem drives_stepperStop : Drives stepperStop v v.stopped :=
  (drives_portd_low (by decide)).bind <| (drives_portd_low (by decide)).bind <|
    (drives_portd_low (by decide)).bind (drives_portd_low (by decide))

theorem Outputs.stepperOff_stopped (v : Outputs) : v.stopped.StepperOff := by
  simp [Outputs.StepperOff, Outputs.stopped, Function.update_apply, stepperIn1Bit,
    stepperIn2Bit, stepperIn3Bit, stepperIn4Bit]

/-- The relay, motor and servo at rest. -/
def Outputs.atRest (v : Outputs) : Outputs :=
  { ((v.setPortb relayControlBit false).setPortb dcMotorIn1Bit false).setPortb dcMotorIn2Bit
      false with pulseMs := 1 }

/-- Outputs at rest are disarmed, whatever the LED shows. -/
theorem Outputs.disarmed_atRest (v : Outputs) (led : Bool) :
    (v.atRest.setPortb ledBit led).Disarmed := by
  constructor <;>
    simp [Outputs.atRest, relayControlBit, dcMotorIn1Bit, dcMotorIn2Bit, ledBit]

/-- What `IDLE` and `SAFE_STATE` share in the control task: the relay off, the
motor stopped, the servo at its least pulse, and then the LED. -/
theorem drives_rest {led : Bool} {q : Prog Control Unit}
    (hq : Drives q v.atRest (v.atRest.setPortb ledBit led)) :
    Drives (relayOff.bind fun _ => dcMotorStop.bind fun _ => (servoSetPulseMs 1).bind fun _ => q)
      v (v.atRest.setPortb ledBit led) :=
  drives_relayOff.bind <| drives_dcMotorStop.bind <| drives_servoMin.bind hq

/-- `set_safe_outputs` ends with every driver at rest, from any outputs. -/
theorem drives_setSafeOutputs :
    Drives setSafeOutputs v (({ (((v.stopped.setPortb dcMotorIn1Bit false).setPortb
      dcMotorIn2Bit false).setPortb relayControlBit false) with pulseMs := 1 } :
        Outputs).setPortb ledBit false) :=
  drives_stepperStop.bind <| drives_dcMotorStop.bind <| drives_relayOff.bind <|
    drives_servoMin.bind drives_ledOff

/-! ## `control_task` -/

/-- The outputs follow the state if they are driven in `ACTIVE` and disarmed
outside it. -/
theorem follows_iff : v.Follows ↔ (v.state = .active → v.Driven) ∧
    (v.state ≠ .active → v.Disarmed) := by
  unfold Outputs.Follows
  by_cases h : v.state = .active <;> simp [h]

/-- The lamp of the safe state shows nothing else. -/
theorem triple_applySafeStateLed (nowMs : Word32) (hv : ∀ led, P (v.setPortb ledBit led)) :
    Triple outputContract (fun c => c.outputs = v) (applySafeStateLed nowMs)
      fun _ c => P c.outputs := by
  have hon : Triple outputContract (fun c => c.outputs = v) ledOn fun _ c => P c.outputs :=
    drives_ledOn.triple (hv true)
  have hoff : Triple outputContract (fun c => c.outputs = v) ledOff fun _ c => P c.outputs :=
    drives_ledOff.triple (hv false)
  refine read_any (P := (· = v)) fun lastFault => ?_
  split
  · split
    · exact hon
    · exact hoff
  · split
    · exact hon
    · exact hoff

/-- **The outputs after the `switch`** are those of the state. -/
theorem triple_controlOutputs (nowMs : Word32) (hf : v.FaultRetained) :
    Triple outputContract (fun c => c.outputs = v) (controlOutputs nowMs v.state)
      fun _ c => c.outputs.FaultRetained ∧ c.outputs.Follows := by
  have hrest : v.state ≠ .active → ∀ w : Outputs, w.state = v.state → w.fault = v.fault →
      w.Disarmed → w.FaultRetained ∧ w.Follows := by
    intro hne w hs hw hd
    refine ⟨?_, follows_iff.mpr ⟨fun h => absurd (hs.symm.trans h) hne, fun _ => hd⟩⟩
    rw [Outputs.FaultRetained, hs, hw]
    exact hf
  rcases hs : v.state with _ | _ | _ | _
  · have hne : v.state ≠ .active := by rw [hs]; decide
    refine drives_setSafeOutputs.triple (P := fun w => w.FaultRetained ∧ w.Follows)
      (hrest hne _ rfl rfl ?_)
    constructor <;> simp [Outputs.stopped, relayControlBit, dcMotorIn1Bit, dcMotorIn2Bit, ledBit]
  · have hne : v.state ≠ .active := by rw [hs]; decide
    exact (drives_rest drives_ledOff).triple (P := fun w => w.FaultRetained ∧ w.Follows)
      (hrest hne _ rfl rfl (v.disarmed_atRest false))
  · -- in `ACTIVE` nothing is latched
    have hne : ∀ {w w' : Outputs}, w.state = v.state → w.Latches w' := by
      intro w w' hw
      refine Outputs.latches_of_ne ?_
      rw [hw, hs]
      decide
    have hrelay : Drives relayOn v _ := drives_portb_high (by decide) (by decide) (hne rfl)
    have hin1 : Drives (gpioWriteHigh Control.portbLens dcMotorIn1Bit) _ _ :=
      drives_portb_high (v := v.setPortb relayControlBit true) (by decide) (by decide) (hne rfl)
    let w := ((v.setPortb relayControlBit true).setPortb dcMotorIn1Bit true).setPortb
      dcMotorIn2Bit false
    have hservo : Drives (servoSetPulseMs 2) w { w with pulseMs := 2 } :=
      drives_write (fun _ hc => by rw [← hc]; rfl) (hne rfl)
    have hactive := hrelay.bind ((hin1.bind
      (drives_portb_low (i := dcMotorIn2Bit) (by decide) (by decide))).bind
      (hservo.bind drives_ledOn))
    refine hactive.triple (P := fun w => w.FaultRetained ∧ w.Follows) ⟨hf, follows_iff.mpr ?_⟩
    refine ⟨fun _ => ?_, fun h => absurd hs h⟩
    constructor <;> simp [w, relayControlBit, dcMotorIn1Bit, dcMotorIn2Bit, ledBit]
  · have hne : v.state ≠ .active := by rw [hs]; decide
    refine Triple.bind drives_relayOff fun _ => Triple.bind drives_dcMotorStop fun _ =>
      Triple.bind drives_servoMin fun _ =>
        triple_applySafeStateLed (v := v.atRest) (P := fun w => w.FaultRetained ∧ w.Follows)
          nowMs fun led => ?_
    exact hrest hne _ rfl rfl (v.disarmed_atRest led)

/-- The button moves the state between `IDLE` and `ACTIVE` alone. -/
theorem triple_controlButton (buttonPressed : Byte) (hf : v.FaultRetained) :
    Triple outputContract (fun c => c.outputs = v) (controlButton buttonPressed v.state)
      fun state c => c.outputs.FaultRetained ∧ c.outputs.state = state := by
  have hsame : ∀ {p : Prog Control Unit}, Drives p v v →
      Triple outputContract (fun c => c.outputs = v) (p.bind fun _ => .ret v.state)
        fun state c => c.outputs.FaultRetained ∧ c.outputs.state = state := by
    intro p hp
    refine Triple.bind hp fun _ => Triple.ret ?_
    rintro c rfl
    exact ⟨hf, rfl⟩
  unfold controlButton
  split
  · exact hsame (drives_hidden fun _ => rfl)
  split
  · exact hsame (drives_hidden fun _ => rfl)
  refine read_any (P := (· = v)) fun buttonArmed => ?_
  split
  · refine Triple.bind (drives_hidden fun _ => rfl) fun _ => ?_
    split
    · rename_i hns _ _ _ hs
      have hfault : v.fault ≠ .obstacleCritical := mt hf.mpr hns
      have hevent : systemFsmHandleEvent .startStop v.state ≠ .safeState := by
        rcases hs with hs | hs <;> rw [hs] <;> decide
      refine Triple.bind (drives_systemFsmEvent (Outputs.latches_of_ne hns)) fun _ => ?_
      refine Triple.read (stable_outputs (· = _)) (fun _ _ => trivial)
        (fun c => .refl c.outputs) fun c hc => ⟨?_, rfl⟩
      rw [hc]
      exact ⟨fun h => absurd h hevent, fun h => absurd h hfault⟩
    · refine Triple.ret ?_
      rintro c rfl
      exact ⟨hf, rfl⟩
  · refine Triple.ret ?_
    rintro c rfl
    exact ⟨hf, rfl⟩

/-- **`control_task`** leaves the outputs of the state. -/
theorem triple_controlStep (pind : Byte) (nowMs : Word32) :
    Triple outputContract (fun c => c.outputs.FaultRetained) (controlStep pind nowMs)
      fun _ c => c.outputs.FaultRetained ∧ c.outputs.Follows := by
  refine triple_of_outputs fun v hv => ?_
  refine Triple.read_bind (B := fun state c => c.outputs = v ∧ state = v.state)
    (stable_outputs (· = v)) (fun _ _ => trivial) (fun c => .refl c.outputs) ?_ fun state => ?_
  · rintro c rfl
    exact ⟨rfl, rfl⟩
  refine Triple.bind (B := fun state c => c.outputs.FaultRetained ∧ c.outputs.state = state)
    ?_ fun state' => ?_
  · rintro c ⟨hc, rfl⟩
    exact triple_controlButton _ hv c hc
  · rintro c ⟨hf, rfl⟩
    exact triple_controlOutputs nowMs hf c rfl

/-! ## `actuator_service_task` and `sensor_safety_task` -/

/-- A driver that only moves pins of `PORTD`, in a state that latches nothing. -/
theorem triple_stepperStepForward :
    Triple outputContract (fun c => c.outputs.state = .active ∧ c.outputs.fault = v.fault)
      stepperStepForward
      fun _ c => c.outputs.state = .active ∧ c.outputs.fault = v.fault := by
  let A : Outputs → Prop := fun w => w.state = .active ∧ w.fault = v.fault
  have hne : ∀ {w w' : Outputs}, A w → w.Latches w' := by
    intro w w' hw
    refine Outputs.latches_of_ne ?_
    rw [hw.1]
    decide
  have hphase : ∀ i enabled, i < 8 →
      Triple outputContract (fun c => A c.outputs) (stepperWritePhase i enabled)
        fun _ c => A c.outputs := by
    intro i enabled hi
    refine triple_of_outputs fun w hw => ?_
    unfold stepperWritePhase
    split
    · exact (drives_portd_high hi (hne hw)).triple (P := A) hw
    · exact (drives_portd_low hi).triple (P := A) hw
  refine read_any (P := A) fun stepIndex => ?_
  refine Triple.bind (B := fun _ c => A c.outputs) ?_ fun _ => ?_
  · exact Triple.bind (hphase _ _ (by decide)) fun _ => Triple.bind (hphase _ _ (by decide))
      fun _ => Triple.bind (hphase _ _ (by decide)) fun _ => hphase _ _ (by decide)
  · refine triple_of_outputs fun w hw => Drives.triple (P := A) (drives_hidden ?_) hw
    exact fun c => rfl

/-- **`actuator_service_task`** leaves the phases low, but in `ACTIVE`. -/
theorem triple_actuatorService (nowMs : Word32) :
    Triple outputContract (fun c => c.outputs.FaultRetained) (actuatorService nowMs)
      fun _ c => c.outputs.FaultRetained ∧
        (c.outputs.state ≠ .active → c.outputs.StepperOff) := by
  refine triple_of_outputs fun v hv => ?_
  refine Triple.read_bind (B := fun state c => c.outputs = v ∧ state = v.state)
    (stable_outputs (· = v)) (fun _ _ => trivial) (fun c => .refl c.outputs) ?_ fun state => ?_
  · rintro c rfl
    exact ⟨rfl, rfl⟩
  rintro c ⟨hc, rfl⟩
  refine (?_ : Triple outputContract (fun c => c.outputs = v) _ _) c hc
  split
  · rename_i hs
    have hend : ∀ {c : Control}, c.outputs.state = .active → c.outputs.fault = v.fault →
        c.outputs.FaultRetained ∧ (c.outputs.state ≠ .active → c.outputs.StepperOff) := by
      intro c hstate hfault
      refine ⟨?_, fun h => absurd hstate h⟩
      rw [Outputs.FaultRetained, hstate, hfault, ← hs]
      exact hv
    refine read_any (P := (· = v)) fun lastStepMs => ?_
    split
    · refine Triple.bind (drives_hidden fun _ => rfl) fun _ =>
        triple_stepperStepForward.conseq ?_ fun _ c h => hend h.1 h.2
      rintro c rfl
      exact ⟨hs, rfl⟩
    · refine Triple.ret ?_
      rintro c rfl
      exact hend hs rfl
  · refine Triple.bind drives_stepperStop fun _ => (drives_hidden (v := v.stopped) ?_).triple
      (P := fun w => w.FaultRetained ∧ (w.state ≠ .active → w.StepperOff))
      ⟨hv, fun _ => v.stepperOff_stopped⟩
    exact fun c => rfl

/-- A critical obstacle is retained and, in the next access, latched. -/
theorem triple_judgePulse (pulseTicks : Word16) :
    Triple outputContract (fun c => c.outputs.FaultRetained) (judgePulse pulseTicks)
      fun _ c => c.outputs.FaultRetained := by
  refine triple_of_outputs fun v hv => ?_
  refine Triple.read_bind (B := fun state c => c.outputs = v ∧ state = v.state)
    (stable_outputs (· = v)) (fun _ _ => trivial) (fun c => .refl c.outputs) ?_ fun state => ?_
  · rintro c rfl
    exact ⟨rfl, rfl⟩
  rintro c ⟨hc, rfl⟩
  refine (?_ : Triple outputContract (fun c => c.outputs = v) _ _) c hc
  generalize safetyObstacleIsCritical _ _ = critical
  split
  · rename_i hcritical
    have hs : v.state = .active := hcritical.1
    have hns : v.state ≠ .safeState := by rw [hs]; decide
    have hrecord : Drives (diagnosticsRecordFault .obstacleCritical) v
        { v with fault := .obstacleCritical } := by
      refine drives_write ?_ (Outputs.latches_of_ne hns)
      rintro c rfl
      split
      · rename_i hsame
        have hlast : c.lastFault = .obstacleCritical := by
          rcases hsame with h | h
          · cases h
          · exact h.symm
        show ({ c.outputs with fault := c.lastFault } : Outputs) = _
        rw [hlast]
      · rfl
    refine (hrecord.bind (drives_systemFsmEvent (Outputs.latches_of_ne hns))).triple
      (P := Outputs.FaultRetained) ?_
    show systemFsmHandleEvent .criticalFault v.state = .safeState ↔
      DiagFault.obstacleCritical = .obstacleCritical
    rw [hs]
    decide
  · refine Triple.ret ?_
    rintro c rfl
    exact hv

/-- Pins of the trigger, and variables that do not show. -/
theorem triple_trigger {p : Prog Control Unit} (hp : ∀ v, ∃ v', Drives p v v' ∧
    (v.FaultRetained → v'.FaultRetained)) :
    Triple outputContract (fun c => c.outputs.FaultRetained) p
      fun _ c => c.outputs.FaultRetained := by
  refine triple_of_outputs fun v hv => ?_
  obtain ⟨v', hd, hf⟩ := hp v
  exact hd.triple (hf hv)

/-- **`sensor_safety_task`** keeps the fault and the state together. -/
theorem triple_sensorSafety (adc : Word16) :
    Triple outputContract (fun c => c.outputs.FaultRetained) (sensorSafety adc)
      fun _ c => c.outputs.FaultRetained := by
  have hhidden : ∀ {f : Control → Control}, (∀ c, (f c).outputs = c.outputs) →
      Triple outputContract (fun c => c.outputs.FaultRetained) (Prog.write f)
        fun _ c => c.outputs.FaultRetained := fun hf =>
    triple_trigger fun v => ⟨v, drives_hidden hf, id⟩
  have hpin : Triple outputContract (fun c => c.outputs.FaultRetained)
      (gpioWriteLow Control.portdLens hcsr04TriggerBit) fun _ c => c.outputs.FaultRetained :=
    triple_trigger fun v => ⟨_, drives_portd_low (by decide), id⟩
  have hpin' : Triple outputContract (fun c => c.outputs.FaultRetained)
      (gpioWriteHigh Control.portdLens hcsr04TriggerBit) fun _ c => c.outputs.FaultRetained :=
    triple_trigger fun v =>
      ⟨_, drives_portd_high (by decide) (Outputs.latches_setPortd fun _ => rfl), id⟩
  refine Triple.bind (hhidden fun _ => rfl) fun _ => read_any fun measurementActive => ?_
  split
  · refine Triple.bind (B := fun _ c => c.outputs.FaultRetained) ?_ fun _ => hhidden (by intro c; rfl)
    refine Triple.bind (B := fun _ c => c.outputs.FaultRetained) ?_ fun started => ?_
    · refine Triple.access (B := fun _ c => c.outputs.FaultRetained) (stable_outputs _)
        (fun _ _ => trivial) ?_ fun _ => Triple.ret fun _ h => h
      intro c hc
      split
      · exact ⟨.refl c.outputs, hc⟩
      · exact ⟨.refl c.outputs, hc⟩
    · split
      · exact Triple.bind hpin' fun _ => Triple.bind hpin fun _ => Triple.ret fun _ h => h
      · exact Triple.ret fun _ h => h
  · refine Triple.bind ?_ fun _ => hhidden (by intro c; rfl)
    refine read_any fun ready => ?_
    split
    · exact read_any fun pulseTicks => triple_judgePulse pulseTicks
    · exact Triple.bind (hhidden fun _ => rfl) fun _ => hpin

end

/-! ## The firmware -/

/-- The compare handler moves the servo's signal only, which is not among the
outputs. -/
theorem outputs_timer1CompaVect (c : Control) : (timer1CompaVect c).outputs = c.outputs := by
  unfold timer1CompaVect
  split
  · have hpins := congrArg (Function.update · servoSignalBit false)
      (isSet_or_bit_eq (i := servoSignalBit) (by decide) c.portb)
    rw [Function.update_idem] at hpins
    show ({ c.outputs with portb := _ } : Outputs) = _
    rw [hpins]
    rfl
  · have hpins := congrArg (Function.update · servoSignalBit false)
      (isSet_and_not_bit_eq (i := servoSignalBit) (by decide) c.portb)
    rw [Function.update_idem] at hpins
    show ({ c.outputs with portb := _ } : Outputs) = _
    rw [hpins]
    rfl

/-- The capture handler touches no output. -/
theorem outputs_timer1CaptVect (captureTick : Word16) (c : Control) :
    (timer1CaptVect captureTick c).outputs = c.outputs := by
  unfold timer1CaptVect
  split
  · rfl
  · rfl
  · rfl

/-- The indices of the two rings are in range. -/
def Firmware.Indexed (s : Firmware) : Prop := s.uart.rx.RxIndexed ∧ s.uart.tx.TxIndexed

/-- The firmware among its interrupts. -/
def safeContract : Contract Firmware where
  rely s s' := ∃ x : Interrupt, x.handler s = some s'
  guar s s' := s.control.outputs.Latches s'.control.outputs
  inv _ := True

/-- What holds at every task boundary. -/
def SafeInvariant (s : Firmware) : Prop := s.Indexed ∧ s.control.outputs.FaultRetained

section

variable {s s' : Firmware} {es es' : List FirmwareEvent} {c c' : FirmwareConfig}

/-- **No interrupt shows in the outputs.** -/
theorem outputs_of_handler {x : Interrupt} (h : x.handler s = some s') :
    s'.control.outputs = s.control.outputs := by
  obtain ⟨byte, rfl⟩ | rfl | rfl | ⟨tick, rfl⟩ | rfl := handler_cases h
  · rfl
  · rfl
  · exact outputs_timer1CompaVect _
  · exact outputs_timer1CaptVect tick _
  · rfl

/-- Every handler keeps the indices of both rings in bounds. -/
theorem indexed_of_handler {x : Interrupt} (h : x.handler s = some s') (hs : s.Indexed) :
    s'.Indexed := by
  obtain ⟨byte, rfl⟩ | rfl | rfl | ⟨tick, rfl⟩ | rfl := handler_cases h
  · exact ⟨rxIndexed_usartRxVect hs.1, hs.2⟩
  · exact ⟨hs.1, txIndexed_usartUdreVect hs.2⟩
  · exact hs
  · exact hs
  · exact hs

/-- What is said of the outputs, with the indices in bounds, is left by every
interrupt. -/
theorem stable_safe (P : Outputs → Prop) :
    Stable safeContract fun s => s.Indexed ∧ P s.control.outputs := by
  rintro s s' ⟨hs, hp⟩ ⟨x, hx⟩
  rw [outputs_of_handler hx]
  exact ⟨indexed_of_handler hx hs, hp⟩

/-- A task of the control side, in the firmware. -/
theorem Triple.control {p : Prog Control Unit} {P W : Outputs → Prop}
    (h : Triple outputContract (fun c => P c.outputs) p fun _ c => W c.outputs) :
    Triple safeContract (fun s => s.Indexed ∧ P s.control.outputs) (p.zoom Firmware.controlLens)
      fun _ s => s.Indexed ∧ W s.control.outputs := by
  refine h.component (F := Firmware.Indexed) Firmware.controlLens ?_ ?_ fun _ _ _ => trivial
  · rintro s s' hs ⟨x, hx⟩
    exact ⟨outputs_of_handler hx, indexed_of_handler hx hs⟩
  · rintro s c hs hg
    exact ⟨hg, hs⟩

/-- The communication task keeps the invariant throughout. -/
def safeCommInvariant : CommInvariant Firmware where
  drain := SafeInvariant
  held _ := SafeInvariant
  drained _ := True
  serve _ := SafeInvariant
  published _ _ := SafeInvariant

/-- **The communication task shows nothing**, but in a block that it never
leaves again. -/
theorem safe_kept (r : Readings) : safeCommInvariant.Kept (Lens.id Firmware) safeContract r where
  guar_refl s := .refl s.control.outputs
  protocol_rely := fun _ _ ⟨_, hx⟩ => protocol_of_handler hx
  tx_rely := fun _ _ ⟨_, hx⟩ => tx_of_handler hx
  rx_rely := fun _ _ ⟨_, hx⟩ => rx_of_handler hx
  reports_rely := fun _ _ ⟨_, hx⟩ => keepsReports_of_handler hx
  stable_drain := stable_safe _
  stable_held _ := stable_safe _
  stable_drained := .const True
  stable_serve _ := stable_safe _
  stable_published _ _ := stable_safe _
  inv_drain _ _ := trivial
  inv_held _ _ _ := trivial
  inv_serve _ _ _ := trivial
  inv_published _ _ _ _ := trivial
  rxIndexed _ h := h.1.1
  txIndexed _ _ h := h.1.2
  checkTimeout s h := ⟨.refl s.control.outputs, h⟩
  receive s _ _ h _ hu _ _ := ⟨.refl s.control.outputs, ⟨hu, h.1.2⟩, h.2⟩
  process s _ _ h := ⟨.refl s.control.outputs, h⟩
  seen_empty _ _ _ := trivial
  serve_all _ h _ := h
  block := by
    rw [Prog.zoom_id]
    refine (Triple.control (P := Outputs.FaultRetained) (W := Outputs.FaultRetained)
      (triple_of_outputs fun v hv => ?_)).conseq (fun s h => h.1) fun _ s h => h
    exact drives_setSafeOutputs.triple (P := Outputs.FaultRetained) hv
  scan s _ _ h := ⟨.refl s.control.outputs, h⟩
  skip _ _ _ h _ := h
  noRoom _ _ _ _ h _ _ := h
  fill s _ _ _ h _ := ⟨.refl s.control.outputs, h⟩
  publish s _ _ _ _ h _ _ hlt _ := ⟨.refl s.control.outputs, ⟨h.1.1, hlt, h.1.2.2⟩, h.2⟩
  enable s _ _ _ h _ _ := ⟨.refl s.control.outputs, h⟩
  clear s _ _ h := ⟨.refl s.control.outputs, h⟩

/-- What an execution of a task leaves. -/
def Task.Leaves : Task → Outputs → Prop
  | .actuatorService, v => v.state ≠ .active → v.StepperOff
  | .control, v => v.Follows
  | .sensorSafety, _ => True
  | .communication, _ => True

/-- **Every task keeps the guarantee**, and leaves its outputs. -/
theorem safe_sound : Sound firmware safeContract SafeInvariant
    fun d _ s => SafeInvariant s ∧ d.task.Leaves s.control.outputs where
  env x s s' h := ⟨x, h⟩
  stable := stable_safe _
  idle _ _ _ h := h.1
  task := by
    rintro ⟨task, r⟩
    have hbody : Triple safeContract SafeInvariant ((task.body r).zoom (Lens.id Firmware))
        fun _ s => s.Indexed ∧ s.control.outputs.FaultRetained ∧
          task.Leaves s.control.outputs := by
      rcases task with _ | _ | _ | _
      · rw [Prog.zoom_id]
        exact Triple.control (W := fun v => v.FaultRetained ∧ Task.Leaves .actuatorService v)
          (triple_actuatorService r.nowMs)
      · rw [Prog.zoom_id]
        exact Triple.control (W := fun v => v.FaultRetained ∧ Task.Leaves .control v)
          (triple_controlStep r.pind r.nowMs)
      · rw [Prog.zoom_id]
        exact (Triple.control (W := Outputs.FaultRetained) (triple_sensorSafety r.adc)).conseq
          (fun s h => h) fun _ s h => ⟨h.1, h.2, trivial⟩
      · exact (communication_triple (safe_kept r)).conseq (fun s h => h)
          fun _ s h => ⟨h.1, h.2, trivial⟩
    have hdispatch : Triple safeContract SafeInvariant
        ((Dispatch.program ⟨task, r⟩).zoom (Lens.id Firmware)) fun _ s => s.Indexed ∧
          s.control.outputs.FaultRetained ∧ task.Leaves s.control.outputs := by
      refine Dispatch.triple (stable_safe _)
        (stable_safe fun v => v.FaultRetained ∧ task.Leaves v) (fun _ _ => trivial)
        (fun _ _ => trivial) ?_ ?_ hbody
      · exact fun s p h => ⟨.refl s.control.outputs, h⟩
      · exact fun s p h => ⟨.refl s.control.outputs, h⟩
    rw [Prog.zoom_id] at hdispatch
    exact hdispatch.conseq (fun s h => h.1) fun _ s h => ⟨⟨h.1, h.2.1⟩, h.2.2⟩

/-- The configurations of the firmware, as the triples leave them. -/
abbrev SafeFirmware : FirmwareConfig → Prop :=
  SafeConfig safeContract SafeInvariant fun d _ s =>
    SafeInvariant s ∧ d.task.Leaves s.control.outputs

/-- **What is latched stays so** along every run. -/
theorem latches_run (hc : SafeFirmware c) (h : firmware.run c es = some c') :
    c.state.control.outputs.Latches c'.state.control.outputs := by
  refine safe_sound.run_rel (R := fun s s' => s.control.outputs.Latches s'.control.outputs)
    (fun s => .refl _) (fun s s' s'' => .trans) ?_ (fun s s' hg => hg) hc h
  rintro s s' ⟨x, hx⟩
  rw [outputs_of_handler hx]
  exact .refl _

/-- The last two writes of the initialisation set the state and the fault. -/
theorem boot_state (b : Boot) (s : Firmware) :
    (s.boot b).control.systemState = .idle ∧ (s.boot b).control.lastFault = .none := by
  let C : Contract Firmware := ⟨Eq, fun _ _ => True, fun _ => True⟩
  have hstable : ∀ P : Firmware → Prop, Stable C P := fun P t t' h he => he ▸ h
  have hany : ∀ p : Prog Control Unit,
      Triple C (fun _ => True) (p.zoom Firmware.controlLens) fun _ _ => True := fun p =>
    Triple.zoom _ _ (hstable _) (fun _ _ => trivial) fun _ _ _ => ⟨trivial, trivial⟩
  have hinit : Triple C (fun _ => True) (mainInit b) fun _ t =>
      t.control.systemState = .idle ∧ t.control.lastFault = .none := by
    simp only [mainInit, controlInit, Prog.bind_eq, Prog.zoom_bind, Prog.bind_assoc,
      Prog.zoom_write, systemFsmEvent]
    iterate 8 refine Triple.bind (hany _) fun _ => ?_
    refine Triple.write_bind (B := fun t => t.control.systemState = .boot ∧
      t.control.lastFault = .none) (hstable _) (fun _ _ => trivial)
      (fun t _ => ⟨trivial, rfl, rfl⟩) ?_
    refine Triple.write_bind (B := fun t => t.control.systemState = .idle ∧
      t.control.lastFault = .none) (hstable _) (fun _ _ => trivial) ?_ ?_
    · rintro t ⟨hs, hf⟩
      refine ⟨trivial, ?_, hf⟩
      show systemFsmHandleEvent .initDone t.control.systemState = .idle
      rw [hs]
      rfl
    · exact Triple.write (hstable _) (fun _ _ => trivial) fun t h => ⟨trivial, h⟩
  exact hinit.uninterrupted trivial (uninterrupted_mainInit b s)

/-- The control side after `main` has initialised. -/
theorem safe_start (b : Boot) (s : Firmware) : SafeInvariant (s.boot b) := by
  obtain ⟨hu, -, -⟩ := boot_spec b s
  obtain ⟨hs, hf⟩ := boot_state b s
  have h0 : (0 : Byte).toNat < uartRxBufferSize := by decide
  have h0' : (0 : Byte).toNat < uartTxBufferSize := by decide
  refine ⟨?_, ?_⟩
  · rw [Firmware.Indexed, hu]
    exact ⟨⟨h0, h0⟩, ⟨h0', h0'⟩⟩
  · show (s.boot b).control.systemState = .safeState ↔
      (s.boot b).control.lastFault = .obstacleCritical
    rw [hs, hf]
    decide

/-- **The safe state is latched and disarms every actuator.** In every run
from reset: at a task boundary the state is `SAFE_STATE` exactly when the
critical obstacle is the retained fault; where an execution of
`control_task` returns the relay, motor and servo follow the state, and
where one of `actuator_service_task` returns, but in `ACTIVE`, the phases
are low; and from `SAFE_STATE` on, the state and whatever those two tasks
have disarmed stay so. -/
theorem safe_state_latched (b : Boot) (s₀ : Firmware)
    (h : firmware.run (firmwareStart b s₀) es = some c) :
    (c.running = none → (c.state.control.systemState = .safeState ↔
      c.state.control.lastFault = .obstacleCritical)) ∧
    (∀ es' c', firmware.run c es' = some c' → c.state.control.systemState = .safeState →
      c'.state.control.systemState = .safeState) ∧
    ∀ e c₁ d, firmware.step c e = some c₁ → c₁.finished = c.finished ++ [(d, ())] →
      (d.task = .control →
        (c₁.state.control.systemState = .active → c₁.state.control.outputs.Driven) ∧
        (c₁.state.control.systemState ≠ .active → c₁.state.control.outputs.Disarmed) ∧
        (c₁.state.control.systemState = .safeState → ∀ es' c', firmware.run c₁ es' = some c' →
          c'.state.control.outputs.Disarmed)) ∧
      (d.task = .actuatorService →
        (c₁.state.control.systemState ≠ .active → c₁.state.control.outputs.StepperOff) ∧
        (c₁.state.control.systemState = .safeState → ∀ es' c', firmware.run c₁ es' = some c' →
          c'.state.control.outputs.StepperOff)) := by
  have hstart : SafeFirmware (firmwareStart b s₀) := safe_start b s₀
  have hc : SafeFirmware c := safe_sound.staged.run hstart h
  refine ⟨fun hidle => (hc.idle hidle).2, ?_, ?_⟩
  · intro es' c' h' hsafe
    exact (latches_run hc h' hsafe).1
  · intro e c₁ d hstep hfin
    obtain ⟨-, hleaves⟩ := safe_sound.completed hc hstep hfin
    have hc₁ : SafeFirmware c₁ := safe_sound.staged.step_config hc hstep
    have hne : c₁.state.control.systemState = .safeState →
        c₁.state.control.systemState ≠ .active := by
      intro hsafe
      rw [hsafe]
      decide
    refine ⟨fun htask => ?_, fun htask => ?_⟩
    · rw [htask] at hleaves
      obtain ⟨hactive, hdisarmed⟩ := follows_iff.mp hleaves
      refine ⟨hactive, hdisarmed, fun hsafe es' c' h' => ?_⟩
      exact (latches_run hc₁ h' hsafe).2.1 (hdisarmed (hne hsafe))
    · rw [htask] at hleaves
      refine ⟨hleaves, fun hsafe es' c' h' => ?_⟩
      exact (latches_run hc₁ h' hsafe).2.2 (hleaves (hne hsafe))

end

/-- The button is seen released, and then pressed: two executions of
`control_task`, the second but for its last access. -/
def pressRun : List FirmwareEvent :=
  .dispatch ⟨.control, { Readings.zeroed with pind := bit buttonBit }⟩ ::
    List.replicate 14 .foreground ++ .dispatch ⟨.control, .zeroed⟩ :: List.replicate 16 .foreground

/-- Then the sensor measures an obstacle at ten centimetres, and the next
execution of `sensor_safety_task` reads it. -/
def obstacleRun : List FirmwareEvent :=
  pressRun ++ .foreground ::
    .dispatch ⟨.sensorSafety, .zeroed⟩ :: List.replicate 11 .foreground ++
    [.env (.timer1Capt 0), .env (.timer1Capt 1160)] ++
    .dispatch ⟨.sensorSafety, .zeroed⟩ :: List.replicate 11 .foreground

/-- **The obstacle latches the cell.** With its last access the execution of
`control_task` that follows leaves the relay, motor and servo disarmed, and
so does every run from there on. -/
theorem safe_state_latched_obstacle :
    ∃ c c₁, firmware.run (firmwareStart ⟨0, 0, 0, 0⟩ .zeroed) (obstacleRun ++
        .dispatch ⟨.control, .zeroed⟩ :: List.replicate 14 .foreground) = some c ∧
      firmware.step c .foreground = some c₁ ∧ c₁.state.control.systemState = .safeState ∧
      c₁.state.control.outputs.Disarmed ∧
      ∀ es' c', firmware.run c₁ es' = some c' → c'.state.control.outputs.Disarmed := by
  have hrun : ((firmware.run (firmwareStart ⟨0, 0, 0, 0⟩ .zeroed) (obstacleRun ++
      .dispatch ⟨.control, .zeroed⟩ :: List.replicate 14 .foreground)).bind fun c =>
        (firmware.step c .foreground).map fun c₁ => (c.finished.map fun q => q.1.task,
          c₁.finished.map fun q => q.1.task, c₁.state.control.systemState)) =
      some ([.control, .control, .sensorSafety, .sensorSafety],
        [.control, .control, .sensorSafety, .sensorSafety, .control], .safeState) := by
    decide +kernel
  obtain ⟨c, hc, hstep⟩ := Option.bind_eq_some_iff.mp hrun
  obtain ⟨c₁, hc₁, hlogs⟩ := Option.map_eq_some_iff.mp hstep
  simp only [Prod.mk.injEq] at hlogs
  obtain ⟨hlog, hlog₁, hsafe⟩ := hlogs
  -- what the step adds to the log is an execution of `control_task`
  obtain ⟨last, hfin⟩ := finished_prefix_step hc₁
  have hlast : (last.map fun q => q.1.task) = [.control] := by
    rw [← hfin, List.map_append, hlog] at hlog₁
    exact List.append_cancel_left hlog₁
  obtain ⟨⟨d, ⟨⟩⟩, rfl, hd⟩ := List.map_eq_singleton_iff.mp hlast
  obtain ⟨-, hdisarmed, hkept⟩ :=
    ((safe_state_latched _ _ hc).2.2 .foreground c₁ d hc₁ hfin.symm).1 hd
  refine ⟨c, c₁, hc, hc₁, hsafe, hdisarmed ?_, hkept hsafe⟩
  rw [hsafe]
  decide

end SentryCell
