import SentryCell.Firmware.ControlFrame
import SentryCell.Firmware.Execution
import SentryCell.Lib.History
/-!
# The echo acquisition over whole runs

A measurement of the HC-SR04 is shared between `sensor_safety_task`, which
starts and ends it, and the capture interrupt, which takes its two edges.
`Echo` is what the two of them read and write, `Echo.Holds` the invariant
that ties it to the captures since the last start, and `sensorOutcome` the
task with what each execution came to. Every run of the firmware is a run
of `acquisition`, which logs those outcomes (`run_acquisition`).
-/

namespace SentryCell

open Foreground Word Machine

/-! ## Outcomes -/

/-- What an execution of `sensor_safety_task` came to. -/
inductive SensorOutcome where
  | started
  | refused
  | evaluated (pulseTicks : Word16)
  | aborted
  deriving DecidableEq, Repr

/-- `finishMeasurement`, and what it came to. -/
def finishOutcome : Prog Control SensorOutcome := do
  let ready ← hcsr04ResultReady
  if ready ≠ 0 then do
    let pulseTicks ← hcsr04GetPulseTicks
    judgePulse pulseTicks
    pure (.evaluated pulseTicks)
  else do
    hcsr04Abort
    pure .aborted

/-- `sensorSafety`, and what it came to. -/
def sensorOutcome (adc : Word16) : Prog Control SensorOutcome := do
  Prog.write fun c => { c with lastThermistorRaw := adc }
  let measurementActive ← Prog.read Control.measurementActive
  if measurementActive = 0 then do
    let started ← hcsr04Start
    Prog.write fun c => { c with measurementActive := started }
    pure (if started ≠ 0 then .started else .refused)
  else do
    let outcome ← finishOutcome
    Prog.write fun c => { c with measurementActive := 0 }
    pure outcome

/-- The outcome is read off, and changes nothing. -/
theorem sensorSafety_eq (adc : Word16) :
    sensorSafety adc = (sensorOutcome adc).bind fun _ => .ret () := by
  have hfinish : finishMeasurement = finishOutcome.bind fun _ => .ret () := by
    simp only [finishMeasurement, finishOutcome, Prog.bind_eq, Prog.bind_assoc]
    refine congrArg _ (funext fun ready => ?_)
    split
    · simp only [Prog.bind_assoc, Prog.pure_eq, Prog.bind, Prog.bind_ret_unit]
    · simp only [Prog.bind_assoc, Prog.pure_eq, Prog.bind, Prog.bind_ret_unit]
  simp only [sensorSafety, sensorOutcome, Prog.bind_eq, Prog.bind_assoc]
  refine congrArg _ (funext fun _ => congrArg _ (funext fun measurementActive => ?_))
  split
  · simp only [Prog.bind_assoc, Prog.pure_eq, Prog.bind, Prog.bind_ret_unit]
  · simp only [hfinish, Prog.bind_assoc, Prog.pure_eq, Prog.bind, Prog.bind_ret_unit]

/-- The body of a task, and the outcome of the one that has any. -/
def Task.outcome (r : Readings) : Task → Prog Firmware (Option SensorOutcome)
  | .actuatorService => (Task.actuatorService.body r).bind fun _ => .ret none
  | .control => (Task.control.body r).bind fun _ => .ret none
  | .sensorSafety => ((sensorOutcome r.adc).zoom Firmware.controlLens).bind fun o => .ret (some o)
  | .communication => (Task.communication.body r).bind fun _ => .ret none

/-- One execution of a task, and its outcome. -/
def Dispatch.outcome (d : Dispatch) : Prog Firmware (Option SensorOutcome) := do
  (recordStart d.task.id d.task.periodMs d.readings).zoom Firmware.profilerLens
  let outcome ← d.task.outcome d.readings
  (recordEnd d.task.id d.task.periodMs d.readings).zoom Firmware.profilerLens
  pure outcome

/-- **The firmware, with the outcomes in its log.** -/
def acquisition : Machine Firmware Dispatch (Option SensorOutcome) Interrupt where
  task := Dispatch.outcome
  ready _ _ := true
  env x s := x.handler s

abbrev AcquisitionConfig := Config Firmware Dispatch (Option SensorOutcome)

/-- An execution that tells what it made of the echo is the execution, once
that is forgotten. -/
theorem Dispatch.program_eq (d : Dispatch) : d.program = d.outcome.bind fun _ => .ret () := by
  have hbody : d.task.body d.readings = (d.task.outcome d.readings).bind fun _ => .ret () := by
    rcases d with ⟨_ | _ | _ | _, r⟩
    · simp only [Task.outcome, Prog.bind_assoc, Prog.bind, Prog.bind_ret_unit]
    · simp only [Task.outcome, Prog.bind_assoc, Prog.bind, Prog.bind_ret_unit]
    · simp only [Task.outcome, Task.body, sensorSafety_eq, Prog.zoom_bind, Prog.bind_assoc,
        Prog.bind, Prog.zoom_ret]
    · simp only [Task.outcome, Prog.bind_assoc, Prog.bind, Prog.bind_ret_unit]
  simp only [Dispatch.program, Dispatch.outcome, hbody, Prog.bind_eq, Prog.bind_assoc,
    Prog.bind, Prog.pure_eq, Prog.bind_ret_unit]

/-- The acquisition has the runs of the firmware, with results beside them. -/
theorem firmware_eq : firmware = acquisition.mapResults fun _ _ => () := by
  have htask : Dispatch.program = fun d => d.outcome.bind fun _ => .ret () :=
    funext Dispatch.program_eq
  show (⟨Dispatch.program, _, _⟩ : Machine Firmware Dispatch Unit Interrupt) = _
  rw [htask]
  rfl

/-- **The runs of the firmware** are those of the acquisition, with the
outcomes forgotten. -/
theorem run_acquisition (c : AcquisitionConfig) (es : List FirmwareEvent) :
    firmware.run (mapConfig (fun _ _ => ()) c) es =
      (acquisition.run c es).map (mapConfig fun _ _ => ()) := by
  rw [firmware_eq]
  exact run_mapResults

/-! ## What the task and the interrupt share -/

/-- **The echo capture**: the driver's variables, whether its interrupt is
enabled and which edge it takes, and the task's flag. -/
structure Echo where
  driver : Hcsr04
  enabled : Bool
  rising : Bool
  active : Byte

def Control.echo (c : Control) : Echo where
  driver := c.hcsr04
  enabled := isSet c.timsk1 icie1
  rising := isSet c.tccr1b ices1
  active := c.measurementActive

/-- `TIMER1_CAPT_vect`, on the echo. -/
def Echo.capture (captureTick : Word16) (v : Echo) : Echo :=
  match v.driver.captureState with
  | .waitRising =>
    { v with
      driver := { v.driver with startTick := captureTick, captureState := .waitFalling }
      rising := false }
  | .waitFalling =>
    { v with
      driver := {
        v.driver with
        pulseTicks := captureTick - v.driver.startTick, resultReady := 1, captureState := .idle }
      enabled := false }
  | .idle => { v with enabled := false }

/-- **What the echo is at any moment**, for the captures `g` since the last
start. While a measurement is in progress the captures taken are its own,
and no result is ready; a result that is ready is their difference. -/
def Echo.Holds (v : Echo) (g : List Word16) : Prop :=
  match v.driver.captureState with
  | .idle => v.enabled = false ∧ (v.driver.resultReady ≠ 0 →
      ∃ first second, g = [first, second] ∧ v.driver.pulseTicks = second - first)
  | .waitRising => v.rising = true ∧ v.driver.resultReady = 0 ∧ g = []
  | .waitFalling => v.rising = false ∧ v.driver.resultReady = 0 ∧ g = [v.driver.startTick]

/-- What the capture handler does to the echo is a capture. -/
theorem echo_timer1CaptVect (captureTick : Word16) (c : Control) :
    (timer1CaptVect captureTick c).echo = c.echo.capture captureTick := by
  have hclear : ∀ (i : ℕ) (r : Byte), i < 8 → isSet (r &&& ~~~bit i) i = false := by
    intro i r hi
    rw [isSet_and_not_bit hi, decide_eq_true rfl, Bool.not_true, Bool.and_false]
  unfold timer1CaptVect Echo.capture
  rcases hs : c.hcsr04.captureState with _ | _ | _
  · simp only [Control.echo, hs, hclear icie1 c.timsk1 (by decide)]
  · simp only [Control.echo, hs, hclear ices1 c.tccr1b (by decide)]
  · simp only [Control.echo, hs, hclear icie1 c.timsk1 (by decide)]

/-- The compare handler serves the servo and leaves the echo alone. -/
theorem echo_timer1CompaVect (c : Control) : (timer1CompaVect c).echo = c.echo := by
  unfold timer1CompaVect
  split <;> rfl

namespace Echo

variable {v : Echo} {g : List Word16} {captureTick : Word16}

/-- A ready result is that of the two captures, and the capture is over. -/
theorem Holds.ready (h : v.Holds g) (hr : v.driver.resultReady ≠ 0) :
    v.driver.captureState = .idle ∧ v.enabled = false ∧
      ∃ first second, g = [first, second] ∧ v.driver.pulseTicks = second - first := by
  unfold Holds at h
  rcases hs : v.driver.captureState with _ | _ | _
  · rw [hs] at h
    exact ⟨rfl, h.1, h.2 hr⟩
  · rw [hs] at h
    exact absurd h.2.1 hr
  · rw [hs] at h
    exact absurd h.2.1 hr

/-- No interrupt is left to an idle capture. -/
theorem Holds.disabled (h : v.Holds g) (hs : v.driver.captureState = .idle) :
    v.enabled = false := by
  rw [Holds, hs] at h
  exact h.1

/-- **A capture** is the next edge of the measurement in progress. -/
theorem Holds.capture (h : v.Holds g) (he : v.enabled = true) :
    (v.capture captureTick).Holds (g ++ [captureTick]) := by
  unfold Holds at h
  rcases hs : v.driver.captureState with _ | _ | _
  · rw [hs] at h
    rw [h.1] at he
    cases he
  · rw [hs] at h
    obtain ⟨-, hready, rfl⟩ := h
    simp only [Echo.capture, hs, Holds]
    exact ⟨trivial, hready, rfl⟩
  · rw [hs] at h
    obtain ⟨-, -, rfl⟩ := h
    simp only [Echo.capture, hs, Holds]
    exact ⟨trivial, fun _ => ⟨_, _, rfl, rfl⟩⟩

@[simp] theorem active_capture : (v.capture captureTick).active = v.active := by
  unfold Echo.capture
  split <;> rfl

end Echo

/-! ## The captures of a measurement -/

/-- The captures after a foreground step: a successful start forgets those
before it. -/
def restart (c c' : Control) (g : List Word16) : List Word16 :=
  if c.hcsr04.captureState = .idle ∧ c'.hcsr04.captureState = .waitRising then [] else g

/-- **The captures since the last successful start**, step by step. -/
def echoRecord : FirmwareEvent → Firmware → Firmware → List Word16 → List Word16
  | .foreground, s, s', g => restart s.control s'.control g
  | .env (.timer1Capt captureTick), _, _, g => g ++ [captureTick]
  | _, _, _, g => g

/-- Only a start is a start. -/
theorem restart_eq_self {c c' : Control} (h : c'.hcsr04.captureState = .idle ∨
    c'.hcsr04.captureState = c.hcsr04.captureState) (g : List Word16) : restart c c' g = g := by
  rw [restart, if_neg]
  rintro ⟨hidle, hrising⟩
  rw [hidle, or_self, hrising] at h
  cases h

/-- An event that captures nothing leaves the record as it was. -/
theorem echoRecord_refl (e : FirmwareEvent) (he : e.isEnv = false) (s : Firmware)
    (g : List Word16) : echoRecord e s s g = g := by
  rcases e with _ | _ | x
  · rfl
  · exact restart_eq_self (.inr rfl) g
  · cases he

/-- The firmware, beside the captures. -/
def capturesLens : Lens (Firmware × List Word16) Firmware :=
  .recording (echoRecord .foreground) (echoRecord_refl .foreground rfl)

/-- The control side of the firmware, beside the captures. -/
def echoLens : Lens (Firmware × List Word16) Control := capturesLens.comp Firmware.controlLens

/-- The firmware among its interrupts, beside the captures. -/
def echoContract : Contract (Firmware × List Word16) where
  rely t t' := ∃ x : Interrupt, x.handler t.1 = some t'.1 ∧
    t'.2 = echoRecord (.env x) t.1 t'.1 t.2
  guar _ _ := True
  inv t := t.1.control.echo.Holds t.2

/-- **An assertion on the echo and its captures.** -/
abbrev At (P : Echo → List Word16 → Prop) (t : Firmware × List Word16) : Prop :=
  P t.1.control.echo t.2

/-- Such an assertion implies the invariant, and a capture keeps it. -/
structure Keeping (P : Echo → List Word16 → Prop) : Prop where
  holds : ∀ v g, P v g → v.Holds g
  capture : ∀ v g captureTick, P v g → v.enabled = true →
    P (v.capture captureTick) (g ++ [captureTick])

/-- **Only a capture shows in the echo.** -/
theorem echo_of_handler {x : Interrupt} {s s' : Firmware} (h : x.handler s = some s')
    (g : List Word16) :
    (s'.control.echo = s.control.echo ∧ echoRecord (.env x) s s' g = g) ∨
    ∃ captureTick, s.control.echo.enabled = true ∧
      s'.control.echo = s.control.echo.capture captureTick ∧
      echoRecord (.env x) s s' g = g ++ [captureTick] := by
  rcases x with byte | _ | _ | captureTick | _ <;>
    simp only [Interrupt.handler, Option.ite_none_right_eq_some, Option.some.injEq] at h
  · obtain ⟨-, rfl⟩ := h
    exact .inl ⟨rfl, rfl⟩
  · obtain ⟨-, rfl⟩ := h
    exact .inl ⟨rfl, rfl⟩
  · obtain ⟨-, rfl⟩ := h
    exact .inl ⟨echo_timer1CompaVect _, rfl⟩
  · obtain ⟨henabled, rfl⟩ := h
    exact .inr ⟨captureTick, henabled, echo_timer1CaptVect captureTick _, rfl⟩
  · subst h
    exact .inl ⟨rfl, rfl⟩

section

variable {α β : Type} {P : Echo → List Word16 → Prop}

/-- What implies the invariant and is kept by a capture is stable under all
interrupts. -/
theorem Keeping.stable (hP : Keeping P) : Stable echoContract (At P) := by
  rintro ⟨s, g⟩ ⟨s', g'⟩ hp ⟨x, hx, hg'⟩
  simp only [At] at hp hx hg' ⊢
  obtain ⟨he, hg⟩ | ⟨captureTick, hen, he, hg⟩ := echo_of_handler hx g
  · rw [hg', he, hg]
    exact hp
  · rw [hg', he, hg]
    exact hP.capture _ _ captureTick hp hen

/-- What is only said of an idle capture, no capture can break. -/
theorem keeping_of_idle (h : ∀ v g, P v g → v.Holds g ∧ v.driver.captureState = .idle) :
    Keeping P where
  holds v g hp := (h v g hp).1
  capture v g captureTick hp hen := by
    obtain ⟨hv, hidle⟩ := h v g hp
    rw [hv.disabled hidle] at hen
    cases hen

/-- One access of the control side. -/
theorem echo_access {f : Control → β × Control} {B : β → Echo → List Word16 → Prop}
    (hP : Keeping P)
    (hB : ∀ c g, P c.echo g → B (f c).1 (f c).2.echo (restart c (f c).2 g)) :
    Triple echoContract (At P) ((Prog.access f .ret).zoom echoLens) fun b => At (B b) := by
  refine Triple.access (B := fun b => At (B b)) hP.stable (fun t h => hP.holds _ _ h) ?_
    fun _ => Triple.ret fun _ h => h
  rintro ⟨s, g⟩ h
  exact ⟨trivial, hB s.control g h⟩

/-- An access that shows nothing of itself. -/
theorem echo_read {f : Control → β} {B : β → Echo → List Word16 → Prop} (hP : Keeping P)
    (hB : ∀ c g, P c.echo g → B (f c) c.echo g) :
    Triple echoContract (At P) ((Prog.read f).zoom echoLens) fun b => At (B b) := by
  refine echo_access hP fun c g h => ?_
  rw [restart_eq_self (.inr rfl)]
  exact hB c g h

/-- A write that starts no measurement goes by what it does to the echo, for
the record of its captures stays. -/
theorem echo_write {f : Control → Control} {B : Unit → Echo → List Word16 → Prop}
    (hP : Keeping P) (hf : ∀ c, (f c).hcsr04.captureState = .idle ∨
      (f c).hcsr04.captureState = c.hcsr04.captureState)
    (hB : ∀ c g, P c.echo g → B () (f c).echo g) :
    Triple echoContract (At P) ((Prog.write f).zoom echoLens) fun b => At (B b) := by
  refine echo_access hP fun c g h => ?_
  rw [restart_eq_self (hf c)]
  exact hB c g h

/-- A program that leaves the echo alone. -/
theorem echo_kept {p : Prog Firmware α} (hP : Keeping P)
    (hp : p.Within fun s s' => s'.control.echo = s.control.echo) :
    Triple echoContract (At P) (p.zoom capturesLens) fun _ => At P := by
  refine (hp.zoom (S := fun t t' => t'.1.control.echo = t.1.control.echo ∧ t'.2 = t.2)
    capturesLens ?_).triple (fun t => ⟨rfl, rfl⟩) hP.stable (fun t h => hP.holds _ _ h) ?_
  · rintro ⟨s, g⟩ s' hs
    exact ⟨hs, restart_eq_self (.inr (congrArg (fun v => v.driver.captureState) hs)) g⟩
  · rintro ⟨s, g⟩ ⟨s', g'⟩ h ⟨he, hg⟩
    simp only [At] at h he hg ⊢
    rw [he, hg]
    exact ⟨trivial, h⟩

/-- And so does one of the control side. -/
theorem echo_hidden {p : Prog Control α} (hP : Keeping P)
    (hp : p.Within fun c c' => c'.echo = c.echo) :
    Triple echoContract (At P) (p.zoom echoLens) fun _ => At P := by
  rw [echoLens, ← Prog.zoom_zoom]
  exact echo_kept hP (hp.zoom Firmware.controlLens fun s c hc => hc)

end

/-! ## An execution of the task -/

/-- **What holds at every task boundary**: without a measurement the
capture is idle. -/
def Echo.Boundary (v : Echo) (g : List Word16) : Prop :=
  v.Holds g ∧ (v.active = 0 → v.driver.captureState = .idle)

/-- **What an execution leaves** that began with the flag `a` and came to
`o`: it started a measurement exactly if there was none, and a value it
evaluated was that of the two captures since the last start. -/
structure Echo.Ended (a : Byte) (o : SensorOutcome) (v : Echo) (g : List Word16) : Prop where
  boundary : v.Boundary g
  active : v.active ≠ 0 ↔ o = .started
  starts : o = .started ↔ a = 0
  succeeds : o ≠ .refused
  evaluates : ∀ pulseTicks, o = .evaluated pulseTicks →
    ∃ first second, g = [first, second] ∧ pulseTicks = second - first

/-- A measurement that is over, before its flag is cleared. -/
structure Echo.Finished (o : SensorOutcome) (v : Echo) (g : List Word16) : Prop where
  holds : v.Holds g
  idle : v.driver.captureState = .idle
  finishes : o ≠ .started ∧ o ≠ .refused
  evaluates : ∀ pulseTicks, o = .evaluated pulseTicks →
    ∃ first second, g = [first, second] ∧ pulseTicks = second - first

theorem keeping_boundary {q : Byte → Prop} : Keeping fun v g => v.Boundary g ∧ q v.active where
  holds _ _ h := h.1.1
  capture v g captureTick h hen := by
    obtain ⟨⟨hv, hidle⟩, hq⟩ := h
    rw [Echo.Boundary, Echo.active_capture]
    refine ⟨⟨hv.capture hen, fun hzero => ?_⟩, hq⟩
    rw [hv.disabled (hidle hzero)] at hen
    cases hen

theorem keeping_finished (o : SensorOutcome) : Keeping (Echo.Finished o) :=
  keeping_of_idle fun _ _ h => ⟨h.holds, h.idle⟩

section

variable {a : Byte}

/-- The drivers leave the echo alone. -/
theorem drivable_echo : Drivable fun c c' => c'.echo = c.echo :=
  ⟨fun _ => rfl, fun _ _ => rfl, fun _ _ => rfl, fun _ _ => rfl, fun _ _ => rfl, fun _ _ => rfl⟩

/-- **A start** finds the capture idle, and succeeds. -/
theorem hcsr04Start_triple :
    Triple echoContract (At fun v g => v.Boundary g ∧ v.active = 0)
      (hcsr04Start.zoom echoLens) fun started => At fun v g => v.Holds g ∧ started = 1 := by
  have hportd := drivable_echo.gpio drivable_echo.portd hcsr04TriggerBit
  have hkeep : ∀ started : Byte, Keeping fun v g => v.Holds g ∧ started = 1 := fun started =>
    ⟨fun _ _ h => h.1, fun _ _ _ h hen => ⟨h.1.capture hen, h.2⟩⟩
  simp only [hcsr04Start, Prog.bind_eq, Prog.zoom_bind]
  refine Triple.bind (echo_access (B := fun started v g => v.Holds g ∧ started = 1)
    (keeping_boundary (q := (· = 0))) ?_) fun started => ?_
  · rintro c g ⟨⟨-, hidle⟩, hzero⟩
    have hstate : c.hcsr04.captureState = .idle := hidle hzero
    rw [if_pos hstate, restart, if_pos ⟨hstate, rfl⟩]
    simp only [Echo.Holds, Control.echo]
    exact ⟨⟨by decide, trivial, trivial⟩, trivial⟩
  · split
    · refine Triple.bind (echo_hidden (hkeep started) hportd.1) fun _ => ?_
      exact Triple.bind (echo_hidden (hkeep started) hportd.2) fun _ => Triple.ret fun _ h => h
    · exact Triple.ret fun _ h => h

/-- **The end of a measurement**: a capture that lands between the test
and the abort is dropped with the rest. -/
theorem finishOutcome_triple :
    Triple echoContract (At fun v g => v.Boundary g ∧ v.active = a)
      (finishOutcome.zoom echoLens) fun o => At (Echo.Finished o) := by
  have hportd := drivable_echo.gpio drivable_echo.portd hcsr04TriggerBit
  have hjudge : ∀ p, (judgePulse p).Within fun c c' => c'.echo = c.echo :=
    drivable_echo.judgePulse (fun _ _ _ => rfl) fun _ => rfl
  simp only [finishOutcome, Prog.bind_eq, Prog.zoom_bind, hcsr04ResultReady]
  refine Triple.bind (echo_read (B := fun ready v g =>
    v.Boundary g ∧ (ready ≠ 0 → v.driver.resultReady ≠ 0)) (keeping_boundary (q := (· = a)))
    fun c g h => ⟨h.1, id⟩) fun ready => ?_
  by_cases hready : ready ≠ 0
  · rw [if_pos hready, Prog.zoom_bind, hcsr04GetPulseTicks]
    refine Triple.bind (echo_read (B := fun p => Echo.Finished (.evaluated p))
      (keeping_of_idle fun v g h => ⟨h.1.1, (h.1.1.ready (h.2 hready)).1⟩) ?_) fun p => ?_
    · rintro c g ⟨hb, hr⟩
      obtain ⟨hidle, -, first, second, hg, hp⟩ := hb.1.ready (hr hready)
      refine ⟨hb.1, hidle, ⟨by simp, by simp⟩, ?_⟩
      rintro p ⟨rfl⟩
      exact ⟨first, second, hg, hp⟩
    · rw [Prog.zoom_bind]
      exact Triple.bind (echo_hidden (keeping_finished _) (hjudge p)) fun _ =>
        Triple.ret fun _ h => h
  · rw [if_neg hready]
    simp only [hcsr04Abort, Prog.bind_eq, Prog.zoom_bind]
    have hkeep : Keeping fun v g => v.Boundary g ∧ (ready ≠ 0 → v.driver.resultReady ≠ 0) := by
      refine ⟨fun v g h => h.1.1, fun v g captureTick h hen => ⟨?_, fun h => absurd h hready⟩⟩
      exact (keeping_boundary (q := fun _ => True)).capture v g captureTick ⟨h.1, trivial⟩ hen
        |>.1
    refine Triple.bind (Triple.bind (echo_write (B := fun _ => Echo.Finished .aborted) hkeep
      (fun c => .inl rfl) fun c g h => ?_) fun _ => echo_hidden (keeping_finished _) hportd.2)
        fun _ => Triple.ret fun _ h => h
    have hclear : isSet (c.timsk1 &&& ~~~bit icie1) icie1 = false := by
      rw [isSet_and_not_bit (by decide), decide_eq_true rfl, Bool.not_true, Bool.and_false]
    refine ⟨⟨hclear, fun h => absurd rfl h⟩, rfl, ⟨by decide, by decide⟩, ?_⟩
    intro p hp
    cases hp

/-- **An execution of `sensor_safety_task`** starts a measurement, waits for
one, or ends one with its outcome. -/
theorem sensorOutcome_triple (adc : Word16) :
    Triple echoContract (At fun v g => v.Boundary g ∧ v.active = a)
      ((sensorOutcome adc).zoom echoLens) fun o => At (Echo.Ended a o) := by
  simp only [sensorOutcome, Prog.bind_eq, Prog.zoom_bind]
  have hkeep : Keeping fun v g => v.Boundary g ∧ v.active = a := keeping_boundary (q := (· = a))
  refine Triple.bind (echo_hidden hkeep (Prog.within_write fun c => rfl)) fun _ => ?_
  refine Triple.bind (echo_read (B := fun active v g => v.Boundary g ∧ v.active = a ∧ active = a)
    hkeep fun c g h => ⟨h.1, h.2, h.2⟩) fun active => ?_
  by_cases hactive : active = 0
  · rw [if_pos hactive, Prog.zoom_bind]
    refine Triple.bind (B := fun started => At fun v g => (v.Holds g ∧ started = 1) ∧ a = 0)
      ?_ fun started => ?_
    · by_cases ha : a = 0
      · exact hcsr04Start_triple.conseq (fun t h => ⟨h.1, h.2.1.trans ha⟩) fun _ t h => ⟨h, ha⟩
      · exact Triple.of_false fun t h => ha (h.2.2 ▸ hactive)
    · rw [Prog.zoom_bind]
      have hstarted : Keeping fun v g => (v.Holds g ∧ started = 1) ∧ a = 0 :=
        ⟨fun _ _ h => h.1.1, fun _ _ _ h hen => ⟨⟨h.1.1.capture hen, h.1.2⟩, h.2⟩⟩
      refine Triple.bind (echo_write (B := fun _ => Echo.Ended a
        (if started ≠ 0 then .started else .refused)) hstarted (fun c => .inr rfl) ?_)
          fun _ => Triple.ret fun _ h => h
      rintro c g ⟨⟨hv, rfl⟩, ha⟩
      rw [if_pos (by decide)]
      have hone : (1 : Byte) ≠ 0 := by decide
      exact ⟨⟨hv, fun h => absurd h hone⟩, iff_of_true hone rfl, iff_of_true rfl ha,
        by decide, fun p hp => by cases hp⟩
  · rw [if_neg hactive, Prog.zoom_bind]
    have hrest : Triple echoContract (At fun v g => v.Boundary g ∧ v.active = a ∧ active = a)
        (finishOutcome.zoom echoLens) fun o => At fun v g => v.Finished o g ∧ a ≠ 0 := by
      by_cases ha : a = 0
      · exact Triple.of_false fun t h => hactive (h.2.2.trans ha)
      · exact finishOutcome_triple.conseq (fun t h => ⟨h.1, h.2.1⟩) fun _ t h => ⟨h, ha⟩
    refine Triple.bind hrest fun o => ?_
    rw [Prog.zoom_bind]
    refine Triple.bind (echo_write (B := fun _ => Echo.Ended a o)
      (keeping_of_idle fun v g h => ⟨h.1.holds, h.1.idle⟩) (fun c => .inr rfl) ?_)
        fun _ => Triple.ret fun _ h => h
    rintro c g ⟨hv, ha⟩
    exact ⟨⟨hv.holds, fun _ => hv.idle⟩, iff_of_false (fun h => h rfl) hv.finishes.1,
      iff_of_false hv.finishes.1 ha, hv.finishes.2, hv.evaluates⟩

end

/-! ## Whole runs -/

/-- The outcomes in a log, oldest first. -/
def outcomes (fin : List (Dispatch × Option SensorOutcome)) : List SensorOutcome :=
  fin.filterMap Prod.snd

/-- **Starts and ends take turns**, and no start is refused. -/
def Alternates (l : List SensorOutcome) : Prop :=
  ∀ i o, l[i]? = some o → (o = .started ↔ i % 2 = 0) ∧ o ≠ .refused

/-- The outcomes go on alternating if the next one starts exactly where their
number is even. -/
theorem Alternates.append {l : List SensorOutcome} {o : SensorOutcome} (h : Alternates l)
    (ho : o = .started ↔ l.length % 2 = 0) (hne : o ≠ .refused) : Alternates (l ++ [o]) := by
  intro i o' hi
  rcases Nat.lt_trichotomy i l.length with hlt | rfl | hgt
  · rw [List.getElem?_append_left hlt] at hi
    exact h i o' hi
  · rw [List.getElem?_concat_length, Option.some.injEq] at hi
    subst hi
    exact ⟨ho, hne⟩
  · rw [List.getElem?_eq_none (by simp; omega)] at hi
    cases hi

/-- What holds of the log and the echo at every task boundary. -/
def Accounts (fin : List (Dispatch × Option SensorOutcome)) (v : Echo) (g : List Word16) : Prop :=
  v.Boundary g ∧ Alternates (outcomes fin) ∧ (v.active = 0 ↔ (outcomes fin).length % 2 = 0)

/-- **What holds where an execution returns**: a value that was evaluated
is that of the measurement just finished. -/
def Echo.Own (o : Option SensorOutcome) (v : Echo) (g : List Word16) : Prop :=
  ∀ pulseTicks, o = some (.evaluated pulseTicks) →
    v.active = 0 ∧ ∃ first second, g = [first, second] ∧ pulseTicks = second - first

/-- A capture leaves the account of the log as it was. -/
theorem keeping_accounts (fin : List (Dispatch × Option SensorOutcome)) :
    Keeping (Accounts fin) :=
  keeping_boundary (q := fun active => Alternates (outcomes fin) ∧
    (active = 0 ↔ (outcomes fin).length % 2 = 0))

/-- What an execution returns with outlasts the interrupts. -/
theorem keeping_returned (fin : List (Dispatch × Option SensorOutcome))
    (o : Option SensorOutcome) : Keeping fun v g => Accounts fin v g ∧ v.Own o g where
  holds _ _ h := h.1.1.1
  capture v g captureTick h hen := by
    refine ⟨(keeping_accounts fin).capture v g captureTick h.1 hen, fun pulseTicks ho => ?_⟩
    -- a value was evaluated, so the capture is idle and no interrupt is enabled
    have hidle := h.1.1.2 (h.2 pulseTicks ho).1
    rw [h.1.1.1.disabled hidle] at hen
    cases hen

/-- An execution without an outcome leaves the account as it was. -/
theorem accounts_none {fin : List (Dispatch × Option SensorOutcome)} {d : Dispatch} {v : Echo}
    {g : List Word16} (h : Accounts fin v g) : Accounts (fin ++ [(d, none)]) v g := by
  have hsame : outcomes (fin ++ [(d, none)]) = outcomes fin := by
    simp [outcomes]
  rw [Accounts, hsame]
  exact h

/-- An execution of `sensor_safety_task` adds its outcome. -/
theorem accounts_ended {fin : List (Dispatch × Option SensorOutcome)} {d : Dispatch} {v : Echo}
    {g : List Word16} {a : Byte} {o : SensorOutcome} (h : v.Ended a o g)
    (halternates : Alternates (outcomes fin)) (ha : a = 0 ↔ (outcomes fin).length % 2 = 0) :
    Accounts (fin ++ [(d, some o)]) v g := by
  have happend : outcomes (fin ++ [(d, some o)]) = outcomes fin ++ [o] := by
    simp [outcomes]
  rw [Accounts, happend]
  refine ⟨h.boundary, halternates.append (h.starts.trans ha) h.succeeds, ?_⟩
  rw [← not_iff_not, List.length_append, List.length_singleton]
  refine (h.active.trans (h.starts.trans ha)).trans ?_
  omega

/-- **Every execution keeps the account** of what was started and what was
made of it. -/
theorem acquisition_accounted :
    Accounted (acquisition.beside echoRecord echoRecord_refl) echoContract
      (fun fin => At (Accounts fin)) fun _ o => At (Echo.Own o) where
  env := by
    rintro x ⟨s, g⟩ t' h
    obtain ⟨s', hx, rfl⟩ := Option.map_eq_some_iff.mp h
    exact ⟨x, hx, rfl⟩
  stable fin := (keeping_accounts fin).stable
  task := by
    intro fin d
    have hprofiler : ∀ {P : Echo → List Word16 → Prop} (p : Prog Profiler Unit), Keeping P →
        Triple echoContract (At P) ((p.zoom Firmware.profilerLens).zoom capturesLens)
          fun _ => At P := fun p hP =>
      echo_kept hP (Prog.within_zoom _ p fun _ _ => rfl)
    have hcontrol : ∀ {p : Prog Control Unit}, (p.Within fun c c' => c'.echo = c.echo) →
        (p.zoom Firmware.controlLens).Within fun s s' => s'.control.echo = s.control.echo :=
      fun hp => hp.zoom _ fun s c hc => hc
    -- a task without an outcome, and then `sensor_safety_task`
    have hother : ∀ p : Prog Firmware Unit,
        p.Within (fun s s' => s'.control.echo = s.control.echo) →
        Triple echoContract (At (Accounts fin)) ((p.bind fun _ => .ret none).zoom capturesLens)
          fun o => At fun v g => Accounts (fin ++ [(d, o)]) v g ∧ v.Own o g := by
      intro p hp
      rw [Prog.zoom_bind]
      refine Triple.bind (echo_kept (keeping_accounts fin) hp) fun _ => Triple.ret fun t h => ?_
      exact ⟨accounts_none h, fun _ ho => by cases ho⟩
    have hbody : Triple echoContract (At (Accounts fin))
        ((d.task.outcome d.readings).zoom capturesLens)
          fun o => At fun v g => Accounts (fin ++ [(d, o)]) v g ∧ v.Own o g := by
      rcases d with ⟨_ | _ | _ | _, r⟩
      · exact hother _ (hcontrol (drivable_echo.actuatorService r.nowMs))
      · exact hother _ (hcontrol
          (drivable_echo.controlStep (fun _ _ => rfl) (fun _ => rfl) r.pind r.nowMs))
      · rintro ⟨s, g⟩ ⟨hb, halternates, hactive⟩
        have hsensor := sensorOutcome_triple (a := s.control.echo.active) r.adc
        have hrun : Triple echoContract
            (At fun v g => v.Boundary g ∧ v.active = s.control.echo.active)
            ((Task.outcome r .sensorSafety).zoom capturesLens) fun o => At fun v g =>
              Accounts (fin ++ [(⟨.sensorSafety, r⟩, o)]) v g ∧ v.Own o g := by
          rw [Task.outcome, Prog.zoom_bind, Prog.zoom_zoom]
          refine Triple.bind hsensor fun o => Triple.ret fun t h => ?_
          refine ⟨accounts_ended h halternates hactive, ?_⟩
          rintro pulseTicks ⟨rfl⟩
          have hactive' := mt h.active.mp SensorOutcome.noConfusion
          exact ⟨not_not.mp hactive', h.evaluates pulseTicks rfl⟩
        exact hrun (s, g) ⟨hb, rfl⟩
      · refine hother _ (within_communication (fun _ => rfl) (fun _ _ => rfl) (fun _ _ => rfl)
          (fun _ _ _ => rfl) (fun _ _ _ => rfl) (fun _ _ => rfl) (hcontrol ?_))
        exact drivable_echo.setSafeOutputs
    show Triple echoContract _ (d.outcome.zoom capturesLens) _
    simp only [Dispatch.outcome, Prog.bind_eq, Prog.zoom_bind]
    refine Triple.bind ((hprofiler _ (keeping_accounts fin)).conseq (fun t h => h.1)
      fun _ _ h => h) fun _ => Triple.bind hbody fun o => ?_
    exact Triple.bind (hprofiler _ (keeping_returned _ o)) fun _ => Triple.ret fun _ h => h

/-- The driver after `hcsr04_init`, and the task's flag as it was. -/
theorem echo_boot (b : Boot) (s : Firmware) : (s.boot b).control.echo =
    ⟨⟨0, 0, .idle, 0⟩, false, true, s.control.measurementActive⟩ := by
  let C : Contract Control := ⟨Eq, fun _ _ => True, fun _ => True⟩
  let C' : Contract Firmware := ⟨Eq, fun _ _ => True, fun _ => True⟩
  have hstable : ∀ P : Control → Prop, Stable C P := fun P t t' h he => he ▸ h
  have hkeeps : ∀ (v : Echo) {p : Prog Control Unit},
      (p.Within fun c c' => c'.echo = c.echo) →
      Triple C (fun c => c.echo = v) p fun _ c => c.echo = v := fun v _ hp =>
    hp.triple (by intro c; rfl) (hstable _) (fun _ _ => trivial)
      fun c c' h he => ⟨trivial, he.trans h⟩
  have hservo : (servoInit b.tcnt1).Within fun c c' => c'.echo = c.echo := by
    refine (drivable_echo.portbLow _).bind fun _ => Prog.within_write fun c => ?_
    have hbit : isSet (c.timsk1 ||| bit ocie1a) icie1 = isSet c.timsk1 icie1 := by
      rw [isSet_or_bit (by decide), decide_eq_false (by decide), Bool.or_false]
    simp only [Control.echo, hbit]
  -- the driver is set up in between, and nothing else touches it
  have hinit : Triple C (fun c => c.echo = s.control.echo) (controlInit b.tcnt1) fun _ c =>
      c.echo = ⟨⟨0, 0, .idle, 0⟩, false, true, s.control.measurementActive⟩ := by
    refine Triple.bind (hkeeps _ (drivable_echo.portbLow _)) fun _ => ?_
    refine Triple.bind (hkeeps _ (drivable_echo.portdHigh _)) fun _ => ?_
    refine Triple.bind (hkeeps _ (.write_bind (fun _ => rfl)
      drivable_echo.stepperStop)) fun _ => ?_
    refine Triple.bind (hkeeps _ drivable_echo.dcMotorStop) fun _ => ?_
    refine Triple.bind (hkeeps _ (drivable_echo.portbLow _)) fun _ => ?_
    refine Triple.bind (Triple.bind (hkeeps _ (drivable_echo.portdLow _)) fun _ =>
      Triple.bind (hkeeps _ (drivable_echo.portbLow _)) fun _ =>
        Triple.write (B := fun _ c =>
          c.echo = ⟨⟨0, 0, .idle, 0⟩, false, true, s.control.measurementActive⟩) (hstable _)
          (fun _ _ => trivial) ?_) fun _ => ?_
    · intro c hc
      have hactive : c.measurementActive = s.control.measurementActive :=
        congrArg Echo.active hc
      have hoff : isSet (c.timsk1 &&& ~~~bit icie1) icie1 = false := by
        rw [isSet_and_not_bit (by decide), decide_eq_true rfl, Bool.not_true, Bool.and_false]
      have hrising : isSet (bit ices1 ||| bit cs11) ices1 = true := by decide
      simp only [Control.echo, hactive, hoff, hrising]
      exact ⟨trivial, trivial⟩
    · refine Triple.bind (hkeeps _ hservo) fun _ => ?_
      refine Triple.bind (hkeeps _ drivable_echo.setSafeOutputs) fun _ => ?_
      exact hkeeps _ (.write_bind (fun _ => rfl) (Prog.within_write fun _ => rfl))
  have hmain : Triple C' (fun t => True ∧ t.control.echo = s.control.echo) (mainInit b)
      fun _ t => t.control.echo =
        ⟨⟨0, 0, .idle, 0⟩, false, true, s.control.measurementActive⟩ := by
    refine Triple.bind (hinit.component (C := C') (F := fun _ => True) Firmware.controlLens ?_ ?_
      fun _ _ _ => trivial) fun _ => ?_
    · rintro t t' - rfl
      exact ⟨rfl, trivial⟩
    · exact fun t c _ _ => ⟨trivial, trivial⟩
    · refine Triple.write (fun t t' h he => he ▸ h) (fun _ _ => trivial) ?_
      exact fun t h => ⟨trivial, h.2⟩
  exact hmain.uninterrupted ⟨trivial, rfl⟩ (uninterrupted_mainInit b s)

section

variable {b : Boot} {s₀ : Firmware} {c c₁ : AcquisitionConfig} {e : FirmwareEvent}
variable {es : List FirmwareEvent}

/-- The acquisition after `main` has initialised. -/
def acquisitionStart (b : Boot) (s : Firmware) : AcquisitionConfig := ⟨s.boot b, none, []⟩

/-- The captures since the last successful start of a run from reset. -/
def captures (b : Boot) (s₀ : Firmware) (es : List FirmwareEvent) : List Word16 :=
  acquisition.history (fun e c c' => echoRecord e c.state c'.state) (acquisitionStart b s₀) es []

/-- A configuration beside its captures. -/
abbrev withCaptures (g : List Word16) (c : AcquisitionConfig) :
    Config (Firmware × List Word16) Dispatch (Option SensorOutcome) :=
  liftConfig capturesLens (c.state, g) c

abbrev AcquisitionAccounts : Config (Firmware × List Word16) Dispatch (Option SensorOutcome) →
    Prop :=
  AccountedConfig echoContract (fun fin => At (Accounts fin)) fun _ o => At (Echo.Own o)

/-- **The account of a run from reset.** -/
theorem accounts_run (hstatic : s₀.control.measurementActive = 0)
    (h : acquisition.run (acquisitionStart b s₀) es = some c) :
    AcquisitionAccounts (withCaptures (captures b s₀ es) c) := by
  have hstart : AcquisitionAccounts (withCaptures [] (acquisitionStart b s₀)) := by
    show At (Accounts []) (s₀.boot b, [])
    rw [At, echo_boot, hstatic]
    refine ⟨⟨⟨rfl, fun h => absurd rfl h⟩, fun _ => rfl⟩, ?_, iff_of_true rfl rfl⟩
    intro i o hi
    simp [outcomes] at hi
  exact acquisition_accounted.staged.run hstart (run_beside echoRecord_refl h)

/-- **An acquisition returns only its own measurement.** In any run from
reset: a result that is ready is the difference of the two captures since
the last successful start, and the capture is idle with its interrupt
disabled; a value that an execution evaluates is the difference of those
two; starts and ends of a measurement take turns, and no start is refused;
and without a measurement in progress the capture is idle. -/
theorem acquisition_own (hstatic : s₀.control.measurementActive = 0)
    (h : acquisition.run (acquisitionStart b s₀) es = some c) :
    (c.state.control.hcsr04.resultReady ≠ 0 →
      c.state.control.hcsr04.captureState = .idle ∧
      isSet c.state.control.timsk1 icie1 = false ∧
      ∃ first second, captures b s₀ es = [first, second] ∧
        c.state.control.hcsr04.pulseTicks = second - first) ∧
    (∀ e c₁ d pulseTicks, acquisition.step c e = some c₁ →
      c₁.finished = c.finished ++ [(d, some (.evaluated pulseTicks))] →
      ∃ first second, captures b s₀ (es ++ [e]) = [first, second] ∧
        pulseTicks = second - first) ∧
    Alternates (outcomes c.finished) ∧
    (c.running = none → c.state.control.measurementActive = 0 →
      c.state.control.hcsr04.captureState = .idle) := by
  have hc := accounts_run hstatic h
  refine ⟨fun hready => (hc.inv fun fin t ht => ht.1.1).ready hready, ?_, ?_, ?_⟩
  · intro e c₁ d pulseTicks hstep hfin
    have hown := acquisition_accounted.completed hc
      (step_beside echoRecord_refl hstep) hfin
    have hsnoc : captures b s₀ (es ++ [e]) =
        echoRecord e c.state c₁.state (captures b s₀ es) := by
      rw [captures, history_append h]
      simp only [history, hstep]
      rfl
    rw [hsnoc]
    exact (hown pulseTicks rfl).2
  · obtain ⟨t, ht⟩ := hc.log
    exact ht.2.1
  · intro hidle hactive
    have hboundary := hc.idle (by simp only [liftConfig, hidle, Option.map_none])
    exact hboundary.1.2 hactive

/-- **An execution of the task in a run from reset** evaluates, if it does,
the difference of the captures that the run ends with. -/
theorem evaluated_eq {d : Dispatch} {es' : List FirmwareEvent} {c' : AcquisitionConfig}
    {pulseTicks : Word16} (hstatic : s₀.control.measurementActive = 0)
    (h : acquisition.run (acquisitionStart b s₀) es = some c) (hidle : c.running = none)
    (hes : ∀ e ∈ es', e.isDispatch = false)
    (h' : acquisition.run c (.dispatch d :: es') = some c') (hdone : c'.running = none)
    (hfin : c'.finished = c.finished ++ [(d, some (.evaluated pulseTicks))]) :
    ∃ first second, captures b s₀ (es ++ .dispatch d :: es') = [first, second] ∧
      pulseTicks = second - first := by
  have hc := (accounts_run hstatic h).idle (by simp only [liftConfig, hidle, Option.map_none])
  have hrun := run_beside echoRecord_refl (g := captures b s₀ es) h'
  obtain ⟨r, hr, -, hown⟩ := run_execution acquisition_accounted.env
    (acquisition_accounted.task c.finished d) (fun r => (keeping_returned _ r).stable)
    ⟨hc, rfl⟩ hes hrun (by simp only [liftConfig, hdone, Option.map_none])
  obtain rfl : r = some (.evaluated pulseTicks) := by
    have hsame : c.finished ++ [(d, r)] =
        c.finished ++ [(d, some (.evaluated pulseTicks))] := hr.symm.trans hfin
    simpa using hsame
  rw [captures, history_append h]
  exact (hown pulseTicks rfl).2

end

/-- An echo: the start of a measurement, and its two edges. -/
def echoRun (rise fall : Word16) : List FirmwareEvent :=
  .dispatch ⟨.sensorSafety, .zeroed⟩ :: List.replicate 11 .foreground ++
    [.env (.timer1Capt rise), .env (.timer1Capt fall)]

/-- A measurement of ten centimetres: the edges are 1160 ticks apart, and that
is what is evaluated. -/
theorem acquisition_own_echo :
    ∃ c, acquisition.run (acquisitionStart ⟨0, 0, 0, 0⟩ .zeroed) (echoRun 500 1660) = some c ∧
      ∃ first second, captures ⟨0, 0, 0, 0⟩ .zeroed (echoRun 500 1660) = [first, second] ∧
        c.state.control.hcsr04.pulseTicks = second - first := by
  have hrun : (acquisition.run (acquisitionStart ⟨0, 0, 0, 0⟩ .zeroed) (echoRun 500 1660)).map
      (fun c => (c.running.isNone, c.state.control.hcsr04.resultReady)) = some (true, 1) := by
    decide +kernel
  obtain ⟨c, hc, hend⟩ := Option.map_eq_some_iff.mp hrun
  have hready : c.state.control.hcsr04.resultReady ≠ 0 := by
    rw [(Prod.mk.inj hend).2]
    decide
  exact ⟨c, hc, ((acquisition_own rfl hc).1 hready).2.2⟩

end SentryCell
