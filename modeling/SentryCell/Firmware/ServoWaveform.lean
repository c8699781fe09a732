import SentryCell.Firmware.Tasks
import Mathlib.Data.List.Induction
/-!
# The servo signal in real time

`firmware/drivers/servo.c` on a clock that is never reset. The compare
register has sixteen bits of the tick at which the signal changes next; the
handler moves it on by a step that depends on the commanded pulse, which
may change between any two interrupts. `servo_waveform_exact`: the edges
lie where an ideal waveform has them.
-/

namespace SentryCell

open Foreground Word

/-! ## The timer and the driver -/

/-- What is observed of a run: the commands, and the compare matches by
what they leave on the pin. -/
inductive ServoRecord where
  | command (pulseMs : Byte)
  | rise (tick : ℕ)
  | fall (tick : ℕ)
  deriving DecidableEq, Repr

/-- **The servo driver on Timer1.** `ticks` is the time since reset, of
which `TCNT1` keeps sixteen bits; `log` is a history variable. -/
structure ServoTimer where
  ticks : ℕ
  /-- `OCF1A` in `TIFR1`: a compare match whose interrupt is still to come. -/
  ocf1a : Bool
  control : Control
  log : List ServoRecord

/-- What can happen next. -/
inductive ServoEvent where
  | tick
  | compa
  | setPulse (pulseMs : Byte)
  deriving DecidableEq, Repr

/-- The record of a compare match. -/
def compareRecord (tick : ℕ) (c : Control) : ServoRecord :=
  if isSet c.portb servoSignalBit then .rise tick else .fall tick

/-- **One event.** The interrupt comes at the tick that makes the counter
equal to `OCR1A`, before the next tick and among the commands of its own. -/
def ServoTimer.step (s : ServoTimer) : ServoEvent → Option ServoTimer
  | .tick =>
    if s.ocf1a then none
    else some { s with
      ticks := s.ticks + 1
      ocf1a := BitVec.ofNat 16 (s.ticks + 1) = s.control.servo.ocr1a }
  | .compa =>
    if s.ocf1a ∧ isSet s.control.timsk1 ocie1a then
      some { s with
        ocf1a := false
        control := timer1CompaVect s.control
        log := s.log ++ [compareRecord s.ticks (timer1CompaVect s.control)] }
    else none
  | .setPulse pulseMs =>
    ((servoSetPulseMs pulseMs).uninterrupted s.control).map fun r =>
      { s with control := r.2, log := s.log ++ [.command pulseMs] }

/-- **After `servo_init`** at some tick, from whatever the registers and
variables held. -/
def ServoTimer.init (tick : ℕ) (c : Control) : ServoTimer where
  ticks := tick
  ocf1a := false
  control := (((servoInit (BitVec.ofNat 16 tick)).uninterrupted c).map Prod.snd).getD c
  log := []

/-! ## The ideal waveform -/

/-- The pulse a record asks for. -/
def ServoRecord.pulse : ServoRecord → Option Byte
  | .command pulseMs =>
    if pulseMs = servoMinPulseMs ∨ pulseMs = servoMaxPulseMs then some pulseMs else none
  | .rise _ => none
  | .fall _ => none

/-- The last valid command, or the pulse of `servo_init`. -/
def lastPulse (log : List ServoRecord) : Byte :=
  (log.filterMap ServoRecord.pulse).getLastD servoMinPulseMs

/-- How long the signal is high after the commands of a log. -/
def highTicks (log : List ServoRecord) : ℕ := if lastPulse log = servoMaxPulseMs then 4000 else 2000

/-- Whether the signal is high, and when it changes. -/
inductive ServoPhase where
  | low (rise : ℕ)
  | high (rise fall : ℕ)

/-- The next edge of a phase. -/
def ServoPhase.edge : ServoPhase → ℕ
  | .low rise => rise
  | .high _ fall => fall

/-- Whether the signal is high in a phase. -/
def ServoPhase.isHigh : ServoPhase → Bool
  | .low _ => false
  | .high _ _ => true

/-- **The ideal waveform** with its first rising edge at `first`. The
length of a high phase is set at its rising edge, and frames are 40000
ticks. -/
inductive Waveform (first : ℕ) : List ServoRecord → ServoPhase → Prop
  | start : Waveform first [] (.low first)
  | command {log : List ServoRecord} {phase : ServoPhase} (pulseMs : Byte)
      (h : Waveform first log phase) : Waveform first (log ++ [.command pulseMs]) phase
  | rise {log : List ServoRecord} {tick : ℕ} (h : Waveform first log (.low tick)) :
      Waveform first (log ++ [.rise tick]) (.high tick (tick + highTicks log))
  | fall {log : List ServoRecord} {tick fall : ℕ} (h : Waveform first log (.high tick fall)) :
      Waveform first (log ++ [.fall fall]) (.low (tick + 40000))

/-- The rising edges of a log. -/
def rises (log : List ServoRecord) : List ℕ :=
  log.filterMap fun r => match r with
    | .rise tick => some tick
    | _ => none

/-- Whether a record is a command. -/
def ServoRecord.isCommand : ServoRecord → Bool
  | .command _ => true
  | _ => false

variable {first : ℕ} {log log₁ log₂ : List ServoRecord} {phase : ServoPhase} {r : ServoRecord}
variable {time : ℕ}

/-- A command counts if it is one of the two pulses, and is ignored
otherwise. -/
theorem lastPulse_command (pulseMs : Byte) : lastPulse (log ++ [.command pulseMs]) =
    if pulseMs = servoMinPulseMs ∨ pulseMs = servoMaxPulseMs then pulseMs else lastPulse log := by
  by_cases hvalid : pulseMs = servoMinPulseMs ∨ pulseMs = servoMaxPulseMs
  · have hpulse : ServoRecord.pulse (.command pulseMs) = some pulseMs := if_pos hvalid
    simp [lastPulse, List.filterMap_append, hpulse, if_pos hvalid]
  · have hpulse : ServoRecord.pulse (.command pulseMs) = none := if_neg hvalid
    simp [lastPulse, List.filterMap_append, hpulse, if_neg hvalid]

/-- An edge of the pin commands no pulse. -/
theorem lastPulse_edge (h : r.isCommand = false) : lastPulse (log ++ [r]) = lastPulse log := by
  rcases r with pulseMs | tick | tick
  · cases h
  · simp [lastPulse, ServoRecord.pulse]
  · simp [lastPulse, ServoRecord.pulse]

/-- No pulse is longer than two milliseconds. -/
theorem highTicks_le (log : List ServoRecord) : highTicks log ≤ 4000 := by
  unfold highTicks
  split <;> omega

/-- Every pulse keeps the pin high for some ticks. -/
theorem highTicks_pos (log : List ServoRecord) : 0 < highTicks log := by
  unfold highTicks
  split <;> omega

/-- **What was drawn last** of an ideal waveform. -/
theorem Waveform.last : Waveform first (log ++ [r]) phase →
    match r with
    | .command _ => Waveform first log phase
    | .rise tick => Waveform first log (.low tick) ∧ phase = .high tick (tick + highTicks log)
    | .fall tick => ∃ begun, Waveform first log (.high begun tick) ∧ phase = .low (begun + 40000) := by
  intro h
  generalize hall : log ++ [r] = all at h
  rcases h with _ | ⟨pulseMs, h⟩ | h | h
  · simp at hall
  · obtain ⟨rfl, hr⟩ := List.append_inj' hall rfl
    obtain rfl := List.singleton_inj.mp hr
    exact h
  · obtain ⟨rfl, hr⟩ := List.append_inj' hall rfl
    obtain rfl := List.singleton_inj.mp hr
    exact ⟨h, rfl⟩
  · obtain ⟨rfl, hr⟩ := List.append_inj' hall rfl
    obtain rfl := List.singleton_inj.mp hr
    exact ⟨_, h, rfl⟩

/-- What was drawn before some record is a waveform as well. -/
theorem Waveform.before (h : Waveform first (log₁ ++ log₂) phase) :
    ∃ phase₁, Waveform first log₁ phase₁ := by
  induction log₂ using List.reverseRecOn generalizing phase with
  | nil => exact ⟨phase, by simpa using h⟩
  | append_singleton log₂ r ih =>
    rw [← List.append_assoc] at h
    have hlast := h.last
    rcases r with pulseMs | tick | tick
    · exact ih hlast
    · exact ih hlast.1
    · obtain ⟨begun, h', -⟩ := hlast
      exact ih h'

/-- **Commands draw nothing**: the waveform is that of the edges before
them. -/
theorem Waveform.of_commands (hcommands : ∀ r ∈ log₂, r.isCommand = true)
    (h : Waveform first (log₁ ++ log₂) phase) : Waveform first log₁ phase := by
  induction log₂ using List.reverseRecOn generalizing phase with
  | nil => simpa using h
  | append_singleton log₂ r ih =>
    rw [← List.append_assoc] at h
    have hr := hcommands r (by simp)
    have hlast := h.last
    rcases r with pulseMs | tick | tick
    · exact ih (fun r hr => hcommands r (by simp [hr])) hlast
    · cases hr
    · cases hr

/-- The phase after a rising edge and commands. -/
theorem Waveform.after_rise (hcommands : ∀ r ∈ log₂, r.isCommand = true)
    (h : Waveform first (log₁ ++ .rise time :: log₂) phase) :
    phase = .high time (time + highTicks log₁) := by
  have h' : Waveform first ((log₁ ++ [.rise time]) ++ log₂) phase := by simpa using h
  exact (h'.of_commands hcommands).last.2

/-- **A high phase is as long as the pulse commanded before it.** -/
theorem Waveform.fall_eq {log₃ : List ServoRecord} {fall : ℕ}
    (hcommands : ∀ r ∈ log₂, r.isCommand = true)
    (h : Waveform first (log₁ ++ .rise time :: log₂ ++ .fall fall :: log₃) phase) :
    fall = time + highTicks log₁ := by
  have h' : Waveform first ((log₁ ++ .rise time :: log₂ ++ [.fall fall]) ++ log₃) phase := by
    simpa using h
  obtain ⟨phase₁, hfall⟩ := h'.before
  obtain ⟨begun, hhigh, -⟩ := hfall.last
  injection hhigh.after_rise hcommands

/-- **And a frame as long as any other.** -/
theorem Waveform.rise_eq {log₃ log₄ : List ServoRecord} {fall next : ℕ}
    (hcommands : ∀ r ∈ log₂, r.isCommand = true) (hcommands' : ∀ r ∈ log₃, r.isCommand = true)
    (h : Waveform first
      (log₁ ++ .rise time :: log₂ ++ .fall fall :: log₃ ++ .rise next :: log₄) phase) :
    next = time + 40000 := by
  have h' : Waveform first ((log₁ ++ .rise time :: log₂ ++ .fall fall :: log₃ ++
      [.rise next]) ++ log₄) phase := by
    simpa using h
  obtain ⟨phase₁, hrise⟩ := h'.before
  have hlow : Waveform first ((log₁ ++ .rise time :: log₂ ++ [.fall fall]) ++ log₃)
      (.low next) := by
    simpa using hrise.last.1
  obtain ⟨begun, hhigh, hnext⟩ := (hlow.of_commands hcommands').last
  injection hhigh.after_rise hcommands with hbegun
  injection hnext with hnext
  rw [hnext, hbegun]

/-- The rising edges of a phase that is `n` frames in. -/
def ServoPhase.Frames (first n : ℕ) : ServoPhase → Prop
  | .low rise => rise = first + 40000 * n
  | .high rise _ => rise + 40000 = first + 40000 * n

/-- **The rising edges are 40000 ticks apart.** -/
theorem Waveform.rises_eq (h : Waveform first log phase) :
    ∃ n, rises log = (List.range n).map (fun k => first + 40000 * k) ∧ phase.Frames first n := by
  induction h with
  | start => exact ⟨0, rfl, rfl⟩
  | command pulseMs _ ih =>
    obtain ⟨n, hrises, hframes⟩ := ih
    exact ⟨n, by simpa [rises] using hrises, hframes⟩
  | @rise log tick _ ih =>
    obtain ⟨n, hrises, hframes⟩ := ih
    have htick : tick = first + 40000 * n := hframes
    refine ⟨n + 1, ?_, ?_⟩
    · rw [List.range_succ, List.map_append, ← hrises]
      simp [rises, htick]
    · show tick + 40000 = _
      omega
  | @fall log tick fall _ ih =>
    obtain ⟨n, hrises, hframes⟩ := ih
    exact ⟨n, by simpa [rises] using hrises, hframes⟩

/-! ## The driver draws the waveform -/

/-- What the driver keeps in a phase: whether the signal is high, and the
pulse that the high phase was begun with. -/
def ServoPhase.Latched (servo : Servo) : ServoPhase → Prop
  | .low _ => servo.signalHigh = 0
  | .high rise fall => servo.signalHigh ≠ 0 ∧
      fall = rise + if servo.activePulseMs = servoMaxPulseMs then 4000 else 2000

/-- How far a phase can be ahead of the clock. -/
def ServoPhase.Near (ticks : ℕ) : ServoPhase → Prop
  | .low rise => ticks ≤ rise ∧ rise ≤ ticks + 40000
  | .high rise fall => rise ≤ ticks ∧ ticks ≤ fall ∧ fall ≤ rise + 4000

/-- **The driver in a phase of the ideal waveform.** The compare register
has sixteen bits of the next edge, which is less than a turn of the counter
away. -/
structure ServoTimer.InPhase (first : ℕ) (s : ServoTimer) (phase : ServoPhase) : Prop where
  drawn : Waveform first s.log phase
  enabled : isSet s.control.timsk1 ocie1a = true
  pulse : s.control.servo.pulseMs = lastPulse s.log
  pin : isSet s.control.portb servoSignalBit = phase.isHigh
  latched : phase.Latched s.control.servo
  compare : s.control.servo.ocr1a = BitVec.ofNat 16 phase.edge
  near : phase.Near s.ticks
  flag : s.ocf1a = decide (s.ticks = phase.edge)

/-- The next edge is at most a frame away. -/
theorem ServoPhase.Near.le_edge {ticks : ℕ} (h : phase.Near ticks) :
    ticks ≤ phase.edge ∧ phase.edge ≤ ticks + 40000 := by
  rcases phase with rise | ⟨rise, fall⟩
  · exact h
  · have h₁ : rise ≤ ticks := h.1
    have h₂ : fall ≤ rise + 4000 := h.2.2
    refine ⟨h.2.1, ?_⟩
    show fall ≤ ticks + 40000
    omega

variable {s s' : ServoTimer}

/-- Time passes: the counter meets the register at the next edge, not
before. -/
theorem ServoTimer.InPhase.tick (h : s.InPhase first phase) (hs : s.step .tick = some s') :
    s'.InPhase first phase := by
  simp only [ServoTimer.step, Option.ite_none_left_eq_some, Option.some.injEq] at hs
  obtain ⟨hflag, rfl⟩ := hs
  have hne : s.ticks ≠ phase.edge := by simpa [h.flag] using hflag
  obtain ⟨hle, hfar⟩ := h.near.le_edge
  have hlt : s.ticks + 1 ≤ phase.edge := by omega
  refine { h with near := ?_, flag := ?_ }
  · rcases phase with rise | ⟨rise, fall⟩
    · exact ⟨hlt, by show rise ≤ s.ticks + 1 + 40000; have := h.near.2; omega⟩
    · exact ⟨Nat.le_succ_of_le h.near.1, hlt, h.near.2.2⟩
  · show decide (_ = s.control.servo.ocr1a) = _
    rw [h.compare, decide_eq_decide]
    exact ofNat_eq_ofNat_iff hlt (by omega)

/-- **A command changes the commanded pulse**, if it is valid, and nothing
else. -/
theorem uninterrupted_servoSetPulseMs (pulseMs : Byte) (c : Control) :
    (servoSetPulseMs pulseMs).uninterrupted c = some ((),
      { c with servo := { c.servo with pulseMs :=
          if pulseMs = servoMinPulseMs ∨ pulseMs = servoMaxPulseMs then pulseMs
          else c.servo.pulseMs } }) := by
  unfold servoSetPulseMs
  split <;> rfl

/-- A command changes the pulses that are still to come and not the phase. -/
theorem ServoTimer.InPhase.setPulse {pulseMs : Byte} (h : s.InPhase first phase)
    (hs : s.step (.setPulse pulseMs) = some s') : s'.InPhase first phase := by
  simp only [ServoTimer.step, uninterrupted_servoSetPulseMs, Option.map_some,
    Option.some.injEq] at hs
  subst hs
  refine { h with drawn := h.drawn.command pulseMs, pulse := ?_ }
  rw [lastPulse_command, ← h.pulse]

/-- The interrupt at a rising edge latches the pulse. -/
theorem timer1CompaVect_rise {c : Control} (h : c.servo.signalHigh = 0) :
    timer1CompaVect c = { c with
      portb := c.portb ||| bit servoSignalBit
      servo := { c.servo with
        signalHigh := 1
        activePulseMs := c.servo.pulseMs
        ocr1a := c.servo.ocr1a +
          BitVec.ofNat 16 (if c.servo.pulseMs = servoMaxPulseMs then 4000 else 2000) } } := by
  simp only [timer1CompaVect, if_pos h]
  by_cases hp : c.servo.pulseMs = servoMaxPulseMs
  · simp only [if_pos hp]
    rfl
  · simp only [if_neg hp]
    rfl

/-- And at a falling edge goes by the latched one. -/
theorem timer1CompaVect_fall {c : Control} (h : c.servo.signalHigh ≠ 0) :
    timer1CompaVect c = { c with
      portb := c.portb &&& ~~~bit servoSignalBit
      servo := { c.servo with
        signalHigh := 0
        ocr1a := c.servo.ocr1a + BitVec.ofNat 16
          (40000 - if c.servo.activePulseMs = servoMaxPulseMs then 4000 else 2000) } } := by
  simp only [timer1CompaVect, if_neg h]
  by_cases hp : c.servo.activePulseMs = servoMaxPulseMs
  · simp only [if_pos hp]
    rfl
  · simp only [if_neg hp]
    rfl

/-- **A compare match is an edge of the waveform.** -/
theorem ServoTimer.InPhase.compa (h : s.InPhase first phase) (hs : s.step .compa = some s') :
    ∃ phase', s'.InPhase first phase' := by
  simp only [ServoTimer.step, Option.ite_none_right_eq_some, Option.some.injEq] at hs
  obtain ⟨⟨hflag, -⟩, rfl⟩ := hs
  have hedge : s.ticks = phase.edge := by simpa [h.flag] using hflag
  rcases phase with rise | ⟨rise, fall⟩
  · -- a rising edge
    have hlow : s.control.servo.signalHigh = 0 := h.latched
    have htick : s.ticks = rise := hedge
    have hpin : isSet (s.control.portb ||| bit servoSignalBit) servoSignalBit = true := by
      rw [isSet_or_bit (by decide)]
      simp
    have hhigh : highTicks s.log =
        if s.control.servo.pulseMs = servoMaxPulseMs then 4000 else 2000 := by
      rw [highTicks, ← h.pulse]
    have hone : (1 : Byte) ≠ 0 := by decide
    have hpos := highTicks_pos s.log
    have hle := highTicks_le s.log
    rw [timer1CompaVect_rise hlow, ← hhigh]
    refine ⟨.high rise (rise + highTicks s.log), ?_⟩
    refine ⟨?_, h.enabled, ?_, hpin, ⟨hone, by rw [hhigh]⟩, ?_, ?_, ?_⟩
    · show Waveform first (s.log ++ [compareRecord s.ticks _]) _
      rw [compareRecord, if_pos hpin, htick]
      exact h.drawn.rise
    · show s.control.servo.pulseMs = lastPulse (s.log ++ [compareRecord s.ticks _])
      rw [compareRecord, if_pos hpin, lastPulse_edge rfl, h.pulse]
    · show s.control.servo.ocr1a + _ = BitVec.ofNat 16 (rise + highTicks s.log)
      rw [h.compare, BitVec.ofNat_add]
      rfl
    · exact ⟨Nat.le_of_eq htick.symm, by show s.ticks ≤ rise + highTicks s.log; omega, by omega⟩
    · show false = decide (s.ticks = rise + highTicks s.log)
      rw [eq_comm, decide_eq_false_iff_not]
      omega
  · -- a falling edge
    obtain ⟨hnear, -, -⟩ := h.near
    obtain ⟨hsignal, hlength⟩ := h.latched
    have htick : s.ticks = fall := hedge
    have hpin : ¬ isSet (s.control.portb &&& ~~~bit servoSignalBit) servoSignalBit = true := by
      rw [isSet_and_not_bit (by decide)]
      simp
    rw [timer1CompaVect_fall hsignal]
    obtain ⟨width, hwidth⟩ : ∃ width, width =
        if s.control.servo.activePulseMs = servoMaxPulseMs then 4000 else 2000 := ⟨_, rfl⟩
    have hbound : 0 < width ∧ width ≤ 4000 := by
      rw [hwidth]
      split <;> omega
    rw [← hwidth] at hlength ⊢
    refine ⟨.low (rise + 40000), ?_⟩
    refine ⟨?_, h.enabled, ?_, Bool.not_eq_true _ ▸ hpin, rfl, ?_, ?_, ?_⟩
    · show Waveform first (s.log ++ [compareRecord s.ticks _]) _
      rw [compareRecord, if_neg hpin, htick]
      exact h.drawn.fall
    · show s.control.servo.pulseMs = lastPulse (s.log ++ [compareRecord s.ticks _])
      rw [compareRecord, if_neg hpin, lastPulse_edge rfl, h.pulse]
    · show s.control.servo.ocr1a + _ = BitVec.ofNat 16 (rise + 40000)
      rw [h.compare]
      show BitVec.ofNat 16 fall + _ = _
      rw [← BitVec.ofNat_add]
      congr 1
      omega
    · show s.ticks ≤ rise + 40000 ∧ rise + 40000 ≤ s.ticks + 40000
      omega
    · show false = decide (s.ticks = rise + 40000)
      rw [eq_comm, decide_eq_false_iff_not]
      omega

/-- The first edge comes one initial delay after `servo_init`. -/
theorem inPhase_init (t₀ : ℕ) (c : Control) :
    (ServoTimer.init t₀ c).InPhase (t₀ + 2000) (.low (t₀ + 2000)) where
  drawn := .start
  enabled := by
    show isSet (c.timsk1 ||| bit ocie1a) ocie1a = true
    rw [isSet_or_bit (by decide)]
    simp
  pulse := rfl
  pin := by
    show isSet (c.portb &&& ~~~bit servoSignalBit) servoSignalBit = false
    rw [isSet_and_not_bit (by decide)]
    simp
  latched := rfl
  compare := (BitVec.ofNat_add t₀ 2000).symm
  near := ⟨Nat.le_add_right t₀ 2000, by show t₀ + 2000 ≤ t₀ + 40000; omega⟩
  flag := by
    show false = decide (t₀ = t₀ + 2000)
    rw [eq_comm, decide_eq_false_iff_not]
    omega

/-- **Every run draws the waveform**, up to the phase that it is in. -/
theorem inPhase_of_run {t₀ : ℕ} {c : Control} {es : List ServoEvent}
    (h : Runs.run ServoTimer.step (.init t₀ c) es = some s) :
    ∃ phase, s.InPhase (t₀ + 2000) phase := by
  refine Runs.kept (I := fun s => ∃ phase, s.InPhase (t₀ + 2000) phase) ?_ ⟨_, inPhase_init t₀ c⟩ h
  rintro s e s' ⟨phase, hphase⟩ hs
  rcases e with _ | _ | pulseMs
  · exact ⟨phase, hphase.tick hs⟩
  · exact hphase.compa hs
  · exact ⟨phase, hphase.setPulse hs⟩

/-! ## The signal -/

/-- Whether the signal is high after what was observed. -/
def lastLevel (log : List ServoRecord) : Bool :=
  (log.filterMap fun r => match r with
    | .command _ => none
    | .rise _ => some true
    | .fall _ => some false).getLastD false

/-- **An exact waveform**, with its first rising edge at `first`. -/
structure ExactWaveform (first : ℕ) (s : ServoTimer) : Prop where
  /-- The rising edges so far are those of every frame that has begun. -/
  rising : ∃ n, rises s.log = (List.range n).map (fun k => first + 40000 * k) ∧
    (s.ocf1a = false → ∀ k, k < n ↔ first + 40000 * k ≤ s.ticks)
  /-- A high phase lasts as long as the last valid command before it says,
  whatever is commanded during it. -/
  falling : ∀ log₁ log₂ log₃ rise fall, (∀ r ∈ log₂, r.isCommand = true) →
    s.log = log₁ ++ .rise rise :: log₂ ++ .fall fall :: log₃ → fall = rise + highTicks log₁
  /-- So does the high phase that is still going on. -/
  high : ∀ log₁ log₂ rise, (∀ r ∈ log₂, r.isCommand = true) →
    s.log = log₁ ++ .rise rise :: log₂ → s.ticks ≤ rise + highTicks log₁ ∧
      (s.ocf1a = false → s.ticks < rise + highTicks log₁)
  /-- A frame ends where it would have, whatever is commanded in it. -/
  frame : ∀ log₁ log₂ log₃ log₄ rise fall next, (∀ r ∈ log₂, r.isCommand = true) →
    (∀ r ∈ log₃, r.isCommand = true) →
    s.log = log₁ ++ .rise rise :: log₂ ++ .fall fall :: log₃ ++ .rise next :: log₄ →
    next = rise + 40000
  /-- The pin is what the last edge made it. -/
  pin : isSet s.control.portb servoSignalBit = lastLevel s.log
  /-- The timer never stops. -/
  goesOn : (s.step .tick).isSome ∨ (s.step .compa).isSome

/-- The level that the pin was last given is the one of the phase. -/
theorem Waveform.lastLevel_eq (h : Waveform first log phase) : lastLevel log = phase.isHigh := by
  induction h with
  | start => rfl
  | command pulseMs _ ih => simpa [lastLevel] using ih
  | rise _ _ => simp [lastLevel, ServoPhase.isHigh]
  | fall _ _ => simp [lastLevel, ServoPhase.isHigh]

/-- Every frame that has begun is one that has been counted. -/
theorem ServoTimer.InPhase.lt_frames {n : ℕ} (h : s.InPhase first phase)
    (hframes : phase.Frames first n) (hflag : s.ocf1a = false) (k : ℕ) :
    k < n ↔ first + 40000 * k ≤ s.ticks := by
  have hne : s.ticks ≠ phase.edge := by simpa [hflag] using h.flag
  rcases phase with rise | ⟨rise, fall⟩
  · obtain ⟨hle, hfar⟩ := h.near
    have hrise : rise = first + 40000 * n := hframes
    have hne' : s.ticks ≠ rise := hne
    omega
  · obtain ⟨hbegun, hle, hfall⟩ := h.near
    have hrise : rise + 40000 = first + 40000 * n := hframes
    omega

/-- **The servo waveform is exact.** After `servo_init` at any tick, in any
run of ticks, compare interrupts and commands: the signal rises every 40000
ticks of a clock that is never reset, and for ever; it falls 4000 or 2000
ticks later, by the last valid command before the rise; and no command
changes the phase or the frame that it comes in. -/
theorem servo_waveform_exact (t₀ : ℕ) (c : Control) (es : List ServoEvent) (s : ServoTimer)
    (h : Runs.run ServoTimer.step (.init t₀ c) es = some s) : ExactWaveform (t₀ + 2000) s := by
  obtain ⟨phase, hphase⟩ := inPhase_of_run h
  have hdrawn := hphase.drawn
  refine ⟨?_, ?_, ?_, ?_, ?_, ?_⟩
  · obtain ⟨n, hrises, hframes⟩ := hdrawn.rises_eq
    exact ⟨n, hrises, fun hflag k => hphase.lt_frames hframes hflag k⟩
  · intro log₁ log₂ log₃ rise fall hcommands hlog
    rw [hlog] at hdrawn
    exact hdrawn.fall_eq hcommands
  · intro log₁ log₂ rise hcommands hlog
    rw [hlog] at hdrawn
    obtain rfl := hdrawn.after_rise hcommands
    have hle : s.ticks ≤ rise + highTicks log₁ := hphase.near.2.1
    refine ⟨hle, fun hflag => Nat.lt_of_le_of_ne hle ?_⟩
    have hne : s.ticks ≠ (ServoPhase.high rise (rise + highTicks log₁)).edge := by
      simpa [hflag] using hphase.flag
    exact hne
  · intro log₁ log₂ log₃ log₄ rise fall next hcommands hcommands' hlog
    rw [hlog] at hdrawn
    exact hdrawn.rise_eq hcommands hcommands'
  · rw [hphase.pin, hdrawn.lastLevel_eq]
  · rcases hflag : s.ocf1a with _ | _
    · exact .inl (by simp [ServoTimer.step, hflag])
    · exact .inr (by simp [ServoTimer.step, hflag, hphase.enabled])

/-- A frame over a turn of the counter, with a command in its high phase. -/
def servoFrame : List ServoEvent :=
  List.replicate 2000 .tick ++ [.compa, .setPulse 2, .tick] ++ List.replicate 1999 .tick ++ [.compa]

/-- The high phase is the one that was begun. -/
theorem servo_waveform_exact_frame :
    ∃ s, Runs.run ServoTimer.step (.init 65000 .zeroed) servoFrame = some s ∧
      s.log = [.rise 67000, .command 2, .fall 69000] ∧ ExactWaveform 67000 s := by
  have hrun : (Runs.run ServoTimer.step (.init 65000 .zeroed) servoFrame).map
      (fun s => s.log) = some [.rise 67000, .command 2, .fall 69000] := by
    decide +kernel
  obtain ⟨s, hs, hlog⟩ := Option.map_eq_some_iff.mp hrun
  exact ⟨s, hs, hlog, servo_waveform_exact 65000 .zeroed servoFrame s hs⟩

end SentryCell
