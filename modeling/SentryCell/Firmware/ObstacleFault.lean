import SentryCell.Firmware.Acquisition
/-!
# When an echo raises the critical fault

An execution that evaluates a pulse in `ACTIVE` enters `SAFE_STATE` exactly
if the pulse it reads is of 1 to 20 cm. The pulse is the difference of two
captures modulo 2^16, so `fault_exact` is where that agrees with the true
distance between the edges.
-/

namespace SentryCell

open Foreground Word Machine

/-- An execution among the interrupts, for the state and the fault. -/
def faultContract : Contract Firmware where
  rely s s' := s'.control.systemState = s.control.systemState ∧
    s'.control.lastFault = s.control.lastFault
  guar _ _ := True
  inv _ := True

/-- The critical fault is raised and retained. -/
def Firmware.CriticalRaised (s : Firmware) : Prop :=
  s.control.systemState = .safeState ∧ s.control.lastFault = .obstacleCritical

instance (s : Firmware) : Decidable s.CriticalRaised := inferInstanceAs (Decidable (_ ∧ _))

/-- A distance of 1 to 20 cm, in ticks. -/
def NearTicks (n : ℕ) : Prop := 1 ≤ n / 116 ∧ n / 116 ≤ 20

/-- In ticks the near range is 116 to 2435: one to twenty centimetres,
rounded down. -/
theorem nearTicks_iff {n : ℕ} : NearTicks n ↔ 116 ≤ n ∧ n ≤ 2435 := by
  unfold NearTicks
  omega

/-- **What the task takes for a near obstacle.** -/
theorem critical_iff (pulseTicks : Word16) :
    safetyObstacleIsCritical (if pulseTicks / hcsr04TicksPerCentimeter > 0 then 1 else 0)
      (pulseTicks / hcsr04TicksPerCentimeter) ≠ 0 ↔ NearTicks pulseTicks.toNat := by
  have hdiv : (pulseTicks / hcsr04TicksPerCentimeter).toNat = pulseTicks.toNat / 116 := by
    rw [BitVec.toNat_udiv]
    rfl
  have hpos : pulseTicks / hcsr04TicksPerCentimeter > 0 ↔ 1 ≤ pulseTicks.toNat / 116 := by
    rw [gt_iff_lt, BitVec.lt_def, hdiv]
    exact Iff.rfl
  have hnear : pulseTicks / hcsr04TicksPerCentimeter ≤ safetyObstacleThresholdCm ↔
      pulseTicks.toNat / 116 ≤ 20 := by
    rw [BitVec.le_def, hdiv]
    exact Iff.rfl
  unfold safetyObstacleIsCritical NearTicks
  rw [← hpos, ← hnear]
  by_cases h : pulseTicks / hcsr04TicksPerCentimeter > 0
  · by_cases h' : pulseTicks / hcsr04TicksPerCentimeter ≤ safetyObstacleThresholdCm
    · rw [if_pos h, if_pos ⟨by decide, h, h'⟩]
      exact iff_of_true (by decide) ⟨h, h'⟩
    · rw [if_neg fun q => h' q.2.2]
      exact iff_of_false (by decide) fun q => h' q.2
  · rw [if_neg h, if_neg fun q => h q.2.1]
    exact iff_of_false (by decide) fun q => h q.1

/-- Every assertion on the state machine and its last fault is stable. -/
theorem stable_fault (P : SystemState → DiagFault → Prop) :
    Stable faultContract fun s => P s.control.systemState s.control.lastFault := by
  rintro s s' h ⟨hs, hf⟩
  rw [hs, hf]
  exact h

/-- No interrupt writes the state or the last fault. -/
theorem fault_of_handler {x : Interrupt} {s s' : Firmware} (h : x.handler s = some s') :
    faultContract.rely s s' := by
  have hcompa : ∀ c, (timer1CompaVect c).systemState = c.systemState ∧
      (timer1CompaVect c).lastFault = c.lastFault := by
    intro c
    unfold timer1CompaVect
    split
    · exact ⟨rfl, rfl⟩
    · exact ⟨rfl, rfl⟩
  have hcapt : ∀ tick c, (timer1CaptVect tick c).systemState = c.systemState ∧
      (timer1CaptVect tick c).lastFault = c.lastFault := by
    intro tick c
    unfold timer1CaptVect
    split
    · exact ⟨rfl, rfl⟩
    · exact ⟨rfl, rfl⟩
    · exact ⟨rfl, rfl⟩
  obtain ⟨byte, rfl⟩ | rfl | rfl | ⟨tick, rfl⟩ | rfl := handler_cases h
  · exact ⟨rfl, rfl⟩
  · exact ⟨rfl, rfl⟩
  · exact hcompa _
  · exact hcapt tick _
  · exact ⟨rfl, rfl⟩

/-- Any program, where nothing is said of its result. -/
theorem fault_trivial {α : Type} (p : Prog Firmware α) :
    Triple faultContract (fun _ => True) p fun _ _ => True := by
  have hwithin : p.Within fun _ _ => True := by
    have hzoom := Prog.within_zoom (Lens.id Firmware) p (S := fun _ _ => True)
      fun _ _ => trivial
    rwa [Prog.zoom_id] at hzoom
  exact hwithin.triple (fun _ => trivial) (.const True) (fun _ _ => trivial)
    fun _ _ _ _ => ⟨trivial, trivial⟩

/-- A program that leaves the state and the fault alone. -/
abbrev KeepsFault {α : Type} (p : Prog Firmware α) : Prop :=
  p.Within fun s s' => s'.control.systemState = s.control.systemState ∧
    s'.control.lastFault = s.control.lastFault

/-- A program that keeps the fault keeps every assertion on it and on the
state. -/
theorem fault_kept {α : Type} {p : Prog Firmware α} (hp : KeepsFault p)
    (P : SystemState → DiagFault → Prop) :
    Triple faultContract (fun s => P s.control.systemState s.control.lastFault) p
      fun _ s => P s.control.systemState s.control.lastFault := by
  refine hp.triple (fun s => ⟨rfl, rfl⟩) (stable_fault P) (fun _ _ => trivial) ?_
  rintro s s' h ⟨hs, hf⟩
  rw [hs, hf]
  exact ⟨trivial, h⟩

/-- **The verdict on a pulse**, read in `ACTIVE`. -/
theorem judgePulse_fault (pulseTicks : Word16) :
    Triple faultContract (fun s => s.control.systemState = .active)
      ((judgePulse pulseTicks).zoom Firmware.controlLens)
      fun _ s => s.CriticalRaised ↔ NearTicks pulseTicks.toNat := by
  have hstable := stable_fault
  simp only [judgePulse, systemFsmGetState, diagnosticsRecordFault, systemFsmEvent,
    Prog.bind_eq, Prog.zoom_bind, Prog.zoom_read]
  refine Triple.read_bind (B := fun state s => s.control.systemState = .active ∧ state = .active)
    (hstable fun state _ => state = .active) (fun _ _ => trivial) (fun _ => trivial)
    (fun s h => ⟨h, h⟩) fun state => ?_
  by_cases hnear : NearTicks pulseTicks.toNat
  · have hcritical := (critical_iff pulseTicks).mpr hnear
    by_cases hstate : state = .active
    · rw [if_pos ⟨hstate, hcritical⟩, Prog.zoom_bind, Prog.zoom_write, Prog.zoom_write]
      refine Triple.write_bind (B := fun s => s.control.systemState = .active ∧
          s.control.lastFault = .obstacleCritical)
        (hstable fun st _ => st = .active ∧ state = .active) (fun _ _ => trivial) ?_ ?_
      · rintro s ⟨hs, -⟩
        refine ⟨trivial, ?_⟩
        by_cases hsame : DiagFault.obstacleCritical = s.control.lastFault
        · simp [Firmware.controlLens, hsame, hs]
        · simp [Firmware.controlLens, hsame, hs]
      · refine Triple.write (hstable fun st ft => st = .active ∧ ft = .obstacleCritical)
          (fun _ _ => trivial) ?_
        rintro s ⟨hs, hf⟩
        refine ⟨trivial, iff_of_true ⟨?_, hf⟩ hnear⟩
        show systemFsmHandleEvent .criticalFault s.control.systemState = .safeState
        rw [hs]
        rfl
    · exact Triple.of_false fun s h => hstate h.2
  · have hcritical := mt (critical_iff pulseTicks).mp hnear
    rw [if_neg fun h => hcritical h.2]
    refine Triple.ret fun s h => iff_of_false (fun hraised => ?_) hnear
    have hsafe := h.1.symm.trans hraised.1
    cases hsafe

/-- What an execution that began in `ACTIVE` leaves. -/
def FaultVerdict (o : Option SensorOutcome) (s : Firmware) : Prop :=
  ∀ pulseTicks, o = some (.evaluated pulseTicks) →
    (s.CriticalRaised ↔ NearTicks pulseTicks.toNat)

theorem stable_verdict (o : Option SensorOutcome) : Stable faultContract (FaultVerdict o) :=
  stable_fault fun state fault => ∀ pulseTicks, o = some (.evaluated pulseTicks) →
    (state = .safeState ∧ fault = .obstacleCritical ↔ NearTicks pulseTicks.toNat)

/-- The end of a measurement in `ACTIVE`: the verdict depends on the pulse
alone. -/
theorem finishOutcome_fault :
    Triple faultContract (fun s => s.control.systemState = .active)
      (finishOutcome.zoom Firmware.controlLens) fun o => FaultVerdict (some o) := by
  simp only [finishOutcome, hcsr04ResultReady, hcsr04GetPulseTicks, Prog.bind_eq, Prog.zoom_bind,
    Prog.zoom_read]
  have hactive : Stable faultContract fun s : Firmware => s.control.systemState = .active :=
    stable_fault fun state _ => state = .active
  refine Triple.read_bind (B := fun _ s => s.control.systemState = .active) hactive
    (fun _ _ => trivial) (fun _ => trivial) (fun _ h => h) fun ready => ?_
  split
  · rw [Prog.zoom_bind, Prog.zoom_read]
    refine Triple.read_bind (B := fun _ s => s.control.systemState = .active) hactive
      (fun _ _ => trivial) (fun _ => trivial) (fun _ h => h) fun pulseTicks => ?_
    rw [Prog.zoom_bind]
    refine Triple.bind (judgePulse_fault pulseTicks) fun _ => Triple.ret fun s h => ?_
    rintro p ⟨rfl⟩
    exact h
  · rw [Prog.zoom_bind]
    refine Triple.bind ((fault_trivial _).conseq (fun _ _ => trivial) fun _ _ h => h) fun _ =>
      Triple.ret fun s h => ?_
    intro p hp
    cases hp

/-- A write that shows in neither the state nor the fault. -/
theorem keepsFault_write {f : Control → Control}
    (hf : ∀ c, (f c).systemState = c.systemState ∧ (f c).lastFault = c.lastFault) :
    KeepsFault ((Prog.write f).zoom Firmware.controlLens) := by
  rw [Prog.zoom_write]
  exact Prog.within_write fun s => hf s.control

/-- A whole execution of the sensor task in `ACTIVE` comes to such a
verdict. -/
theorem sensorOutcome_fault (adc : Word16) :
    Triple faultContract (fun s => s.control.systemState = .active)
      ((sensorOutcome adc).zoom Firmware.controlLens) fun o => FaultVerdict (some o) := by
  simp only [sensorOutcome, Prog.bind_eq, Prog.zoom_bind, Prog.zoom_read]
  have hactive : Stable faultContract fun s : Firmware => s.control.systemState = .active :=
    stable_fault fun state _ => state = .active
  refine Triple.bind (fault_kept (keepsFault_write (by intro c; exact ⟨rfl, rfl⟩))
    fun state _ => state = .active) fun _ => ?_
  refine Triple.read_bind (B := fun _ s => s.control.systemState = .active) hactive
    (fun _ _ => trivial) (fun _ => trivial) (fun _ h => h) fun measurementActive => ?_
  split
  · -- nothing is evaluated where a measurement is started
    simp only [Prog.zoom_bind]
    refine Triple.bind ((fault_trivial _).conseq (fun _ _ => trivial) fun _ _ h => h)
      fun started => Triple.bind (fault_trivial _) fun _ => Triple.ret fun s _ => ?_
    intro pulseTicks ho
    split at ho
    · cases ho
    · cases ho
  · simp only [Prog.zoom_bind]
    refine Triple.bind finishOutcome_fault fun o => ?_
    refine Triple.bind (B := fun _ => FaultVerdict (some o)) ?_ fun _ => Triple.ret fun _ h => h
    exact fault_kept (keepsFault_write (by intro c; exact ⟨rfl, rfl⟩)) fun state fault => ∀ pulseTicks,
      some o = some (.evaluated pulseTicks) →
        (state = .safeState ∧ fault = .obstacleCritical ↔ NearTicks pulseTicks.toNat)

/-- **The verdict of an execution** that began in `ACTIVE`. -/
theorem outcome_fault (d : Dispatch) :
    Triple faultContract (fun s => s.control.systemState = .active) d.outcome
      fun o => FaultVerdict o := by
  have hprofiler : ∀ p : Prog Profiler Unit, KeepsFault (p.zoom Firmware.profilerLens) := fun p =>
    Prog.within_zoom _ p fun _ _ => ⟨rfl, rfl⟩
  have hother : ∀ p : Prog Firmware Unit,
      Triple faultContract (fun s => s.control.systemState = .active) (p.bind fun _ => .ret none)
        fun o => FaultVerdict o := by
    intro p
    refine Triple.bind ((fault_trivial p).conseq (fun _ _ => trivial) fun _ _ h => h) fun _ =>
      Triple.ret fun s h => ?_
    intro pulseTicks ho
    cases ho
  have hstart : Triple faultContract (fun s => s.control.systemState = .active)
      ((recordStart d.task.id d.task.periodMs d.readings).zoom Firmware.profilerLens)
      fun _ s => s.control.systemState = .active :=
    fault_kept (hprofiler _) fun state _ => state = .active
  refine Triple.bind hstart fun _ => Triple.bind (B := FaultVerdict) ?_ fun o => ?_
  · rcases d with ⟨_ | _ | _ | _, r⟩
    · exact hother _
    · exact hother _
    · refine Triple.bind (sensorOutcome_fault r.adc) fun o => Triple.ret fun s h => ?_
      exact h
    · exact hother _
  · refine Triple.bind (B := fun _ => FaultVerdict o) ?_ fun _ => Triple.ret fun _ h => h
    exact fault_kept (hprofiler _) fun state fault => ∀ pulseTicks,
      o = some (.evaluated pulseTicks) →
        (state = .safeState ∧ fault = .obstacleCritical ↔ NearTicks pulseTicks.toNat)

section

variable {b : Boot} {s₀ : Firmware} {c c' : AcquisitionConfig} {d : Dispatch}
variable {es es' : List FirmwareEvent} {pulseTicks : Word16} {rise n : ℕ}

/-- **What an evaluated pulse does in `ACTIVE`.** -/
theorem raised_iff (hactive : c.state.control.systemState = .active)
    (hes : ∀ e ∈ es', e.isDispatch = false)
    (h' : acquisition.run c (.dispatch d :: es') = some c') (hdone : c'.running = none)
    (hfin : c'.finished = c.finished ++ [(d, some (.evaluated pulseTicks))]) :
    c'.state.CriticalRaised ↔ NearTicks pulseTicks.toNat := by
  obtain ⟨r, hr, hverdict⟩ := run_execution (M := acquisition) (C := faultContract)
    (fun x s s' hx => fault_of_handler hx) (outcome_fault d) stable_verdict hactive hes h' hdone
  obtain rfl : r = some (.evaluated pulseTicks) := by
    have hsame : c.finished ++ [(d, r)] =
        c.finished ++ [(d, some (.evaluated pulseTicks))] := hr.symm.trans hfin
    simpa using hsame
  exact hverdict pulseTicks rfl

/-- **A critical fault is raised for the near obstacles, up to the range of
the counter.** In any run from reset let an execution that begins in
`ACTIVE` evaluate an echo whose edges are `n` ticks apart. It raises the
fault exactly for 116 to 2435 ticks, if and only if `n` is in the range of
the counter or what is left of it there is no near obstacle. -/
theorem fault_exact (hstatic : s₀.control.measurementActive = 0)
    (h : acquisition.run (acquisitionStart b s₀) es = some c) (hidle : c.running = none)
    (hactive : c.state.control.systemState = .active) (hes : ∀ e ∈ es', e.isDispatch = false)
    (h' : acquisition.run c (.dispatch d :: es') = some c') (hdone : c'.running = none)
    (hfin : c'.finished = c.finished ++ [(d, some (.evaluated pulseTicks))])
    (hedges : captures b s₀ (es ++ .dispatch d :: es') =
      [BitVec.ofNat 16 rise, BitVec.ofNat 16 (rise + n)]) :
    (c'.state.CriticalRaised ↔ 116 ≤ n ∧ n ≤ 2435) ↔
      (n < 65536 ∨ ¬ (116 ≤ n % 65536 ∧ n % 65536 ≤ 2435)) := by
  obtain ⟨first, second, hpair, rfl⟩ := evaluated_eq hstatic h hidle hes h' hdone hfin
  obtain ⟨rfl, rfl⟩ : first = BitVec.ofNat 16 rise ∧ second = BitVec.ofNat 16 (rise + n) := by
    simpa using hpair.symm.trans hedges
  have hpulse : (BitVec.ofNat 16 (rise + n) - BitVec.ofNat 16 rise).toNat = n % 65536 := by
    rw [toNat_ofNat_sub (Nat.le_add_right _ _)]
    simp
  rw [raised_iff hactive hes h' hdone hfin, hpulse, nearTicks_iff]
  omega

end

/-- The cell is switched on and an echo of `n` ticks taken. -/
def activeEcho (n : ℕ) : List FirmwareEvent :=
  .dispatch ⟨.control, { Readings.zeroed with pind := bit buttonBit }⟩ ::
    List.replicate 14 .foreground ++ .dispatch ⟨.control, .zeroed⟩ ::
      List.replicate 17 .foreground ++ echoRun 0 (BitVec.ofNat 16 n)

/-- The execution that reads it has eleven accesses, if it raises the
fault. -/
def judgeRun : List FirmwareEvent := List.replicate 11 .foreground

/-- The two runs in sequence, by what they leave. -/
theorem activeEcho_run (n : ℕ) (pulseTicks : Word16)
    (hrun : ((acquisition.run (acquisitionStart ⟨0, 0, 0, 0⟩ .zeroed) (activeEcho n)).bind
      fun c => (acquisition.run c (.dispatch ⟨.sensorSafety, .zeroed⟩ :: judgeRun)).map fun c' =>
        decide (c.running.isNone ∧ c.state.control.systemState = .active ∧ c'.running.isNone ∧
          c'.state.CriticalRaised ∧
          c'.finished.getLast?.map Prod.snd = some (some (.evaluated pulseTicks)))) = some true) :
    ∃ c c', acquisition.run (acquisitionStart ⟨0, 0, 0, 0⟩ .zeroed) (activeEcho n) = some c ∧
      c.running = none ∧ c.state.control.systemState = .active ∧
      acquisition.run c (.dispatch ⟨.sensorSafety, .zeroed⟩ :: judgeRun) = some c' ∧
      c'.running = none ∧ c'.state.CriticalRaised ∧
      c'.finished = c.finished ++ [(⟨.sensorSafety, .zeroed⟩, some (.evaluated pulseTicks))] := by
  obtain ⟨c, hc, hrest⟩ := Option.bind_eq_some_iff.mp hrun
  obtain ⟨c', hc', hend⟩ := Option.map_eq_some_iff.mp hrest
  obtain ⟨hidle, hactive, hdone, hraised, hlast⟩ := of_decide_eq_true hend
  rw [Option.isNone_iff_eq_none] at hidle hdone
  refine ⟨c, c', hc, hidle, hactive, hc', hdone, hraised, ?_⟩
  obtain ⟨r, hfin, -⟩ := run_execution (M := acquisition) (C := faultContract)
    (fun x s s' hx => fault_of_handler hx) (fault_trivial (Dispatch.outcome _))
    (fun _ => .const True) trivial (by decide) hc' hdone
  obtain rfl : r = some (.evaluated pulseTicks) := by
    simpa [hfin] using hlast
  exact hfin

/-- Ten centimetres raise the fault, and are meant to. -/
theorem fault_exact_near :
    ∃ c c', acquisition.run (acquisitionStart ⟨0, 0, 0, 0⟩ .zeroed) (activeEcho 1160) = some c ∧
      acquisition.run c (.dispatch ⟨.sensorSafety, .zeroed⟩ :: judgeRun) = some c' ∧
      (c'.state.CriticalRaised ↔ 116 ≤ 1160 ∧ 1160 ≤ 2435) := by
  obtain ⟨c, c', hc, hidle, hactive, hc', hdone, -, hfin⟩ :=
    activeEcho_run 1160 1160 (by decide +kernel)
  have hedges : captures ⟨0, 0, 0, 0⟩ .zeroed
      (activeEcho 1160 ++ .dispatch ⟨.sensorSafety, .zeroed⟩ :: judgeRun) =
        [BitVec.ofNat 16 0, BitVec.ofNat 16 (0 + 1160)] := by
    decide +kernel
  exact ⟨c, c', hc, hc',
    (fault_exact rfl hc hidle hactive (by decide) hc' hdone hfin hedges).mpr (.inl (by decide))⟩

/-- An echo of 32.8 ms, from over five metres, raises the fault. -/
theorem fault_from_afar :
    ∃ c c', acquisition.run (acquisitionStart ⟨0, 0, 0, 0⟩ .zeroed) (activeEcho 65652) = some c ∧
      c.state.control.systemState = .active ∧
      acquisition.run c (.dispatch ⟨.sensorSafety, .zeroed⟩ :: judgeRun) = some c' ∧
      captures ⟨0, 0, 0, 0⟩ .zeroed
        (activeEcho 65652 ++ .dispatch ⟨.sensorSafety, .zeroed⟩ :: judgeRun) =
          [BitVec.ofNat 16 0, BitVec.ofNat 16 65652] ∧
      ¬ (c'.state.CriticalRaised ↔ 116 ≤ 65652 ∧ 65652 ≤ 2435) := by
  obtain ⟨c, c', hc, -, hactive, hc', -, hraised, -⟩ :=
    activeEcho_run 65652 116 (by decide +kernel)
  have hedges : captures ⟨0, 0, 0, 0⟩ .zeroed
      (activeEcho 65652 ++ .dispatch ⟨.sensorSafety, .zeroed⟩ :: judgeRun) =
        [BitVec.ofNat 16 0, BitVec.ofNat 16 65652] := by
    decide +kernel
  exact ⟨c, c', hc, hactive, hc', hedges, fun h => absurd (h.mp hraised) (by decide)⟩

end SentryCell
