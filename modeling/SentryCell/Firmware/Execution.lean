import SentryCell.Firmware.Tasks
import SentryCell.Lib.Frame
/-!
# What an execution leaves in the profilers

Between its two readings of Timer1 a task touches neither the timing nor
the runtime profiler, so an execution leaves in them what its own
bookkeeping makes of the difference of the readings. That difference is
taken modulo 2^16: `counted_iff` is where the counts it gives agree with
the true duration.
-/

namespace SentryCell

open Foreground Word Machine

/-! ## The bodies -/

section

variable {R : Firmware → Firmware → Prop} {r : Readings}

/-- The block flag is set by a byte and by nothing else. -/
def KeepsBlock (q q' : Slots) : Prop :=
  q'.watchdogBlockRequestPending = q.watchdogBlockRequestPending

/-- What writes the slots and does not take a block back stays in the
frame. -/
theorem within_slots (f : Slots → Slots)
    (hslots : ∀ s q, KeepsBlock s.protocol.slots q → R s (Firmware.slotsLens.set q s))
    (h : ∀ q, KeepsBlock q (f q)) : ((Prog.write f).zoom Firmware.slotsLens).Within R :=
  (Prog.within_write h).zoom Firmware.slotsLens hslots

/-- One slot filled and its flag cleared. -/
theorem within_protocolSendStatus (htx : ∀ s u, R s (Firmware.txLens.set u s))
    (hslots : ∀ s q, KeepsBlock s.protocol.slots q → R s (Firmware.slotsLens.set q s))
    (kind : StatusKind) (sequence : Byte) (payload : List Byte) :
    (protocolSendStatus kind sequence payload).Within R := by
  refine (Prog.within_zoom _ _ htx).bind fun sent => ?_
  split
  · exact Prog.within_ret _
  · exact (within_slots (clearRequest kind) hslots fun q => rfl).bind fun _ => Prog.within_ret _

/-- Reading a word of each of the four tasks, and sending them, stays in a
frame that the sender stays in. -/
theorem within_readTaskWords (hrefl : ∀ s, R s s) (value : Byte → Profiler → Word16)
    {send : Word16 → Word16 → Word16 → Word16 → Prog Firmware Byte}
    (hsend : ∀ w₀ w₁ w₂ w₃, (send w₀ w₁ w₂ w₃).Within R) :
    (readTaskWords value send).Within R :=
  .read_bind hrefl fun _ => .read_bind hrefl fun _ => .read_bind hrefl fun _ =>
    .read_bind hrefl fun _ => hsend _ _ _ _

/-- Serving a request writes the transmitter, the slots and the memory
profiler, and nothing else. -/
theorem within_serveStatus (hrefl : ∀ s, R s s) (htx : ∀ s u, R s (Firmware.txLens.set u s))
    (hslots : ∀ s q, KeepsBlock s.protocol.slots q → R s (Firmware.slotsLens.set q s))
    (hmemory : ∀ s m, R s (Firmware.profilerLens.set { s.profiler with memory := m } s))
    (kind : StatusKind) : (serveStatus r kind).Within R := by
  have hsend : ∀ sequence payload, (protocolSendStatus kind sequence payload).Within R :=
    within_protocolSendStatus htx hslots kind
  refine .read_bind hrefl fun sequence => ?_
  rcases sequence with _ | sequence
  · exact Prog.within_ret _
  · refine Prog.Within.bind ?_ fun _ => Prog.within_ret _
    rcases kind with _ | _ | _ | _ | _ | _ | _ | _
    · exact .read_bind hrefl fun _ => .read_bind hrefl fun _ => .read_bind hrefl fun _ => hsend _ _
    · rw [collectStatus]
      exact within_readTaskWords hrefl _ fun _ _ _ _ => hsend _ _
    · rw [collectStatus]
      exact within_readTaskWords hrefl _ fun _ _ _ _ => hsend _ _
    · refine Prog.Within.bind (Prog.Within.zoom (R := fun p p' => ∃ m, p' = { p with memory := m })
        _ (Prog.within_write fun p => ⟨_, rfl⟩) ?_) fun _ => ?_
      · rintro s _ ⟨m, rfl⟩
        exact hmemory s m
      · exact .read_bind hrefl fun _ => .read_bind hrefl fun _ => .read_bind hrefl fun _ =>
          hsend _ _
    · exact .read_bind hrefl fun _ => .read_bind hrefl fun _ => hsend _ _
    · rw [collectStatus]
      exact within_readTaskWords hrefl _ fun _ _ _ _ => hsend _ _
    · exact .read_bind hrefl fun _ => hsend _ _
    · exact .read_bind hrefl fun _ => hsend _ _

/-- Serving a list of statuses writes no more than serving each of them
does. -/
theorem within_serveStatuses (hrefl : ∀ s, R s s) (htx : ∀ s u, R s (Firmware.txLens.set u s))
    (hslots : ∀ s q, KeepsBlock s.protocol.slots q → R s (Firmware.slotsLens.set q s))
    (hmemory : ∀ s m, R s (Firmware.profilerLens.set { s.profiler with memory := m } s))
    (kinds : List StatusKind) : (serveStatuses r kinds).Within R := by
  induction kinds with
  | nil => exact Prog.within_ret _
  | cons kind kinds ih =>
    exact (within_serveStatus hrefl htx hslots hmemory kind).bind fun _ => ih

/-- The block leaves alone what the safe outputs do. -/
theorem within_serveBlock (hrefl : ∀ s, R s s)
    (hblock : (setSafeOutputs.zoom Firmware.controlLens).Within R) : serveBlock.Within R := by
  have hforever : (forever : Prog Firmware Unit).Within R :=
    ⟨fun _ => Prog.within_ret _, Prog.within_ret _⟩
  refine .read_bind hrefl fun requested => ?_
  split
  · exact hblock.bind fun _ => hforever
  · exact Prog.within_ret _

/-- Serving the response slot writes the transmitter and the slots. -/
theorem within_serveResponse (hrefl : ∀ s, R s s) (htx : ∀ s u, R s (Firmware.txLens.set u s))
    (hslots : ∀ s q, KeepsBlock s.protocol.slots q → R s (Firmware.slotsLens.set q s)) :
    serveResponse.Within R := by
  refine .read_bind hrefl fun response => ?_
  rcases response with _ | response
  · exact Prog.within_ret _
  · refine (Prog.within_zoom _ _ htx).bind fun sent => ?_
    split
    · exact within_slots protocolResponseSent hslots fun q => rfl
    · exact Prog.within_ret _

/-- **Everything the communication task can change**: the rings, the
parser and its slots, the memory watermark, and in a block the safe
outputs. -/
theorem within_communication (hrefl : ∀ s, R s s) (hrx : ∀ s u, R s (Firmware.rxLens.set u s))
    (htx : ∀ s u, R s (Firmware.txLens.set u s))
    (hslots : ∀ s q, KeepsBlock s.protocol.slots q → R s (Firmware.slotsLens.set q s))
    (hparse : ∀ s p l, R s { s with protocol := p, accepted := s.accepted ++ l })
    (hmemory : ∀ s m, R s (Firmware.profilerLens.set { s.profiler with memory := m } s))
    (hblock : (setSafeOutputs.zoom Firmware.controlLens).Within R) :
    (communication r).Within R := by
  have hcheck : ∀ s, R s (s.checkTimeout r.nowMs) := by
    intro s
    have h := hparse s (protocolCheckTimeout r.nowMs s.protocol) []
    rw [List.append_nil] at h
    exact h
  refine .write_bind hcheck ⟨fun n => ?_, ?_⟩
  · refine (Prog.within_zoom _ _ hrx).bind fun byte => ?_
    rcases byte with _ | byte
    · exact Prog.within_ret _
    · exact .write_bind (fun s => hparse s _ _) (Prog.within_ret _)
  · exact (within_serveBlock hrefl hblock).bind fun _ =>
      (within_serveResponse hrefl htx hslots).bind fun _ =>
        within_serveStatuses hrefl htx hslots hmemory _

end

/-! ## The bookkeeping of an execution -/

/-- What nothing changes between the two readings of the counter. -/
def KeepsProfiles (s s' : Firmware) : Prop :=
  s'.profiler.timing = s.profiler.timing ∧ s'.profiler.runtime = s.profiler.runtime

/-- No interrupt writes the timing or the runtime profiler. -/
theorem keepsProfiles_of_handler {x : Interrupt} {s s' : Firmware}
    (h : x.handler s = some s') : KeepsProfiles s s' := by
  obtain ⟨byte, rfl⟩ | rfl | rfl | ⟨tick, rfl⟩ | rfl := handler_cases h
  · exact ⟨rfl, rfl⟩
  · exact ⟨rfl, rfl⟩
  · exact ⟨rfl, rfl⟩
  · exact ⟨rfl, rfl⟩
  · exact ⟨rfl, rfl⟩

/-- **No body touches what its execution is recorded in.** -/
theorem within_body (task : Task) (r : Readings) : (task.body r).Within KeepsProfiles := by
  have hrefl : ∀ s, KeepsProfiles s s := fun s => ⟨rfl, rfl⟩
  have hcontrol : ∀ {α : Type} (p : Prog Control α),
      (p.zoom Firmware.controlLens).Within KeepsProfiles := fun p =>
    Prog.within_zoom _ p fun _ _ => ⟨rfl, rfl⟩
  rcases task with _ | _ | _ | _
  · exact hcontrol _
  · exact hcontrol _
  · exact hcontrol _
  · exact within_communication hrefl (fun _ _ => ⟨rfl, rfl⟩) (fun _ _ => ⟨rfl, rfl⟩)
      (fun _ _ _ => ⟨rfl, rfl⟩) (fun _ _ _ => ⟨rfl, rfl⟩) (fun _ _ => ⟨rfl, rfl⟩) (hcontrol _)

/-- `elapsed_ticks`. -/
def Dispatch.elapsedTicks (d : Dispatch) : Word16 :=
  d.readings.endTicks - d.readings.startTicks

/-- The timing profiler after an execution. -/
def Dispatch.recordTiming (d : Dispatch) (t : TimingProfiler) : TimingProfiler :=
  timingProfilerRecord d.task.id d.elapsedTicks
    (timingProfilerRecordStart d.task.id d.readings.startMs d.task.periodMs t)

/-- The runtime profiler after an execution. -/
def Dispatch.recordRuntime (d : Dispatch) (p : RuntimeProfiler) : RuntimeProfiler :=
  runtimeProfilerRecordExecution d.task.id d.elapsedTicks d.task.periodMs p

/-- An execution among the interrupts, for what its profilers hold. -/
def profilesContract : Contract Firmware where
  rely := KeepsProfiles
  guar _ _ := True
  inv _ := True

/-- Every assertion on these two profilers is stable. -/
theorem stable_profiles (P : TimingProfiler → RuntimeProfiler → Prop) :
    Stable profilesContract fun s => P s.profiler.timing s.profiler.runtime := by
  rintro s s' h ⟨ht, hr⟩
  rw [ht, hr]
  exact h

/-- An execution that adds to the load last. -/
def loadContract (q : RuntimeProfiler) : Contract Firmware where
  rely := KeepsProfiles
  guar _ _ := True
  inv s := s.profiler.runtime = q

/-- **What an execution records**, whatever its body does. Its last access
is the one that writes the runtime profiler. -/
theorem program_load_triple (d : Dispatch) (t : TimingProfiler) (q : RuntimeProfiler) :
    Triple (loadContract q) (fun s => s.profiler.timing = t ∧ s.profiler.runtime = q) d.program
      fun _ s => s.profiler.timing = d.recordTiming t ∧
        s.profiler.runtime = d.recordRuntime q := by
  simp only [Dispatch.program, recordStart, recordEnd, Prog.bind_eq, Prog.zoom_bind,
    Prog.zoom_write]
  let started := timingProfilerRecordStart d.task.id d.readings.startMs d.task.periodMs t
  have hstable : ∀ t', Stable (loadContract q) fun s =>
      s.profiler.timing = t' ∧ s.profiler.runtime = q := fun t' =>
    stable_profiles fun t'' q' => t'' = t' ∧ q' = q
  refine Triple.write_bind (B := fun s => s.profiler.timing = started ∧ s.profiler.runtime = q)
    (hstable t) (fun _ h => h.2) ?_ ?_
  · rintro s ⟨rfl, hq⟩
    exact ⟨trivial, rfl, hq⟩
  refine Triple.bind ((within_body d.task d.readings).triple (fun s => ⟨rfl, rfl⟩)
    (hstable started) (fun _ h => h.2) ?_) fun _ => ?_
  · rintro s s' ⟨ht, hq⟩ ⟨ht', hq'⟩
    exact ⟨trivial, ht'.trans ht, hq'.trans hq⟩
  refine Triple.write_bind
    (B := fun s => s.profiler.timing = d.recordTiming t ∧ s.profiler.runtime = q)
    (hstable started) (fun _ h => h.2) ?_ ?_
  · rintro s ⟨ht, hq⟩
    exact ⟨trivial, congrArg (timingProfilerRecord d.task.id d.elapsedTicks) ht, hq⟩
  refine Triple.write (hstable (d.recordTiming t)) (fun _ h => h.2) ?_
  rintro s ⟨ht, rfl⟩
  exact ⟨trivial, ht, rfl⟩

/-- **An execution records itself once in each profiler**, and its body leaves
both alone. -/
theorem program_triple (d : Dispatch) (t : TimingProfiler) (q : RuntimeProfiler) :
    Triple profilesContract (fun s => s.profiler.timing = t ∧ s.profiler.runtime = q) d.program
      fun _ s => s.profiler.timing = d.recordTiming t ∧
        s.profiler.runtime = d.recordRuntime q :=
  (program_load_triple d t q).weaken (fun _ _ h => h) (fun _ _ h => h) fun _ _ => trivial

section

variable {c c' : FirmwareConfig} {d : Dispatch} {es : List FirmwareEvent}

/-- **The profilers after an execution**, from the dispatch on. -/
theorem profiles_of_run (hes : ∀ e ∈ es, e.isDispatch = false)
    (h : firmware.run c (.dispatch d :: es) = some c') (hdone : c'.running = none) :
    c'.state.profiler.timing = d.recordTiming c.state.profiler.timing ∧
      c'.state.profiler.runtime = d.recordRuntime c.state.profiler.runtime := by
  obtain ⟨-, -, hprofiles⟩ := run_execution (M := firmware) (C := profilesContract)
    (fun x s s' hx => keepsProfiles_of_handler hx)
    (program_triple d c.state.profiler.timing c.state.profiler.runtime)
    (fun _ => stable_profiles fun t q => t = d.recordTiming c.state.profiler.timing ∧
      q = d.recordRuntime c.state.profiler.runtime) ⟨rfl, rfl⟩ hes h hdone
  exact hprofiles

end

/-! ## Durations -/

/-- The overruns of a task that are counted. -/
def Profiler.overruns (p : Profiler) (task : Task) : ℕ :=
  (runtimeProfilerGetOverrunCount task.id p.runtime).toNat

/-- The longest execution of a task that is reported. -/
def Profiler.longest (p : Profiler) (task : Task) : ℕ :=
  (timingProfilerGetMaxTicks task.id p.timing).toNat

/-- The period of a task, in ticks of Timer1. -/
def Task.periodTicks (task : Task) : ℕ := task.periodMs.toNat * 2000

/-- Every task has a record of its own in the profilers. -/
theorem Task.id_lt (task : Task) : task.id < timingTaskCount := by
  rcases task with _ | _ | _ | _ <;> decide

/-- No period uses up the sixteen bits. -/
theorem Task.periodTicks_lt (task : Task) : task.periodTicks < 65535 := by
  rcases task with _ | _ | _ | _ <;> decide

theorem not_id_ge (task : Task) : ¬ task.id ≥ timingTaskCount :=
  BitVec.not_le.mpr task.id_lt

/-- The comparison the profiler makes, on the numbers. -/
theorem setWidth_gt_period (task : Task) (e : Word16) :
    (e.setWidth 32 > task.periodMs.setWidth 32 * timer1TicksPerMs) ↔
      task.periodTicks < e.toNat := by
  have hperiod : (task.periodMs.setWidth 32 * timer1TicksPerMs).toNat = task.periodTicks := by
    rcases task with _ | _ | _ | _ <;> decide
  have helapsed : (e.setWidth 32).toNat = e.toNat :=
    BitVec.toNat_setWidth_of_le (by decide)
  rw [gt_iff_lt, BitVec.lt_def, hperiod, helapsed]

/-- The overrun count after an execution that took `e` ticks. -/
theorem overruns_recordRuntime {d : Dispatch} {p p' : Profiler}
    (h : p'.runtime = d.recordRuntime p.runtime) :
    p'.overruns d.task = if d.task.periodTicks < d.elapsedTicks.toNat ∧
      p.overruns d.task ≠ 65535 then p.overruns d.task + 1 else p.overruns d.task := by
  have hge := not_id_ge d.task
  have hfull : (p.runtime.overrunCount d.task.id.toNat ≠ 65535) ↔
      (p.runtime.overrunCount d.task.id.toNat).toNat ≠ 65535 := by
    rw [not_iff_not, ← BitVec.toNat_inj]
    rfl
  simp only [Profiler.overruns, runtimeProfilerGetOverrunCount, if_neg hge, h,
    Dispatch.recordRuntime, runtimeProfilerRecordExecution, setWidth_gt_period, hfull]
  split
  · rename_i hover
    have hlt := (p.runtime.overrunCount d.task.id.toNat).isLt
    rw [Function.update_self, BitVec.toNat_add]
    have hone : (1 : Word16).toNat = 1 := rfl
    omega
  · rfl

/-- The maximum after an execution that took `e` ticks. -/
theorem longest_recordTiming {d : Dispatch} {p p' : Profiler}
    (h : p'.timing = d.recordTiming p.timing) :
    p'.longest d.task = max (p.longest d.task) d.elapsedTicks.toNat := by
  have hge := not_id_ge d.task
  have hstart : ∀ t : TimingProfiler, (timingProfilerRecordStart d.task.id d.readings.startMs
      d.task.periodMs t).maxTicks = t.maxTicks := by
    intro t
    unfold timingProfilerRecordStart
    split
    · rfl
    · split <;> rfl
  simp only [Profiler.longest, timingProfilerGetMaxTicks, if_neg hge, h, Dispatch.recordTiming,
    timingProfilerRecord, hstart, d.task.id_lt, true_and]
  split
  · rename_i hgt
    have hlt := BitVec.lt_def.mp hgt
    show (Function.update p.timing.maxTicks d.task.id.toNat d.elapsedTicks _).toNat = _
    rw [Function.update_self]
    omega
  · rename_i hle
    have hle' := mt BitVec.lt_def.mpr hle
    rw [hstart]
    omega

/-- **The duration `n` is accounted for**: it counts as an overrun exactly
if it exceeds the period, unless the count is full, and the maximum covers
it. -/
def DurationCounted (task : Task) (n : ℕ) (p p' : Profiler) : Prop :=
  (p'.overruns task = if n > task.periodTicks ∧ p.overruns task ≠ 65535 then
    p.overruns task + 1 else p.overruns task) ∧
  min n 65535 ≤ p'.longest task

/-- Where the sixteen bits of a duration say enough: it fits, or they are
all set, or they still exceed the period and the maximum was already
reached. -/
def CountableDuration (task : Task) (n : ℕ) (p : Profiler) : Prop :=
  n ≤ 65535 ∨ n % 65536 = 65535 ∨
    (p.longest task = 65535 ∧ (p.overruns task = 65535 ∨ task.periodTicks < n % 65536))

/-- **Where a duration is accounted for.** -/
theorem durationCounted_iff {d : Dispatch} {p p' : Profiler} {start n : ℕ}
    (hstart : d.readings.startTicks = BitVec.ofNat 16 start)
    (hend : d.readings.endTicks = BitVec.ofNat 16 (start + n))
    (ht : p'.timing = d.recordTiming p.timing) (hr : p'.runtime = d.recordRuntime p.runtime) :
    DurationCounted d.task n p p' ↔ CountableDuration d.task n p := by
  have helapsed : d.elapsedTicks.toNat = n % 65536 := by
    rw [Dispatch.elapsedTicks, hstart, hend, toNat_ofNat_sub (Nat.le_add_right _ _)]
    simp
  have hlongest : p.longest d.task < 65536 := BitVec.isLt _
  have hperiod := d.task.periodTicks_lt
  rw [DurationCounted, CountableDuration, overruns_recordRuntime hr, longest_recordTiming ht,
    helapsed]
  split <;> split <;> omega

/-- **An overrun is counted as far as sixteen bits tell.** Let an execution
of a task return, and let `n` ticks pass between its two readings of the
counter, both of them whole: they are the low sixteen bits of `start` and
of `start + n`, which a read that a Timer1 handler interrupts need not be.
The duration is accounted for exactly if it fits sixteen bits, or its low
sixteen bits are all set, or the maximum was already reached and either
they exceed the period or the count is full. -/
theorem overruns_counted {c c' : FirmwareConfig} {d : Dispatch} {es : List FirmwareEvent}
    {start n : ℕ} (hstart : d.readings.startTicks = BitVec.ofNat 16 start)
    (hend : d.readings.endTicks = BitVec.ofNat 16 (start + n))
    (hes : ∀ e ∈ es, e.isDispatch = false)
    (h : firmware.run c (.dispatch d :: es) = some c') (hdone : c'.running = none) :
    DurationCounted d.task n c.state.profiler c'.state.profiler ↔
      CountableDuration d.task n c.state.profiler := by
  obtain ⟨ht, hr⟩ := profiles_of_run hes h hdone
  exact durationCounted_iff hstart hend ht hr

/-- An execution of `actuator_service_task` that takes `n` ticks. -/
def actuatorExecution (n : ℕ) : List FirmwareEvent :=
  .dispatch ⟨.actuatorService, { Readings.zeroed with endTicks := BitVec.ofNat 16 n }⟩ ::
    List.replicate 13 .foreground

/-- An execution of 1.5 ms is an overrun of one. -/
theorem overruns_counted_late :
    ∃ c', firmware.run (firmwareStart ⟨0, 0, 0, 0⟩ .zeroed) (actuatorExecution 3000) = some c' ∧
      DurationCounted .actuatorService 3000 (Firmware.boot ⟨0, 0, 0, 0⟩ .zeroed).profiler
        c'.state.profiler := by
  have hrun : (firmware.run (firmwareStart ⟨0, 0, 0, 0⟩ .zeroed) (actuatorExecution 3000)).map
      (fun c => c.running.isNone) = some true := by
    decide +kernel
  obtain ⟨c', hc', hdone⟩ := Option.map_eq_some_iff.mp hrun
  have hstart : Readings.zeroed.startTicks = BitVec.ofNat 16 0 := rfl
  refine ⟨c', hc', (overruns_counted hstart rfl ?_ hc' ?_).mpr (.inl (by decide))⟩
  · decide
  · exact Option.isNone_iff_eq_none.mp hdone

/-- An execution of 33 ms leaves no trace in either profiler. -/
theorem overruns_missed :
    ∃ c', firmware.run (firmwareStart ⟨0, 0, 0, 0⟩ .zeroed) (actuatorExecution 66000) = some c' ∧
      c'.running = none ∧ c'.state.profiler.overruns .actuatorService = 0 ∧
      ¬ DurationCounted .actuatorService 66000 (Firmware.boot ⟨0, 0, 0, 0⟩ .zeroed).profiler
        c'.state.profiler := by
  have hrun : (firmware.run (firmwareStart ⟨0, 0, 0, 0⟩ .zeroed) (actuatorExecution 66000)).map
      (fun c => (c.running.isNone, c.state.profiler.overruns .actuatorService,
        c.state.profiler.longest .actuatorService)) = some (true, 0, 464) := by
    decide +kernel
  obtain ⟨c', hc', hend⟩ := Option.map_eq_some_iff.mp hrun
  simp only [Prod.mk.injEq] at hend
  obtain ⟨hdone, hoverruns, hlongest⟩ := hend
  refine ⟨c', hc', Option.isNone_iff_eq_none.mp hdone, hoverruns, fun hcounted => ?_⟩
  have hmax := hcounted.2
  omega

end SentryCell
