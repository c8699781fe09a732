import SentryCell.Firmware.Enqueued
import SentryCell.Firmware.ProfilerFolds
import SentryCell.Host.Dashboard
import SentryCell.System.Telemetry
import Mathlib.Tactic.FieldSimp
import Mathlib.Tactic.Linarith
import Mathlib.Tactic.Positivity
/-!
# The reported load

Timer1 and the milliseconds are read off one clock, and the executions of
a run follow one another on it. The busy ticks of a CPU_LOAD_STATUS that is
enqueued are then no more than the ticks that passed, and bounded by the
milliseconds it carries until these wrap (`load_bounded`): the busy ticks
stop at their limit, the milliseconds start again.
-/

namespace SentryCell

open Foreground Word Machine

/-! ## One clock -/

/-- **When an execution takes its readings**, in ticks of 0.5 µs. -/
structure Execution where
  start : ℕ
  report : ℕ
  finish : ℕ

/-- The milliseconds at a tick. The two timers need not start together. -/
def systemMsAt (phase tick : ℕ) : ℕ := (tick + phase) / 2000

/-- **The readings of an execution**, as the clock has them: Timer1 at both
ends, and the milliseconds where the load is reported. -/
structure ReadsClock (phase : ℕ) (d : Dispatch) (x : Execution) : Prop where
  startTicks : d.readings.startTicks = BitVec.ofNat 16 x.start
  loadMs : d.readings.loadMs = BitVec.ofNat 32 (systemMsAt phase x.report)
  endTicks : d.readings.endTicks = BitVec.ofNat 16 x.finish
  start_le : x.start ≤ x.report
  le_finish : x.report ≤ x.finish

/-- **Executions on one clock**, from a tick on, one after another. -/
inductive OneClock (phase : ℕ) : ℕ → List Dispatch → List Execution → Prop
  | nil (tick : ℕ) : OneClock phase tick [] []
  | cons {tick : ℕ} {d : Dispatch} {ds : List Dispatch} {x : Execution} {xs : List Execution}
      (hd : ReadsClock phase d x) (hstart : tick ≤ x.start)
      (hrest : OneClock phase x.finish ds xs) : OneClock phase tick (d :: ds) (x :: xs)

variable {phase tick : ℕ} {d : Dispatch} {ds : List Dispatch} {x : Execution}
variable {xs : List Execution}

/-- Sixteen bits of a duration are no more than the duration. -/
theorem ReadsClock.elapsedTicks_le (h : ReadsClock phase d x) :
    x.start + d.elapsedTicks.toNat ≤ x.finish := by
  have hle : x.start ≤ x.finish := h.start_le.trans h.le_finish
  have hmod := Nat.mod_le (x.finish - x.start) (2 ^ 16)
  rw [Dispatch.elapsedTicks, h.startTicks, h.endTicks, toNat_ofNat_sub hle]
  omega

/-- **The ticks recorded before the last execution** fit in before it. -/
theorem OneClock.load (h : OneClock phase tick (ds ++ [d]) xs) :
    ∃ x, xs.getLast? = some x ∧ ReadsClock phase d x ∧
      tick + (ds.map fun d => d.elapsedTicks.toNat).sum ≤ x.start := by
  induction ds generalizing tick xs with
  | nil =>
    rcases h with _ | ⟨hd, hstart, hrest⟩
    rcases hrest with _ | _
    exact ⟨_, rfl, hd, hstart⟩
  | cons d₁ ds ih =>
    rcases h with _ | ⟨hd₁, hstart, hrest⟩
    obtain ⟨x, hx, hd, hload⟩ := ih hrest
    have hfirst := hd₁.elapsedTicks_le
    refine ⟨x, ?_, hd, ?_⟩
    · rw [List.getLast?_cons, hx]
      rfl
    · rw [List.map_cons, List.sum_cons]
      omega

/-! ## The report -/

/-- The busy ticks of a log. -/
theorem recordedBusy_executionCalls (fin : List (Dispatch × Unit)) :
    recordedBusy (executionCalls fin) = fin.map fun r => r.1.elapsedTicks.toNat := by
  induction fin with
  | nil => rfl
  | cons r fin ih =>
    have hone : recordedBusy r.1.profilerCalls = [r.1.elapsedTicks.toNat] := by
      simp [recordedBusy, Dispatch.profilerCalls, r.1.task.id_lt]
    have hsplit : recordedBusy (executionCalls (r :: fin)) =
        recordedBusy r.1.profilerCalls ++ recordedBusy (executionCalls fin) := by
      simp only [executionCalls, List.flatMap_cons, recordedBusy, List.filterMap_append]
    rw [hsplit, hone, ih]
    rfl

/-- **A report of the load**: a step of the foreground enqueues bytes that
the host decodes as a CPU_LOAD_STATUS with these values. -/
structure ReportsLoad (c c' : FirmwareConfig) (status : Host.CpuLoadStatus) : Prop where
  step : firmware.step c .foreground = some c'
  decoded : ∃ data frame, c'.state.uart.tx.txQueue = c.state.uart.tx.txQueue ++ data ∧
    Host.decodeFrame data = .ok frame ∧ Host.decodeCpuLoadStatus frame = .ok status

/-- **What a report carries** are the busy ticks and the elapsed
milliseconds of the state that it is enqueued in: no other frame that may
be enqueued is decoded as one. -/
theorem values_of_reports {s : Firmware} {r : Readings} {frame : ProtocolFrame}
    {status : Host.CpuLoadStatus} (hreports : frame.Reports s r)
    (hdecode : Host.decodeCpuLoadStatus frame.toHost = .ok status) :
    status = { busyTicks := s.profiler.runtime.busyTicks.toNat
               elapsedMs := (runtimeProfilerGetElapsedMs r.loadMs s.profiler.runtime).toNat } := by
  rcases hreports with himmediate | ⟨kind, sequence, overflow, rfl⟩
  · -- an immediate response is rejected by its type
    have hne : frame.toHost.frameType ≠ (Host.typeCpuLoadStatus : ℤ) := by
      intro ht
      have hnat : frame.type.toNat = Host.typeCpuLoadStatus := Int.ofNat.inj ht
      have htypes : ∀ type ∈ immediateTypes, type.toNat ≠ Host.typeCpuLoadStatus := by decide
      exact htypes _ himmediate hnat
    obtain ⟨message, hmessage⟩ : ∃ message, Host.decodeCpuLoadStatus frame.toHost =
        .error (.protocolError message) := Host.decode_error hne _
    rw [hmessage] at hdecode
    cases hdecode
  · have hlen : (kind.reportWith overflow s r).length ≤ 8 := length_reportWith_le
    have hhost : (statusFrame kind sequence (kind.reportWith overflow s r)).toHost =
        hostStatus kind sequence (kind.reportWith overflow s r) := by
      unfold ProtocolFrame.toHost hostStatus
      rw [data_statusFrame hlen]
      rfl
    rw [hhost] at hdecode
    by_cases hkind : StatusKind.cpuLoadStatus = kind
    · subst hkind
      rw [StatusKind.reportWith, decodeCpuLoadStatus_hostStatus] at hdecode
      exact (Except.ok.inj hdecode).symm
    · obtain ⟨message, hmessage⟩ : StatusRejected (hostStatus kind sequence
          (kind.reportWith overflow s r)) .cpuLoadStatus := statusRejected_of_ne hkind
      rw [hmessage] at hdecode
      cases hdecode

/-- The report is made by the execution in progress. -/
theorem ReportsLoad.values {b : Boot} {s : Firmware} {es : List FirmwareEvent}
    {c c' : FirmwareConfig} {status : Host.CpuLoadStatus} (hreport : ReportsLoad c c' status)
    (h : firmware.run (firmwareStart b s) es = some c) :
    ∃ d p, c.running = some (d, p) ∧
      status = {
        busyTicks := c.state.profiler.runtime.busyTicks.toNat
        elapsedMs :=
          (runtimeProfilerGetElapsedMs d.readings.loadMs c.state.profiler.runtime).toNat } := by
  obtain ⟨hstep, data, frame, hdata, hdecode, hstatus⟩ := hreport
  obtain ⟨_, he, -⟩ | ⟨d, p, p', s', -, hr, -, -⟩ | ⟨_, _, he, -⟩ := step_cases hstep
  · cases he
  · refine ⟨d, p, hr, ?_⟩
    rcases enqueues_step h hr hstep with hsame | ⟨-, sent, hlen, hreports, hqueue⟩
    · -- the empty string is no frame
      have hnil : data = [] := by
        rw [hsame] at hdata
        simpa using hdata.symm
      rw [hnil] at hdecode
      cases hdecode
    · have hbytes : data = encodedFrame sent := by
        rw [hqueue] at hdata
        exact (List.append_cancel_left hdata).symm
      rw [hbytes, Host.decodeFrame_of_encodeFrame (encodeFrame_toHost hlen)] at hdecode
      obtain rfl := Except.ok.inj hdecode
      exact values_of_reports hreports hstatus
  · cases he

/-- The milliseconds that passed since the initialisation at `tick` can be
reported: they fit 32 bits, or what is left of them already allows for the
most busy ticks there can be. -/
def Reportable (phase tick : ℕ) (x : Execution) : Prop :=
  let elapsed := systemMsAt phase x.report - systemMsAt phase tick
  elapsed < 2 ^ 32 ∨ 2 ^ 32 - 1 ≤ 2000 * (elapsed % 2 ^ 32 + 1)

/-- **A load within the bound**: the busy ticks are at most those of the
elapsed milliseconds and one more, and so is the utilization that the host
computes. -/
structure LoadBounded (status : Host.CpuLoadStatus) : Prop where
  busy : status.busyTicks ≤ 2000 * (status.elapsedMs + 1)
  utilization : 0 < status.elapsedMs →
    Host.calculateScheduledTaskUtilization status.busyTicks status.elapsedMs ≤
      100 * (1 + 1 / (status.elapsedMs : ℚ))

/-- **The utilization the host computes** of a report within the bound. -/
theorem utilization_le {busyTicks elapsedMs : ℕ} (h : busyTicks ≤ 2000 * (elapsedMs + 1))
    (hpos : 0 < elapsedMs) :
    Host.calculateScheduledTaskUtilization busyTicks elapsedMs ≤
      100 * (1 + 1 / (elapsedMs : ℚ)) := by
  have hms : (0 : ℚ) < elapsedMs := Nat.cast_pos.mpr hpos
  have hbusy : (busyTicks : ℚ) ≤ 2000 * (elapsedMs + 1) := by exact_mod_cast h
  have hne : (elapsedMs : ℤ) ≠ 0 := Int.natCast_ne_zero.mpr (Nat.ne_of_gt hpos)
  unfold Host.calculateScheduledTaskUtilization
  rw [if_neg hne, div_le_iff₀ (by positivity)]
  calc (100 : ℚ) * ((busyTicks : ℤ) : ℚ)
      ≤ 100 * (2000 * (elapsedMs + 1)) := by
        rw [Int.cast_natCast]
        linarith
    _ = 100 * (1 + 1 / (elapsedMs : ℚ)) * (((elapsedMs : ℤ) : ℚ) * 2000) := by
        rw [Int.cast_natCast]
        field_simp

theorem loadBounded_of_le {busyTicks elapsedMs : ℕ} (h : busyTicks ≤ 2000 * (elapsedMs + 1)) :
    LoadBounded ⟨busyTicks, elapsedMs⟩ := by
  refine ⟨?_, fun hpos => ?_⟩
  · show (busyTicks : ℤ) ≤ 2000 * (elapsedMs + 1)
    exact_mod_cast h
  · have hpos' : 0 < elapsedMs := Int.natCast_pos.mp hpos
    have hle := utilization_le h hpos'
    rw [← Int.cast_natCast (R := ℚ) elapsedMs] at hle
    exact hle

/-- The bound, on the numbers: what was busy before the report, and the
milliseconds from the initialisation to it. -/
theorem busy_le_of_reportable {load : ℕ} (hrep : Reportable phase tick x)
    (hload : tick + load ≤ x.report) :
    min (2 ^ 32 - 1) load ≤
      2000 * ((systemMsAt phase x.report - systemMsAt phase tick) % 2 ^ 32 + 1) := by
  have hspan : load ≤ 2000 * (systemMsAt phase x.report - systemMsAt phase tick + 1) := by
    unfold systemMsAt
    omega
  -- either the milliseconds have not wrapped, or no busy ticks are too many
  rcases hrep with hlt | hlimit
  · rw [Nat.mod_eq_of_lt hlt]
    omega
  · omega

/-- **The load is bounded while the milliseconds can be reported.** In any
run from reset on one clock, whatever its executions and interrupts, let
the last execution report the load, at a moment whose milliseconds can be
reported. Then the busy ticks are at most the ticks of one millisecond more
than it reports, and the host computes no more than
`100 * (1 + 1 / elapsed_ms)` percent. -/
theorem load_bounded {b : Boot} {s : Firmware} {es : List FirmwareEvent}
    {c c' : FirmwareConfig} {status : Host.CpuLoadStatus}
    (h : firmware.run (firmwareStart b s) es = some c)
    (hboot : b.systemMs = BitVec.ofNat 32 (systemMsAt phase tick))
    (hclock : OneClock phase tick (dispatched es) xs) (hreport : ReportsLoad c c' status)
    (hrep : ∀ x, xs.getLast? = some x → Reportable phase tick x) : LoadBounded status := by
  obtain ⟨d, p, hrun, rfl⟩ := hreport.values h
  let q := profilersInit b.systemMs (s.profiler.timing, s.profiler.runtime)
  -- the profilers are folds over the executions that have finished
  have hruntime : c.state.profiler.runtime = (profile (executionCalls c.finished) q).2 :=
    (profiles_of_log h).1
  -- the execution that reports was begun last, and is not among them
  have hbegun : dispatched es = c.finished.map Prod.fst ++ [d] := by
    have hall := begun_run h
    simp only [Config.begun, firmwareStart, hrun] at hall
    simpa using hall.symm
  rw [hbegun] at hclock
  obtain ⟨x, hx, hd, hload⟩ := hclock.load
  have hbusy : c.state.profiler.runtime.busyTicks.toNat =
      min (2 ^ 32 - 1) (c.finished.map fun r => r.1.elapsedTicks.toNat).sum := by
    rw [hruntime, ← recordedBusy_executionCalls]
    exact busyTicks_profile b.systemMs _ _
  have hmono : systemMsAt phase tick ≤ systemMsAt phase x.report :=
    Nat.div_le_div_right (by have := hd.start_le; omega)
  -- the milliseconds are those since the initialisation, modulo 2^32
  have helapsed : (runtimeProfilerGetElapsedMs d.readings.loadMs
      c.state.profiler.runtime).toNat =
        (systemMsAt phase x.report - systemMsAt phase tick) % 2 ^ 32 := by
    show (d.readings.loadMs - c.state.profiler.runtime.startMs).toNat = _
    rw [hruntime, startMs_profile, hd.loadMs]
    show (_ - b.systemMs).toNat = _
    rw [hboot, toNat_ofNat_sub hmono]
  refine loadBounded_of_le ?_
  rw [hbusy, helapsed]
  refine busy_le_of_reportable (hrep x hx) (le_trans ?_ hd.start_le)
  simpa [List.map_map, Function.comp_def] using hload

/-- GET_CPU_LOAD_STATUS of sequence 7. -/
def cpuLoadRequest : ProtocolFrame := ⟨protocolTypeGetCpuLoadStatus, 7, 0, fun _ => 0⟩

/-- An execution of 1.5 ms after reset; then a request for the load and the
execution of `communication_task` that answers it, with the readings `r`,
up to the access that enqueues the answer. -/
def loadAsked (r : Readings) : List FirmwareEvent :=
  actuatorExecution 3000 ++ (encodedFrame cpuLoadRequest).map (fun b => .env (.usartRx b)) ++
    .dispatch ⟨.communication, r⟩ :: List.replicate 72 .foreground

/-- **What that access enqueues**, and what the host decodes from it. -/
def loadReport (r : Readings) : Option Host.CpuLoadStatus :=
  (firmware.run (firmwareStart ⟨0, 0, 0, 0⟩ .zeroed) (loadAsked r)).bind fun c =>
    (firmware.step c .foreground).bind fun c' =>
      if c.state.uart.tx.txQueue = [] then
        ((Host.decodeFrame c'.state.uart.tx.txQueue).bind Host.decodeCpuLoadStatus).toOption
      else none

theorem reportsLoad_of_loadReport {r : Readings} {status : Host.CpuLoadStatus}
    (h : loadReport r = some status) :
    ∃ c c', firmware.run (firmwareStart ⟨0, 0, 0, 0⟩ .zeroed) (loadAsked r) = some c ∧
      ReportsLoad c c' status := by
  obtain ⟨c, hc, hrest⟩ := Option.bind_eq_some_iff.mp h
  obtain ⟨c', hstep, hend⟩ := Option.bind_eq_some_iff.mp hrest
  obtain ⟨hempty, hdecoded⟩ := Option.ite_none_right_eq_some.mp hend
  rcases hframe : Host.decodeFrame c'.state.uart.tx.txQueue with error | frame
  · rw [hframe] at hdecoded
    cases hdecoded
  · rw [hframe] at hdecoded
    rcases hstatus : Host.decodeCpuLoadStatus frame with error | decoded
    · rw [show (Except.ok frame).bind Host.decodeCpuLoadStatus = .error error from hstatus]
        at hdecoded
      cases hdecoded
    · rw [show (Except.ok frame).bind Host.decodeCpuLoadStatus = .ok decoded from hstatus]
        at hdecoded
      obtain rfl := Option.some.inj hdecoded
      refine ⟨c, c', hc, hstep, c'.state.uart.tx.txQueue, frame, ?_, hframe, hstatus⟩
      rw [hempty]
      rfl

/-- The readings of an execution that begins, reports and ends at a tick. -/
def readingsAt (tick : ℕ) : Readings :=
  { Readings.zeroed with
    startTicks := BitVec.ofNat 16 tick
    loadMs := BitVec.ofNat 32 (systemMsAt 0 tick)
    endTicks := BitVec.ofNat 16 tick }

/-- Both executions are on the clock. -/
theorem oneClock_loadAsked {tick : ℕ} (h : 3000 ≤ tick) :
    OneClock 0 0 (dispatched (loadAsked (readingsAt tick))) [⟨0, 0, 3000⟩, ⟨tick, tick, tick⟩] := by
  have hds : dispatched (loadAsked (readingsAt tick)) =
      [⟨.actuatorService, { Readings.zeroed with endTicks := BitVec.ofNat 16 3000 }⟩,
        ⟨.communication, readingsAt tick⟩] := rfl
  rw [hds]
  refine .cons ⟨rfl, rfl, rfl, Nat.le_refl 0, Nat.zero_le 3000⟩ (Nat.le_refl 0) ?_
  exact .cons ⟨rfl, rfl, rfl, Nat.le_refl _, Nat.le_refl _⟩ h (.nil _)

/-- 2 ms after reset the report is 3000 busy ticks in 2 ms. -/
theorem load_bounded_first :
    ∃ c c' status, firmware.run (firmwareStart ⟨0, 0, 0, 0⟩ .zeroed)
        (loadAsked (readingsAt 4000)) = some c ∧ ReportsLoad c c' status ∧
      status = ⟨3000, 2⟩ ∧ LoadBounded status := by
  have hvalues : loadReport (readingsAt 4000) = some ⟨3000, 2⟩ := by decide +kernel
  obtain ⟨c, c', hc, hreport⟩ := reportsLoad_of_loadReport hvalues
  have hclock : OneClock 0 0 (dispatched (loadAsked (readingsAt 4000)))
      [⟨0, 0, 3000⟩, ⟨4000, 4000, 4000⟩] := oneClock_loadAsked (by decide)
  refine ⟨c, c', _, hc, hreport, rfl, load_bounded hc rfl hclock hreport ?_⟩
  intro x hx
  obtain rfl : (⟨4000, 4000, 4000⟩ : Execution) = x := Option.some.inj hx
  exact .inl (by decide)

/-- 2^32 ms after reset it is 3000 busy ticks in 0 ms. -/
theorem load_unbounded :
    ∃ c c' status xs, firmware.run (firmwareStart ⟨0, 0, 0, 0⟩ .zeroed)
        (loadAsked (readingsAt (2000 * 2 ^ 32))) = some c ∧
      OneClock 0 0 (dispatched (loadAsked (readingsAt (2000 * 2 ^ 32)))) xs ∧
      ReportsLoad c c' status ∧ status = ⟨3000, 0⟩ ∧ ¬ LoadBounded status := by
  have hvalues : loadReport (readingsAt (2000 * 2 ^ 32)) = some ⟨3000, 0⟩ := by decide +kernel
  obtain ⟨c, c', hc, hreport⟩ := reportsLoad_of_loadReport hvalues
  refine ⟨c, c', _, _, hc, oneClock_loadAsked (by decide), hreport, rfl, fun hbounded => ?_⟩
  have hbusy : (3000 : ℤ) ≤ 2000 * (0 + 1) := hbounded.busy
  exact absurd hbusy (by decide)

end SentryCell
