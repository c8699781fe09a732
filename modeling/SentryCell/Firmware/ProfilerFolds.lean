import SentryCell.Firmware.Execution
import Mathlib.Algebra.Ring.Int.Defs
import Mathlib.Algebra.Ring.Nat
import Mathlib.Data.List.Induction
/-!
# What the profilers hold of their calls

The two profilers are called with any task, at any time and in any order.
Each of their values is a fold of the calls of one kind for one task
(`profilers_exact`), and the calls that an execution makes are two of one
list (`profiles_of_log`).
-/

namespace SentryCell

open Foreground Word Machine

/-! ## The calls -/

/-- **A call of a recorder**, with the arguments it gets. -/
inductive ProfilerCall where
  | record (taskId : Byte) (elapsedTicks : Word16)
  | recordStart (taskId : Byte) (nowMs : Word32) (nominalPeriodMs : Word16)
  | recordExecution (taskId : Byte) (elapsedTicks nominalPeriodMs : Word16)
  deriving DecidableEq, Repr

namespace ProfilerCall

/-- The task a call is for. -/
def taskId : ProfilerCall → Byte
  | .record taskId _ => taskId
  | .recordStart taskId _ _ => taskId
  | .recordExecution taskId _ _ => taskId

/-- What a call does. -/
def run (call : ProfilerCall) (q : TimingProfiler × RuntimeProfiler) :
    TimingProfiler × RuntimeProfiler :=
  match call with
  | .record taskId elapsedTicks => (timingProfilerRecord taskId elapsedTicks q.1, q.2)
  | .recordStart taskId nowMs nominalPeriodMs =>
    (timingProfilerRecordStart taskId nowMs nominalPeriodMs q.1, q.2)
  | .recordExecution taskId elapsedTicks nominalPeriodMs =>
    (q.1, runtimeProfilerRecordExecution taskId elapsedTicks nominalPeriodMs q.2)

end ProfilerCall

/-- What a sequence of calls does. -/
def profile (calls : List ProfilerCall) (q : TimingProfiler × RuntimeProfiler) :
    TimingProfiler × RuntimeProfiler :=
  calls.foldl (fun q call => call.run q) q

/-! ## What was recorded -/

/-- The largest of a list, or 0. -/
def largest (l : List ℕ) : ℕ := l.foldl max 0

/-- The execution times recorded for a task. -/
def recordedTicks (taskId : Byte) (calls : List ProfilerCall) : List ℕ :=
  calls.filterMap fun call => match call with
    | .record task elapsedTicks => if task = taskId then some elapsedTicks.toNat else none
    | _ => none

/-- The starts recorded for a task, each with the period given with it. -/
def recordedStarts (taskId : Byte) (calls : List ProfilerCall) : List (Word32 × Word16) :=
  calls.filterMap fun call => match call with
    | .recordStart task nowMs nominalPeriodMs =>
      if task = taskId then some (nowMs, nominalPeriodMs) else none
    | _ => none

/-- How far the interval between two starts is from the period, in ms and
at most 65535. -/
def startJitter (earlier later : Word32 × Word16) : ℕ :=
  min 65535 (((later.1.toNat : ℤ) - earlier.1.toNat) % 2 ^ 32 - later.2.toNat).natAbs

/-- The jitter of each start but the first. -/
def startJitters (starts : List (Word32 × Word16)) : List ℕ :=
  starts.zipWith startJitter starts.tail

/-- The executions recorded for a task that took longer than the period
given with them. -/
def recordedOverruns (taskId : Byte) (calls : List ProfilerCall) : List ProfilerCall :=
  calls.filter fun call => match call with
    | .recordExecution task elapsedTicks nominalPeriodMs =>
      task = taskId ∧ nominalPeriodMs.toNat * 2000 < elapsedTicks.toNat
    | _ => false

/-- The execution times recorded for any task there is. -/
def recordedBusy (calls : List ProfilerCall) : List ℕ :=
  calls.filterMap fun call => match call with
    | .recordExecution task elapsedTicks _ =>
      if task < timingTaskCount then some elapsedTicks.toNat else none
    | _ => none

/-- **What is kept of a task.** -/
structure TaskRecord where
  maxTicks : Word16
  lastStartMs : Word32
  maxJitterMs : Word16
  hasStartSample : Byte
  overrunCount : Word16

def taskRecord (taskId : Byte) (q : TimingProfiler × RuntimeProfiler) : TaskRecord where
  maxTicks := q.1.maxTicks taskId.toNat
  lastStartMs := q.1.lastStartMs taskId.toNat
  maxJitterMs := q.1.maxJitterMs taskId.toNat
  hasStartSample := q.1.hasStartSample taskId.toNat
  overrunCount := q.2.overrunCount taskId.toNat

/-! ## Lists that grow at the end -/

variable {α β : Type}

/-- The largest of a longer list. -/
theorem largest_concat (l : List ℕ) (n : ℕ) : largest (l ++ [n]) = max (largest l) n := by
  simp [largest]

/-- The pairs of neighbours of a longer list. -/
theorem zipWith_tail_concat (f : α → α → β) (l : List α) (x : α) :
    (l ++ [x]).zipWith f (l ++ [x]).tail =
      l.zipWith f l.tail ++ (l.getLast?.map fun y => f y x).toList := by
  induction l with
  | nil => rfl
  | cons a l ih =>
    rcases l with _ | ⟨b, l⟩
    · rfl
    · simp only [List.cons_append, List.tail_cons, List.zipWith_cons_cons] at ih ⊢
      rw [ih, List.getLast?_cons_cons]

/-! ## The recorders -/

variable {taskId : Byte} {calls : List ProfilerCall} {call : ProfilerCall}
variable {q : TimingProfiler × RuntimeProfiler} {r : TaskRecord}

/-- **The jitter of a start that is not the first**, as the source computes
it in 32 bits and bounds it to 16. -/
theorem recordStart_next {t : TimingProfiler} (nowMs : Word32) (nominalPeriodMs : Word16)
    (htask : taskId < timingTaskCount) (hstart : t.hasStartSample taskId.toNat ≠ 0) :
    ∃ jitterMs : Word16,
      (∀ period, jitterMs.toNat =
        startJitter (t.lastStartMs taskId.toNat, period) (nowMs, nominalPeriodMs)) ∧
      timingProfilerRecordStart taskId nowMs nominalPeriodMs t =
        { t with
          maxJitterMs :=
            if jitterMs > t.maxJitterMs taskId.toNat then
              Function.update t.maxJitterMs taskId.toNat jitterMs
            else t.maxJitterMs
          lastStartMs := Function.update t.lastStartMs taskId.toNat nowMs } := by
  unfold timingProfilerRecordStart
  rw [if_neg (BitVec.not_le.mpr htask), if_neg hstart]
  refine ⟨_, fun period => ?_, rfl⟩
  -- the difference of the readings, and the period, are numbers below 2^32
  have hactual : (((nowMs - t.lastStartMs taskId.toNat).toNat : ℕ) : ℤ) =
      ((nowMs.toNat : ℤ) - (t.lastStartMs taskId.toNat).toNat) % 2 ^ 32 := by
    rw [BitVec.toNat_sub]
    have hnow := nowMs.isLt
    have hlast := (t.lastStartMs taskId.toNat).isLt
    omega
  have hperiod : (nominalPeriodMs.setWidth 32).toNat = nominalPeriodMs.toNat :=
    BitVec.toNat_setWidth_of_le (by decide)
  have hbound : ∀ j : Word32,
      (if j > 65535#32 then 65535#16 else j.setWidth 16).toNat = min 65535 j.toNat := by
    intro j
    by_cases hj : j > 65535#32
    · have hlt : 65535 < j.toNat := BitVec.lt_def.mp hj
      rw [if_pos hj]
      show 65535 = _
      omega
    · have hle : j.toNat ≤ 65535 := Nat.le_of_not_lt fun hlt => hj (BitVec.lt_def.mpr hlt)
      rw [if_neg hj, BitVec.toNat_setWidth]
      omega
  rw [hbound, startJitter]
  congr 1
  simp only [← hactual]
  by_cases hge : nowMs - t.lastStartMs taskId.toNat ≥ nominalPeriodMs.setWidth 32
  · have hle := BitVec.le_def.mp hge
    rw [hperiod] at hle
    rw [if_pos hge, BitVec.toNat_sub_of_le hge, hperiod]
    omega
  · have hlt := BitVec.lt_def.mp (BitVec.not_le.mp hge)
    rw [hperiod] at hlt
    rw [if_neg hge, BitVec.toNat_sub_of_le (BitVec.le_of_lt (BitVec.not_le.mp hge)), hperiod]
    omega

/-! ## Calls for other tasks -/

/-- **A call for another task** leaves the record of a task alone. -/
theorem taskRecord_run (h : call.taskId ≠ taskId) :
    taskRecord taskId (call.run q) = taskRecord taskId q := by
  have hne : taskId.toNat ≠ call.taskId.toNat := fun he => h (BitVec.eq_of_toNat_eq he.symm)
  have hupdate : ∀ {α : Type} (f : ℕ → α) (a : α),
      Function.update f call.taskId.toNat a taskId.toNat = f taskId.toNat :=
    fun f a => Function.update_of_ne hne a f
  rcases call with ⟨task, ticks⟩ | ⟨task, nowMs, period⟩ | ⟨task, ticks, period⟩ <;>
    simp only [ProfilerCall.taskId] at hupdate
  · simp only [ProfilerCall.run, timingProfilerRecord, taskRecord]
    split
    · simp only [hupdate]
    · rfl
  · by_cases htask : task < timingTaskCount
    · by_cases hstart : q.1.hasStartSample task.toNat = 0
      · simp only [ProfilerCall.run, timingProfilerRecordStart, if_neg (BitVec.not_le.mpr htask),
          if_pos hstart, taskRecord, hupdate]
      · obtain ⟨jitterMs, -, hrun⟩ := recordStart_next nowMs period htask hstart
        simp only [ProfilerCall.run, hrun, taskRecord, hupdate]
        split
        · simp only [hupdate]
        · rfl
    · simp only [ProfilerCall.run, timingProfilerRecordStart, if_pos (BitVec.not_lt.mp htask)]
  · simp only [ProfilerCall.run, runtimeProfilerRecordExecution, taskRecord]
    split
    · rfl
    · simp only
      split
      · simp only [hupdate]
      · rfl

/-- And a call for no task leaves everything alone. -/
theorem run_of_ge (h : call.taskId ≥ timingTaskCount) : call.run q = q := by
  rcases call with ⟨task, ticks⟩ | ⟨task, nowMs, period⟩ | ⟨task, ticks, period⟩
  · have hlt : ¬ task < timingTaskCount := BitVec.not_lt.mpr h
    simp only [ProfilerCall.run, timingProfilerRecord, hlt, false_and, if_false]
  · have hge : task ≥ timingTaskCount := h
    simp only [ProfilerCall.run, timingProfilerRecordStart, if_pos hge]
  · have hge : task ≥ timingTaskCount := h
    simp only [ProfilerCall.run, runtimeProfilerRecordExecution, if_pos hge]

/-! ## The values of one task -/

/-- **What is kept of a task**, of the calls so far. -/
structure TaskProfiled (taskId : Byte) (calls : List ProfilerCall) (r : TaskRecord) : Prop where
  maxTicks : r.maxTicks.toNat = largest (recordedTicks taskId calls)
  lastStart : match (recordedStarts taskId calls).getLast? with
    | none => r.hasStartSample = 0
    | some start => r.hasStartSample ≠ 0 ∧ r.lastStartMs = start.1
  maxJitterMs : r.maxJitterMs.toNat = largest (startJitters (recordedStarts taskId calls))
  overrunCount : r.overrunCount.toNat = min 65535 (recordedOverruns taskId calls).length

/-- Calls in which nothing new is recorded for the task. -/
theorem TaskProfiled.congr {calls' : List ProfilerCall} (h : TaskProfiled taskId calls r)
    (hticks : recordedTicks taskId calls' = recordedTicks taskId calls)
    (hstarts : recordedStarts taskId calls' = recordedStarts taskId calls)
    (hoverruns : recordedOverruns taskId calls' = recordedOverruns taskId calls) :
    TaskProfiled taskId calls' r := by
  refine ⟨?_, ?_, ?_, ?_⟩
  · rw [hticks]
    exact h.maxTicks
  · rw [hstarts]
    exact h.lastStart
  · rw [hstarts]
    exact h.maxJitterMs
  · rw [hoverruns]
    exact h.overrunCount

/-- A call for another task leaves the record of this one alone. -/
theorem TaskProfiled.other (h : TaskProfiled taskId calls r) (hne : call.taskId ≠ taskId) :
    TaskProfiled taskId (calls ++ [call]) r := by
  rcases call with ⟨task, ticks⟩ | ⟨task, nowMs, period⟩ | ⟨task, ticks, period⟩ <;>
    simp only [ProfilerCall.taskId] at hne <;>
    exact h.congr (by simp [recordedTicks, hne]) (by simp [recordedStarts, hne])
      (by simp [recordedOverruns, hne])

/-- **`timing_profiler_record`** adds one execution to the record of its
task. -/
theorem TaskProfiled.record (h : TaskProfiled taskId calls (taskRecord taskId q))
    (htask : taskId < timingTaskCount) (elapsedTicks : Word16) :
    TaskProfiled taskId (calls ++ [.record taskId elapsedTicks])
      (taskRecord taskId ((ProfilerCall.record taskId elapsedTicks).run q)) := by
  have hticks : recordedTicks taskId (calls ++ [.record taskId elapsedTicks]) =
      recordedTicks taskId calls ++ [elapsedTicks.toNat] := by
    simp [recordedTicks]
  have hstarts : recordedStarts taskId (calls ++ [.record taskId elapsedTicks]) =
      recordedStarts taskId calls := by
    simp [recordedStarts]
  have hoverruns : recordedOverruns taskId (calls ++ [.record taskId elapsedTicks]) =
      recordedOverruns taskId calls := by
    simp [recordedOverruns]
  have hmax := h.maxTicks
  simp only [ProfilerCall.run, timingProfilerRecord, htask, true_and]
  split
  · rename_i hgt
    have hlt := BitVec.lt_def.mp hgt
    refine ⟨?_, ?_, ?_, ?_⟩
    · rw [hticks, largest_concat]
      simp only [taskRecord, Function.update_self] at hmax ⊢
      omega
    · rw [hstarts]
      exact h.lastStart
    · rw [hstarts]
      exact h.maxJitterMs
    · rw [hoverruns]
      exact h.overrunCount
  · rename_i hle
    have hnlt : ¬ (q.1.maxTicks taskId.toNat).toNat < elapsedTicks.toNat :=
      fun hlt => hle (BitVec.lt_def.mpr hlt)
    refine ⟨?_, ?_, ?_, ?_⟩
    · rw [hticks, largest_concat]
      simp only [taskRecord] at hmax ⊢
      omega
    · rw [hstarts]
      exact h.lastStart
    · rw [hstarts]
      exact h.maxJitterMs
    · rw [hoverruns]
      exact h.overrunCount

/-- **`timing_profiler_record_start`** adds one start, and with it one jitter
if there was a start before. -/
theorem TaskProfiled.recordStart (h : TaskProfiled taskId calls (taskRecord taskId q))
    (htask : taskId < timingTaskCount) (nowMs : Word32) (nominalPeriodMs : Word16) :
    TaskProfiled taskId (calls ++ [.recordStart taskId nowMs nominalPeriodMs])
      (taskRecord taskId ((ProfilerCall.recordStart taskId nowMs nominalPeriodMs).run q)) := by
  have hticks : recordedTicks taskId (calls ++ [.recordStart taskId nowMs nominalPeriodMs]) =
      recordedTicks taskId calls := by
    simp [recordedTicks]
  have hstarts : recordedStarts taskId (calls ++ [.recordStart taskId nowMs nominalPeriodMs]) =
      recordedStarts taskId calls ++ [(nowMs, nominalPeriodMs)] := by
    simp [recordedStarts]
  have hoverruns : recordedOverruns taskId (calls ++ [.recordStart taskId nowMs nominalPeriodMs]) =
      recordedOverruns taskId calls := by
    simp [recordedOverruns]
  have hlast := h.lastStart
  have hjitter := h.maxJitterMs
  have hone : (1 : Byte) ≠ 0 := by decide
  rcases hprev : (recordedStarts taskId calls).getLast? with _ | earlier
  · -- the first start is kept and no jitter is taken
    have hnil : recordedStarts taskId calls = [] := List.getLast?_eq_none_iff.mp hprev
    rw [hprev] at hlast
    have hstart : q.1.hasStartSample taskId.toNat = 0 := hlast
    simp only [ProfilerCall.run, timingProfilerRecordStart, if_neg (BitVec.not_le.mpr htask),
      if_pos hstart]
    refine ⟨?_, ?_, ?_, ?_⟩
    · rw [hticks]
      exact h.maxTicks
    · rw [hstarts, List.getLast?_concat]
      simp only [taskRecord, Function.update_self]
      exact ⟨hone, trivial⟩
    · rw [hstarts, hnil]
      rw [hnil] at hjitter
      exact hjitter
    · rw [hoverruns]
      exact h.overrunCount
  · rw [hprev] at hlast
    obtain ⟨hstart, hms⟩ := hlast
    obtain ⟨jitterMs, hvalue, hrun⟩ := recordStart_next nowMs nominalPeriodMs htask hstart
    have hvalue : jitterMs.toNat = startJitter earlier (nowMs, nominalPeriodMs) := by
      rw [hvalue earlier.2, show q.1.lastStartMs taskId.toNat = earlier.1 from hms]
    simp only [ProfilerCall.run, hrun]
    refine ⟨?_, ?_, ?_, ?_⟩
    · rw [hticks]
      exact h.maxTicks
    · rw [hstarts, List.getLast?_concat]
      simp only [taskRecord, Function.update_self]
      exact ⟨hstart, trivial⟩
    · rw [hstarts, startJitters, zipWith_tail_concat, hprev, Option.map_some,
        Option.toList_some, largest_concat, ← startJitters, ← hvalue, ← hjitter]
      simp only [taskRecord]
      split
      · rename_i hgt
        have hlt := BitVec.lt_def.mp hgt
        rw [Function.update_self]
        omega
      · rename_i hle
        have hnlt : ¬ (q.1.maxJitterMs taskId.toNat).toNat < jitterMs.toNat :=
          fun hlt => hle (BitVec.lt_def.mpr hlt)
        omega
    · rw [hoverruns]
      exact h.overrunCount

/-- A period in ticks has room in 32 bits. -/
theorem toNat_periodTicks (nominalPeriodMs : Word16) :
    (nominalPeriodMs.setWidth 32 * timer1TicksPerMs).toNat = nominalPeriodMs.toNat * 2000 := by
  have hlt := nominalPeriodMs.isLt
  have hrate : timer1TicksPerMs.toNat = 2000 := rfl
  rw [BitVec.toNat_mul, BitVec.toNat_setWidth_of_le (by decide), hrate]
  exact Nat.mod_eq_of_lt (by omega)

/-- The comparison of an execution with its period, on the numbers. -/
theorem elapsed_gt_period (elapsedTicks nominalPeriodMs : Word16) :
    (elapsedTicks.setWidth 32 > nominalPeriodMs.setWidth 32 * timer1TicksPerMs) ↔
      nominalPeriodMs.toNat * 2000 < elapsedTicks.toNat := by
  have helapsed : (elapsedTicks.setWidth 32).toNat = elapsedTicks.toNat :=
    BitVec.toNat_setWidth_of_le (by decide)
  rw [gt_iff_lt, BitVec.lt_def, toNat_periodTicks, helapsed]

/-- **`runtime_profiler_record_execution`** adds an overrun where the
execution took longer than the period. -/
theorem TaskProfiled.recordExecution (h : TaskProfiled taskId calls (taskRecord taskId q))
    (htask : taskId < timingTaskCount) (elapsedTicks nominalPeriodMs : Word16) :
    TaskProfiled taskId (calls ++ [.recordExecution taskId elapsedTicks nominalPeriodMs])
      (taskRecord taskId
        ((ProfilerCall.recordExecution taskId elapsedTicks nominalPeriodMs).run q)) := by
  let call := ProfilerCall.recordExecution taskId elapsedTicks nominalPeriodMs
  have hticks : recordedTicks taskId (calls ++ [call]) = recordedTicks taskId calls := by
    simp [call, recordedTicks]
  have hstarts : recordedStarts taskId (calls ++ [call]) = recordedStarts taskId calls := by
    simp [call, recordedStarts]
  have hoverruns : (recordedOverruns taskId (calls ++ [call])).length =
      (recordedOverruns taskId calls).length +
        if nominalPeriodMs.toNat * 2000 < elapsedTicks.toNat then 1 else 0 := by
    rw [recordedOverruns, List.filter_append, List.length_append]
    by_cases hover : nominalPeriodMs.toNat * 2000 < elapsedTicks.toNat
    · simp [call, recordedOverruns, hover]
    · simp [call, recordedOverruns, hover]
  obtain ⟨hmax, hlast, hjitter, hcount⟩ := h
  simp only [ProfilerCall.run, runtimeProfilerRecordExecution, if_neg (BitVec.not_le.mpr htask)]
  simp only [taskRecord] at hmax hlast hjitter hcount
  refine ⟨?_, ?_, ?_, ?_⟩ <;> simp only [taskRecord]
  · rw [hticks]
    exact hmax
  · rw [hstarts]
    exact hlast
  · rw [hstarts]
    exact hjitter
  · rw [hoverruns]
    split
    · rename_i hover
      obtain ⟨hlong, hfull⟩ := hover
      have hlt := (q.2.overrunCount taskId.toNat).isLt
      have hne : (q.2.overrunCount taskId.toNat).toNat ≠ 65535 :=
        fun he => hfull (BitVec.eq_of_toNat_eq he)
      have hone : (1 : Word16).toNat = 1 := rfl
      rw [Function.update_self, BitVec.toNat_add, if_pos ((elapsed_gt_period _ _).mp hlong)]
      omega
    · rename_i hnot
      by_cases hover : nominalPeriodMs.toNat * 2000 < elapsedTicks.toNat
      · have hmax : q.2.overrunCount taskId.toNat = 65535 := by
          by_contra hne
          exact hnot ⟨(elapsed_gt_period _ _).mpr hover, hne⟩
        have hfull : (q.2.overrunCount taskId.toNat).toNat = 65535 := congrArg BitVec.toNat hmax
        rw [if_pos hover]
        omega
      · rw [if_neg hover]
        omega

/-- **One more call** of any kind, for this task or for another. -/
theorem TaskProfiled.run (h : TaskProfiled taskId calls (taskRecord taskId q))
    (htask : taskId < timingTaskCount) (call : ProfilerCall) :
    TaskProfiled taskId (calls ++ [call]) (taskRecord taskId (call.run q)) := by
  by_cases hown : call.taskId = taskId
  · subst hown
    rcases call with ⟨task, ticks⟩ | ⟨task, nowMs, period⟩ | ⟨task, ticks, period⟩
    · exact h.record htask ticks
    · exact h.recordStart htask nowMs period
    · exact h.recordExecution htask ticks period
  · rw [taskRecord_run hown]
    exact h.other hown

/-! ## The busy ticks -/

/-- **One more call** adds to the busy ticks, up to their limit. -/
theorem busyTicks_run {n : ℕ} (h : q.2.busyTicks.toNat = min (2 ^ 32 - 1) n)
    (call : ProfilerCall) :
    (call.run q).2.busyTicks.toNat = min (2 ^ 32 - 1) (n + (recordedBusy [call]).sum) := by
  rcases call with ⟨task, ticks⟩ | ⟨task, nowMs, period⟩ | ⟨task, ticks, period⟩
  · exact h
  · exact h
  · by_cases htask : task < timingTaskCount
    · have hsum : (recordedBusy [.recordExecution task ticks period]).sum = ticks.toNat := by
        simp [recordedBusy, htask]
      have helapsed : (ticks.setWidth 32).toNat = ticks.toNat :=
        BitVec.toNat_setWidth_of_le (by decide)
      have hle : q.2.busyTicks ≤ 0xFFFFFFFF#32 := by
        rw [BitVec.le_def]
        exact Nat.le_of_lt_succ q.2.busyTicks.isLt
      have hroom : (0xFFFFFFFF#32 - q.2.busyTicks).toNat = 2 ^ 32 - 1 - q.2.busyTicks.toNat :=
        BitVec.toNat_sub_of_le hle
      rw [hsum]
      simp only [ProfilerCall.run, runtimeProfilerRecordExecution,
        if_neg (BitVec.not_le.mpr htask)]
      split
      · rename_i hlt
        rw [BitVec.lt_def, hroom, helapsed] at hlt
        show 2 ^ 32 - 1 = _
        omega
      · rename_i hnlt
        rw [BitVec.lt_def, hroom, helapsed] at hnlt
        rw [BitVec.toNat_add, helapsed]
        omega
    · have hsum : (recordedBusy [.recordExecution task ticks period]).sum = 0 := by
        simp [recordedBusy, htask]
      have hge : (ProfilerCall.recordExecution task ticks period).taskId ≥ timingTaskCount :=
        BitVec.not_lt.mp htask
      rw [run_of_ge hge, hsum]
      exact h

/-! ## Any sequence of calls -/

/-- The profilers after `timing_profiler_init` and `runtime_profiler_init`. -/
def profilersInit (nowMs : Word32) (q : TimingProfiler × RuntimeProfiler) :
    TimingProfiler × RuntimeProfiler :=
  (timingProfilerInit q.1, runtimeProfilerInit nowMs q.2)

/-- After the initialisation no call has been made, and every record
says so. -/
theorem taskProfiled_init (htask : taskId < timingTaskCount) (nowMs : Word32)
    (q : TimingProfiler × RuntimeProfiler) :
    TaskProfiled taskId [] (taskRecord taskId (profilersInit nowMs q)) := by
  have hlt : taskId.toNat < timingTaskCount.toNat := BitVec.lt_def.mp htask
  simp only [taskRecord, profilersInit, timingProfilerInit, runtimeProfilerInit, if_pos hlt]
  exact ⟨rfl, rfl, rfl, rfl⟩

/-- The last of the calls is made last. -/
theorem profile_concat (calls : List ProfilerCall) (call : ProfilerCall)
    (q : TimingProfiler × RuntimeProfiler) :
    profile (calls ++ [call]) q = call.run (profile calls q) := by
  simp [profile]

/-- What a further call adds to the busy time is what it would add alone. -/
theorem recordedBusy_concat (calls : List ProfilerCall) (call : ProfilerCall) :
    recordedBusy (calls ++ [call]) = recordedBusy calls ++ recordedBusy [call] := by
  simp only [recordedBusy, List.filterMap_append]

/-- **The values of a task after any calls.** -/
theorem taskProfiled_profile (htask : taskId < timingTaskCount) (nowMs : Word32)
    (q : TimingProfiler × RuntimeProfiler) (calls : List ProfilerCall) :
    TaskProfiled taskId calls (taskRecord taskId (profile calls (profilersInit nowMs q))) := by
  induction calls using List.reverseRecOn with
  | nil => exact taskProfiled_init htask nowMs q
  | append_singleton calls call ih =>
    rw [profile_concat]
    exact ih.run htask call

/-- **The busy ticks after any calls.** -/
theorem busyTicks_profile (nowMs : Word32) (q : TimingProfiler × RuntimeProfiler)
    (calls : List ProfilerCall) :
    (profile calls (profilersInit nowMs q)).2.busyTicks.toNat =
      min (2 ^ 32 - 1) (recordedBusy calls).sum := by
  induction calls using List.reverseRecOn with
  | nil => rfl
  | append_singleton calls call ih =>
    rw [profile_concat, recordedBusy_concat, List.sum_append]
    exact busyTicks_run ih call

/-- No recorder moves the start of the observation. -/
theorem startMs_profile (calls : List ProfilerCall) (q : TimingProfiler × RuntimeProfiler) :
    (profile calls q).2.startMs = q.2.startMs := by
  induction calls using List.reverseRecOn with
  | nil => rfl
  | append_singleton calls call ih =>
    rw [profile_concat, ← ih]
    rcases call with ⟨task, ticks⟩ | ⟨task, nowMs, period⟩ | ⟨task, ticks, period⟩
    · rfl
    · rfl
    · simp only [ProfilerCall.run, runtimeProfilerRecordExecution]
      split
      · rfl
      · rfl

/-- **The profilers are exact folds of what was recorded.** After any calls
the reported maximum of a task is that of its recorded ticks, the reported
jitter that of its start intervals, its overruns are counted up to 65535
and the busy ticks of all tasks up to 2^32 - 1; and no call for another
task, or for none, changes what is kept of it. -/
theorem profilers_exact (nowMs : Word32) (q : TimingProfiler × RuntimeProfiler)
    (calls : List ProfilerCall) (task : Task) :
    let q' := profile calls (profilersInit nowMs q)
    (timingProfilerGetMaxTicks task.id q'.1).toNat = largest (recordedTicks task.id calls) ∧
      (timingProfilerGetMaxJitterMs task.id q'.1).toNat =
        largest (startJitters (recordedStarts task.id calls)) ∧
      (runtimeProfilerGetOverrunCount task.id q'.2).toNat =
        min 65535 (recordedOverruns task.id calls).length ∧
      q'.2.busyTicks.toNat = min (2 ^ 32 - 1) (recordedBusy calls).sum ∧
      ∀ call : ProfilerCall, call.taskId ≠ task.id ∨ call.taskId ≥ timingTaskCount →
        taskRecord task.id (call.run q') = taskRecord task.id q' := by
  intro q'
  have h := taskProfiled_profile task.id_lt nowMs q calls
  have hge := not_id_ge task
  refine ⟨?_, ?_, ?_, busyTicks_profile nowMs q calls, ?_⟩
  · rw [timingProfilerGetMaxTicks, if_neg hge]
    exact h.maxTicks
  · rw [timingProfilerGetMaxJitterMs, if_neg hge]
    exact h.maxJitterMs
  · rw [runtimeProfilerGetOverrunCount, if_neg hge]
    exact h.overrunCount
  · rintro call (hne | hout)
    · exact taskRecord_run hne
    · rw [run_of_ge hout]

/-! ## The calls of a run -/

/-- The calls an execution makes, with what it reads. -/
def Dispatch.profilerCalls (d : Dispatch) : List ProfilerCall :=
  [.recordStart d.task.id d.readings.startMs d.task.periodMs,
    .record d.task.id d.elapsedTicks,
    .recordExecution d.task.id d.elapsedTicks d.task.periodMs]

/-- The calls of the executions of a log. -/
def executionCalls (fin : List (Dispatch × Unit)) : List ProfilerCall :=
  fin.flatMap fun r => r.1.profilerCalls

theorem profile_append (calls calls' : List ProfilerCall)
    (q : TimingProfiler × RuntimeProfiler) :
    profile (calls ++ calls') q = profile calls' (profile calls q) := List.foldl_append

/-- One more execution of a log. -/
theorem profile_executionCalls (fin : List (Dispatch × Unit)) (d : Dispatch)
    (q : TimingProfiler × RuntimeProfiler) :
    profile (executionCalls (fin ++ [(d, ())])) q =
      (d.recordTiming (profile (executionCalls fin) q).1,
        d.recordRuntime (profile (executionCalls fin) q).2) := by
  rw [executionCalls, List.flatMap_append, List.flatMap_singleton, profile_append]
  rfl

/-- What the profilers hold, of the log. -/
def ProfilesLog (q : TimingProfiler × RuntimeProfiler) (fin : List (Dispatch × Unit))
    (s : Firmware) : Prop :=
  s.profiler.timing = (profile (executionCalls fin) q).1 ∧
    s.profiler.runtime = (profile (executionCalls fin) q).2

/-- **The log accounts for the profilers**, and an execution in progress
has not added to the load yet. -/
theorem profiles_staged (q : TimingProfiler × RuntimeProfiler) :
    Staged firmware (ProfilesLog q) fun fin d p s =>
      ∀ n, Safe (loadContract (profile (executionCalls fin) q).2)
        (fun _ s => s.profiler.timing = d.recordTiming (profile (executionCalls fin) q).1 ∧
          s.profiler.runtime = d.recordRuntime (profile (executionCalls fin) q).2) n p s where
  start fin d s h _ n := program_load_triple d _ _ s h n
  step fin d p s p' s' h hn n :=
    (((safe_succ_iff (Prog.result_of_next hn)).mp (h (n + 1))).2.2 p' s' hn).2
  finish fin d r s h := by
    obtain ⟨ht, hr⟩ := (h 1).post
    rw [ProfilesLog, profile_executionCalls]
    exact ⟨ht, hr⟩
  env_idle fin x s s' h hx := by
    obtain ⟨ht, hr⟩ := keepsProfiles_of_handler hx
    exact ⟨ht.trans h.1, hr.trans h.2⟩
  env_running fin d p x s s' hp h hx n :=
    ((safe_succ_iff hp).mp (h (n + 1))).2.1 s' (keepsProfiles_of_handler hx)

/-- The two profilers after `main` has initialised. -/
theorem profiler_boot (b : Boot) (s : Firmware) :
    (s.boot b).profiler.timing = timingProfilerInit s.profiler.timing ∧
      (s.boot b).profiler.runtime = runtimeProfilerInit b.systemMs s.profiler.runtime := by
  let C : Contract Firmware := ⟨Eq, fun _ _ => True, fun _ => True⟩
  let I : Firmware → Prop := fun t => t.profiler = s.profiler
  have hstable : ∀ P : Firmware → Prop, Stable C P := fun P t t' h he => he ▸ h
  have hinit : Triple C I (mainInit b) fun _ t =>
      t.profiler.timing = timingProfilerInit s.profiler.timing ∧
        t.profiler.runtime = runtimeProfilerInit b.systemMs s.profiler.runtime := by
    simp only [mainInit, Prog.bind_eq]
    refine Triple.bind (Triple.zoom (I := I) Firmware.controlLens _ (hstable _)
      (fun _ _ => trivial) fun t c h => ⟨trivial, h⟩) fun _ => ?_
    refine Triple.write (hstable _) (fun _ _ => trivial) fun t h => ⟨trivial, ?_⟩
    have ht : t.profiler = s.profiler := h
    rw [← ht]
    exact ⟨rfl, rfl⟩
  exact hinit.uninterrupted rfl (uninterrupted_mainInit b s)

/-- **The profilers of a run** are those of the calls of its executions. -/
theorem profiles_of_log {b : Boot} {s : Firmware} {es : List FirmwareEvent}
    {c : FirmwareConfig} (h : firmware.run (firmwareStart b s) es = some c) :
    let q := profilersInit b.systemMs (s.profiler.timing, s.profiler.runtime)
    c.state.profiler.runtime = (profile (executionCalls c.finished) q).2 ∧
      (c.running = none →
        c.state.profiler.timing = (profile (executionCalls c.finished) q).1) := by
  intro q
  have hc := (profiles_staged q).run (c := firmwareStart b s) (profiler_boot b s) h
  rcases hr : c.running with _ | ⟨d, p⟩
  · have hlog := hc.idle hr
    exact ⟨hlog.2, fun _ => hlog.1⟩
  · obtain ⟨hp, hsafe⟩ := hc.running hr
    refine ⟨((safe_succ_iff hp).mp (hsafe 1)).1, fun hnone => ?_⟩
    cases hnone

end SentryCell
