import SentryCell.Lib.Word
import Mathlib.Data.List.Induction
import Mathlib.Order.Basic
import Mathlib.Logic.Function.Iterate
/-!
# The scheduler

`firmware/scheduler/scheduler.c` and the millisecond count of
`firmware/hal/system_time.c`. `Plan` is the scheduler over unbounded time:
it keeps the true time of every task's last dispatch, and dispatches the
tasks that are due. The 32-bit table follows the plan as long as no two
passes are too far apart (`Follows.pass`), however often the clock wraps.
-/

namespace SentryCell

open Word

/-! ## The clock -/

/-- `TIMER2_COMPA_vect`. -/
def timer2CompaVect (systemMs : Word32) : Word32 := systemMs + 1

/-- `system_time_ms()` after `t` interrupts. -/
def systemTimeMs (t : ℕ) : Word32 := timer2CompaVect^[t] 0

/-- **The clock is the true time modulo its range.** -/
theorem systemTimeMs_eq (t : ℕ) : systemTimeMs t = BitVec.ofNat 32 t := by
  induction t with
  | zero => rfl
  | succ t ih =>
    rw [systemTimeMs, Function.iterate_succ_apply', ← systemTimeMs, ih, timer2CompaVect,
      BitVec.ofNat_add]
    rfl

/-- An age below the range is read off the clock. -/
theorem toNat_systemTimeMs_sub {s t : ℕ} (h : s ≤ t) (hlt : t - s < 2 ^ 32) :
    (systemTimeMs t - systemTimeMs s).toNat = t - s := by
  rw [systemTimeMs_eq, systemTimeMs_eq, toNat_ofNat_sub h, Nat.mod_eq_of_lt hlt]

/-! ## The table -/

def schedulerMaxTasks : ℕ := 4

/-- `scheduler_task_t`. A task is a function pointer, or `NULL`. -/
structure SchedulerTask (τ : Type) where
  task : Option τ
  periodMs : Word32
  lastRunMs : Word32
  active : Byte

/-- `g_tasks`. -/
structure Scheduler (τ : Type) where
  tasks : List (SchedulerTask τ)
  length_tasks : tasks.length = schedulerMaxTasks

variable {τ : Type}

def SchedulerTask.cleared : SchedulerTask τ := ⟨none, 0, 0, 0⟩

/-- `scheduler_init`. -/
def schedulerInit : Scheduler τ := ⟨List.replicate schedulerMaxTasks .cleared, List.length_replicate⟩

/-- The loop of `scheduler_add_task`. -/
def addToFirst (task : τ) (periodMs now : Word32) :
    List (SchedulerTask τ) → Byte × List (SchedulerTask τ)
  | [] => (0, [])
  | entry :: rest =>
    -- the first slot that is free, and no other
    if entry.active = 0 then (1, ⟨some task, periodMs, now, 1⟩ :: rest)
    else
      let (added, rest) := addToFirst task periodMs now rest
      (added, entry :: rest)

/-- The table neither grows nor shrinks when a task is added. -/
theorem length_addToFirst (task : τ) (periodMs now : Word32) (tasks : List (SchedulerTask τ)) :
    (addToFirst task periodMs now tasks).2.length = tasks.length := by
  induction tasks with
  | nil => rfl
  | cons entry rest ih =>
    unfold addToFirst
    split
    · rfl
    · exact congrArg Nat.succ ih

/-- `scheduler_add_task`. -/
def schedulerAddTask (task : Option τ) (periodMs now : Word32) (s : Scheduler τ) :
    Byte × Scheduler τ :=
  match task with
  | none => (0, s)
  | some task =>
    if periodMs = 0 then (0, s)
    else
      ((addToFirst task periodMs now s.tasks).1,
        ⟨(addToFirst task periodMs now s.tasks).2, (length_addToFirst ..).trans s.length_tasks⟩)

/-- The loop of `scheduler_run` from `index` on: the calls it makes, each
with its index, and the table. No task touches the table. -/
def runFrom (now : Word32) :
    ℕ → List (SchedulerTask τ) → List (ℕ × Option τ) × List (SchedulerTask τ)
  | _, [] => ([], [])
  | index, entry :: rest =>
    let (calls, rest) := runFrom now (index + 1) rest
    -- a task that is late runs once, and its next period counts from now
    if entry.active ≠ 0 ∧ now - entry.lastRunMs ≥ entry.periodMs then
      ((index, entry.task) :: calls, { entry with lastRunMs := now } :: rest)
    else (calls, entry :: rest)

/-- A pass leaves as many slots in the table as it finds. -/
theorem length_runFrom (now : Word32) (index : ℕ) (tasks : List (SchedulerTask τ)) :
    (runFrom now index tasks).2.length = tasks.length := by
  induction tasks generalizing index with
  | nil => rfl
  | cons entry rest ih =>
    unfold runFrom
    dsimp only
    split
    · exact congrArg Nat.succ (ih (index + 1))
    · exact congrArg Nat.succ (ih (index + 1))

/-- `scheduler_run`, and the calls it makes. -/
def schedulerRun (now : Word32) (s : Scheduler τ) : List (ℕ × Option τ) × Scheduler τ :=
  ((runFrom now 0 s.tasks).1, ⟨(runFrom now 0 s.tasks).2, (length_runFrom ..).trans s.length_tasks⟩)

/-! ## Runs -/

/-- A registration, or a pass, at a true time. -/
inductive SchedulerEvent (τ : Type) where
  | add (task : Option τ) (periodMs : Word32) (t : ℕ)
  | pass (t : ℕ)

namespace SchedulerEvent

def time : SchedulerEvent τ → ℕ
  | .add _ _ t => t
  | .pass t => t

def isPass : SchedulerEvent τ → Bool
  | .add .. => false
  | .pass _ => true

end SchedulerEvent

def Scheduler.step (s : Scheduler τ) : SchedulerEvent τ → Scheduler τ
  | .add task periodMs t => (schedulerAddTask task periodMs (systemTimeMs t) s).2
  | .pass t => (schedulerRun (systemTimeMs t) s).2

/-- The table after a sequence of events. -/
def Scheduler.after (events : List (SchedulerEvent τ)) : Scheduler τ :=
  events.foldl Scheduler.step schedulerInit

/-! ## The plan -/

/-- **A registered task**, with the true time of its last dispatch, or of
its registration while it has had none. -/
structure Registered (τ : Type) where
  task : τ
  periodMs : Word32
  since : ℕ

/-- The registered tasks, in the order of their registration. -/
abbrev Plan (τ : Type) := List (Registered τ)

/-- Whether a task is due at a true time. -/
def Registered.DueAt (t : ℕ) (r : Registered τ) : Prop := r.periodMs.toNat ≤ t - r.since

instance (t : ℕ) (r : Registered τ) : Decidable (r.DueAt t) := inferInstanceAs (Decidable (_ ≤ _))

/-- **The calls of a pass**: the tasks that are due, each once, in the
order of their registration. -/
def Plan.calls (t : ℕ) (plan : Plan τ) : List (ℕ × Option τ) :=
  (plan.zipIdx.filter fun q => q.1.DueAt t).map fun q => (q.2, some q.1.task)

def Registered.dispatch (t : ℕ) (r : Registered τ) : Registered τ :=
  if r.DueAt t then { r with since := t } else r

/-- A task is taken while there is room for it. -/
def Plan.step (plan : Plan τ) : SchedulerEvent τ → Plan τ
  | .add (some task) periodMs t =>
    if periodMs ≠ 0 ∧ plan.length < schedulerMaxTasks then plan ++ [⟨task, periodMs, t⟩] else plan
  | .add none _ _ => plan
  | .pass t => plan.map (Registered.dispatch t)

/-- The plan after a sequence of events. -/
def Plan.after (events : List (SchedulerEvent τ)) : Plan τ := events.foldl Plan.step []

/-- **What is asked of a sequence of events**: time does not run backwards,
and a pass comes less than the range of the clock, less the largest
period, after the previous one, and after each registration since then. -/
structure Timely (events : List (SchedulerEvent τ)) : Prop where
  mono : events.Pairwise fun x y => x.time ≤ y.time
  prompt : ∀ before e between t after, events = before ++ e :: (between ++ .pass t :: after) →
    (∀ x ∈ between, x.isPass = false) →
    ∀ task periodMs t₀, .add task periodMs t₀ ∈ events → t - e.time < 2 ^ 32 - periodMs.toNat

/-! ## The table follows the plan -/

def Registered.entry (r : Registered τ) : SchedulerTask τ :=
  ⟨some r.task, r.periodMs, systemTimeMs r.since, 1⟩

/-- The table holds the plan, and nothing behind it. -/
structure Scheduler.Follows (s : Scheduler τ) (plan : Plan τ) : Prop where
  tasks : s.tasks = plan.map Registered.entry ++
    List.replicate (schedulerMaxTasks - plan.length) .cleared
  length_le : plan.length ≤ schedulerMaxTasks

variable {s : Scheduler τ} {plan : Plan τ} {events : List (SchedulerEvent τ)} {t : ℕ}
variable {r r' : Registered τ}

/-- Slots that are taken are passed over. -/
theorem addToFirst_entries (task : τ) (periodMs now : Word32) (tasks : List (SchedulerTask τ)) :
    addToFirst task periodMs now (plan.map Registered.entry ++ tasks) =
      ((addToFirst task periodMs now tasks).1,
        plan.map Registered.entry ++ (addToFirst task periodMs now tasks).2) := by
  induction plan with
  | nil => rfl
  | cons r plan ih =>
    have hactive : r.entry.active ≠ 0 := by
      show (1 : Byte) ≠ 0
      decide
    rw [List.map_cons, List.cons_append, addToFirst, if_neg hactive, ih]
    rfl

/-- The first free slot takes the task, with the time of the call as its
last run. -/
theorem addToFirst_cleared (task : τ) (periodMs now : Word32) (n : ℕ) :
    addToFirst task periodMs now (List.replicate (n + 1) .cleared) =
      (1, ⟨some task, periodMs, now, 1⟩ :: List.replicate n .cleared) := by
  rw [List.replicate_succ, addToFirst]
  exact if_pos rfl

/-- **Adding a task** keeps the table in step with the plan: both take it or
both refuse it. -/
theorem Scheduler.Follows.add (h : s.Follows plan) (task : Option τ) (periodMs : Word32)
    (t : ℕ) : (s.step (.add task periodMs t)).Follows (Plan.step plan (.add task periodMs t)) := by
  obtain ⟨htasks, hle⟩ := h
  rcases task with _ | task
  · exact ⟨htasks, hle⟩
  by_cases hp : periodMs = 0
  · have hs : s.step (.add (some task) periodMs t) = s := by
      simp only [Scheduler.step, schedulerAddTask, if_pos hp]
    rw [hs, Plan.step, if_neg fun hc => hc.1 hp]
    exact ⟨htasks, hle⟩
  have hs : (s.step (.add (some task) periodMs t)).tasks =
      (addToFirst task periodMs (systemTimeMs t) s.tasks).2 := by
    simp only [Scheduler.step, schedulerAddTask, if_neg hp]
  rw [htasks, addToFirst_entries] at hs
  by_cases hroom : plan.length < schedulerMaxTasks
  · obtain ⟨n, hn⟩ : ∃ n, schedulerMaxTasks - plan.length = n + 1 :=
      ⟨schedulerMaxTasks - plan.length - 1, by omega⟩
    rw [Plan.step, if_pos ⟨hp, hroom⟩]
    refine ⟨?_, by rw [List.length_append, List.length_singleton]; omega⟩
    have hrest : schedulerMaxTasks - (plan.length + 1) = n := by omega
    rw [hn, addToFirst_cleared] at hs
    rw [hs, List.map_append, List.length_append, List.length_singleton, hrest, List.append_assoc]
    rfl
  · have hfull : schedulerMaxTasks - plan.length = 0 := by omega
    rw [Plan.step, if_neg fun hc => hroom hc.2]
    refine ⟨?_, hle⟩
    rw [hs, hfull]
    rfl

/-- No call is made behind the plan. -/
theorem runFrom_cleared (now : Word32) (index n : ℕ) :
    runFrom now index (List.replicate n (.cleared : SchedulerTask τ)) =
      ([], List.replicate n .cleared) := by
  induction n generalizing index with
  | zero => rfl
  | succ n ih =>
    rw [List.replicate_succ, runFrom, ih]
    exact if_neg fun h => h.1 rfl

/-- **A task is called when it is due**, while its age is in range. -/
theorem due_entry_iff (hs : r.since ≤ t) (hage : t - r.since < 2 ^ 32) :
    (r.entry.active ≠ 0 ∧ systemTimeMs t - r.entry.lastRunMs ≥ r.entry.periodMs) ↔
      r.DueAt t := by
  have hactive : r.entry.active ≠ 0 := by
    show (1 : Byte) ≠ 0
    decide
  have hsub := toNat_systemTimeMs_sub hs hage
  constructor
  · rintro ⟨-, hge⟩
    have hle : r.periodMs.toNat ≤ (systemTimeMs t - systemTimeMs r.since).toNat := hge
    rw [hsub] at hle
    exact hle
  · intro hdue
    refine ⟨hactive, ?_⟩
    show r.periodMs.toNat ≤ (systemTimeMs t - systemTimeMs r.since).toNat
    rw [hsub]
    exact hdue

/-- **One pass over the table** calls what is due in the plan. -/
theorem runFrom_entries (hages : ∀ r ∈ plan, r.since ≤ t ∧ t - r.since < 2 ^ 32) (index n : ℕ) :
    runFrom (systemTimeMs t) index
        (plan.map Registered.entry ++ List.replicate n .cleared) =
      (((plan.zipIdx index).filter fun q => q.1.DueAt t).map fun q => (q.2, some q.1.task),
        (plan.map (Registered.dispatch t)).map Registered.entry ++ List.replicate n .cleared) := by
  induction plan generalizing index with
  | nil =>
    rw [List.map_nil, List.nil_append, runFrom_cleared]
    rfl
  | cons r plan ih =>
    have hr := hages r List.mem_cons_self
    have hiff := due_entry_iff hr.1 hr.2
    rw [List.map_cons, List.cons_append, runFrom,
      ih fun r hr => hages r (List.mem_cons_of_mem _ hr)]
    by_cases hdue : r.DueAt t
    · rw [List.zipIdx_cons, List.filter_cons_of_pos (by simpa using hdue)]
      simp only [if_pos (hiff.mpr hdue), List.map_cons, Registered.dispatch, if_pos hdue]
      rfl
    · rw [List.zipIdx_cons, List.filter_cons_of_neg (by simpa using hdue)]
      simp only [if_neg (mt hiff.mp hdue), List.map_cons, Registered.dispatch, if_neg hdue]
      rfl

/-- **A pass** calls exactly the tasks that the plan says are due, as long as
none was last run 2^32 ms ago or more. -/
theorem Scheduler.Follows.pass (h : s.Follows plan)
    (hages : ∀ r ∈ plan, r.since ≤ t ∧ t - r.since < 2 ^ 32) :
    (schedulerRun (systemTimeMs t) s).1 = Plan.calls t plan ∧
      (s.step (.pass t)).Follows (Plan.step plan (.pass t)) := by
  have hrun := runFrom_entries hages 0 (schedulerMaxTasks - plan.length)
  rw [← h.tasks] at hrun
  refine ⟨congrArg Prod.fst hrun, ?_, ?_⟩
  · rw [Plan.step, List.length_map]
    exact congrArg Prod.snd hrun
  · rw [Plan.step, List.length_map]
    exact h.length_le

/-! ## No age leaves the range of the clock -/

theorem Plan.after_snoc (events : List (SchedulerEvent τ)) (e : SchedulerEvent τ) :
    Plan.after (events ++ [e]) = Plan.step (Plan.after events) e := by
  rw [Plan.after, List.foldl_append]
  rfl

theorem Scheduler.after_snoc (events : List (SchedulerEvent τ)) (e : SchedulerEvent τ) :
    Scheduler.after (events ++ [e]) = (Scheduler.after events).step e := by
  rw [Scheduler.after, List.foldl_append]
  rfl

/-- A list of events that is timely has been so from its start. -/
theorem Timely.left {after : List (SchedulerEvent τ)} (h : Timely (events ++ after)) :
    Timely events := by
  refine ⟨(List.pairwise_append.mp h.mono).1, ?_⟩
  rintro before e between t rest rfl hbetween task periodMs t₀ hadd
  refine h.prompt before e between t (rest ++ after) ?_ hbetween task periodMs t₀
    (List.mem_append_left _ hadd)
  simp

/-- **A task is younger than its period where it was last looked at**: by a
pass, or when it was registered. -/
structure Registered.Seen (r : Registered τ) (events : List (SchedulerEvent τ)) : Prop where
  added : ∃ t₀, .add (some r.task) r.periodMs t₀ ∈ events
  young : ∃ before e between, events = before ++ e :: between ∧
    (∀ x ∈ between, x.isPass = false) ∧ r.since ≤ e.time ∧ e.time - r.since < r.periodMs.toNat

/-- A task that a pass has looked at stays looked at across what is no
pass. -/
theorem Registered.Seen.snoc (h : r.Seen events) {e : SchedulerEvent τ} (he : e.isPass = false) :
    r.Seen (events ++ [e]) := by
  obtain ⟨⟨t₀, hadd⟩, before, e₀, between, rfl, hbetween, hs, hlt⟩ := h
  refine ⟨⟨t₀, List.mem_append_left _ hadd⟩, before, e₀, between ++ [e], by simp, ?_, hs, hlt⟩
  intro x hx
  rcases List.mem_append.mp hx with hx | hx
  · exact hbetween x hx
  · rw [List.mem_singleton.mp hx]
    exact he

/-- A task that the last event looks at. -/
theorem Registered.seen_now {e : SchedulerEvent τ}
    (hadd : ∃ t₀, .add (some r.task) r.periodMs t₀ ∈ events ++ [e]) (hs : r.since ≤ e.time)
    (hlt : e.time - r.since < r.periodMs.toNat) : r.Seen (events ++ [e]) := by
  refine ⟨hadd, events, e, [], rfl, ?_, hs, hlt⟩
  intro x hx
  cases hx

/-- The age of a task at a pass: what it was where the task was last looked
at, and the time since then. -/
theorem Registered.Seen.age {after : List (SchedulerEvent τ)} (h : r.Seen events)
    (htimely : Timely (events ++ .pass t :: after)) :
    r.since ≤ t ∧ t - r.since < 2 ^ 32 := by
  obtain ⟨⟨t₀, hadd⟩, before, e, between, rfl, hbetween, hs, hlt⟩ := h
  have hmono : e.time ≤ t := (List.pairwise_append.mp htimely.mono).2.2 e
    (List.mem_append_right _ List.mem_cons_self) (.pass t) List.mem_cons_self
  have hgap := htimely.prompt before e between t after (by simp) hbetween _ _ t₀
    (List.mem_append_left _ hadd)
  omega

/-- **Every pass looks at every task.** -/
theorem seen_after (h : Timely events) : ∀ r ∈ Plan.after events, r.Seen events := by
  induction events using List.reverseRecOn with
  | nil =>
    intro r hr
    cases hr
  | append_singleton events e ih =>
    have ih := ih h.left
    intro r hr
    rw [Plan.after_snoc] at hr
    rcases e with ⟨_ | task, periodMs, t⟩ | t
    · exact (ih r hr).snoc rfl
    · rw [Plan.step] at hr
      split at hr
      · rename_i hroom
        rcases List.mem_append.mp hr with hr | hr
        · exact (ih r hr).snoc rfl
        · -- a new task is seen when it is registered
          obtain rfl := List.mem_singleton.mp hr
          refine Registered.seen_now ⟨t, List.mem_append_right _ (List.mem_singleton.mpr rfl)⟩
            (Nat.le_refl t) ?_
          have hpos : periodMs.toNat ≠ 0 := fun h0 => hroom.1 (BitVec.eq_of_toNat_eq h0)
          show t - t < periodMs.toNat
          omega
      · exact (ih r hr).snoc rfl
    · -- a pass dispatches what is due, and leaves what is young
      obtain ⟨r₀, hr₀, rfl⟩ := List.mem_map.mp hr
      have hseen := ih r₀ hr₀
      have hage := hseen.age h
      obtain ⟨t₀, hadd⟩ := hseen.added
      obtain ⟨before, e, between, -, -, -, hlt⟩ := hseen.young
      unfold Registered.dispatch
      split
      · refine Registered.seen_now ⟨t₀, List.mem_append_left _ hadd⟩ (Nat.le_refl t) ?_
        show t - t < r₀.periodMs.toNat
        omega
      · rename_i hdue
        exact Registered.seen_now ⟨t₀, List.mem_append_left _ hadd⟩ hage.1
          (Nat.lt_of_not_le hdue)

/-- **The table follows the plan** through every timely run. -/
theorem follows_after (h : Timely events) :
    (Scheduler.after events).Follows (Plan.after events) := by
  induction events using List.reverseRecOn with
  | nil => exact ⟨rfl, Nat.zero_le _⟩
  | append_singleton events e ih =>
    have ih := ih h.left
    rw [Scheduler.after_snoc, Plan.after_snoc]
    rcases e with ⟨task, periodMs, t⟩ | t
    · exact ih.add task periodMs t
    · exact (ih.pass fun r hr => (seen_after h.left r hr).age h).2

/-! ## The calls of a task are a period apart -/

/-- A call of the plan is that of a task that is due, under the index of
its slot. -/
theorem mem_calls {index : ℕ} {f : Option τ} :
    (index, f) ∈ Plan.calls t plan ↔
      ∃ r, plan[index]? = some r ∧ r.DueAt t ∧ f = some r.task := by
  simp only [Plan.calls, List.mem_map, List.mem_filter, decide_eq_true_eq, Prod.exists,
    Prod.mk.injEq, List.mk_mem_zipIdx_iff_getElem?]
  constructor
  · rintro ⟨r, i, ⟨hr, hdue⟩, rfl, rfl⟩
    exact ⟨r, hr, hdue, rfl⟩
  · rintro ⟨r, hr, hdue, rfl⟩
    exact ⟨r, index, ⟨hr, hdue⟩, rfl, rfl⟩

/-- A task keeps its place, and its last dispatch only moves forward. -/
theorem Plan.kept {index u : ℕ} (h : plan[index]? = some r) (hu : u ≤ r.since)
    (hevents : ∀ e ∈ events, u ≤ e.time) :
    ∃ r', (events.foldl Plan.step plan)[index]? = some r' ∧ r'.task = r.task ∧
      r'.periodMs = r.periodMs ∧ u ≤ r'.since := by
  induction events generalizing plan r with
  | nil => exact ⟨r, h, rfl, rfl, hu⟩
  | cons e events ih =>
    have htail : ∀ e ∈ events, u ≤ e.time := fun e he => hevents e (List.mem_cons_of_mem _ he)
    have hstep : ∃ r', (Plan.step plan e)[index]? = some r' ∧ r'.task = r.task ∧
        r'.periodMs = r.periodMs ∧ u ≤ r'.since := by
      rcases e with ⟨_ | task, periodMs, t⟩ | t
      · exact ⟨r, h, rfl, rfl, hu⟩
      · rw [Plan.step]
        split
        · refine ⟨r, ?_, rfl, rfl, hu⟩
          rw [List.getElem?_append_left (List.getElem?_eq_some_iff.mp h).1]
          exact h
        · exact ⟨r, h, rfl, rfl, hu⟩
      · refine ⟨r.dispatch t, ?_, ?_⟩
        · rw [Plan.step, List.getElem?_map, h]
          rfl
        · unfold Registered.dispatch
          split
          · exact ⟨rfl, rfl, hevents _ List.mem_cons_self⟩
          · exact ⟨rfl, rfl, hu⟩
    obtain ⟨r₁, h₁, htask, hperiod, hu₁⟩ := hstep
    obtain ⟨r₂, h₂, htask₂, hperiod₂, hu₂⟩ := ih h₁ hu₁ htail
    exact ⟨r₂, h₂, htask₂.trans htask, hperiod₂.trans hperiod, hu₂⟩

/-- **Scheduling is exact across the wrap of the clock.** In every timely
sequence of registrations and passes, a pass calls exactly the tasks whose
true time since their last dispatch, or registration, is at least their
period, each once and in the order of registration; so two calls of one
task are never closer than its period. -/
theorem scheduling_exact (events : List (SchedulerEvent τ)) (h : Timely events) :
    (∀ before t after, events = before ++ .pass t :: after →
      (schedulerRun (systemTimeMs t) (Scheduler.after before)).1 =
        Plan.calls t (Plan.after before)) ∧
    ∀ before t between t' after, events = before ++ .pass t :: (between ++ .pass t' :: after) →
      ∀ index f f',
        (index, f) ∈ (schedulerRun (systemTimeMs t) (Scheduler.after before)).1 →
        (index, f') ∈ (schedulerRun (systemTimeMs t')
          (Scheduler.after (before ++ .pass t :: between))).1 →
        ∃ r, (Plan.after before)[index]? = some r ∧ f = some r.task ∧ f' = some r.task ∧
          r.periodMs.toNat ≤ t' - t := by
  have hcalls : ∀ before t after, events = before ++ .pass t :: after →
      (schedulerRun (systemTimeMs t) (Scheduler.after before)).1 =
        Plan.calls t (Plan.after before) := by
    rintro before t after rfl
    exact ((follows_after h.left).pass fun r hr => (seen_after h.left r hr).age h).1
  refine ⟨hcalls, ?_⟩
  intro before t between t' after he index f f' hf hf'
  rw [hcalls before t _ he] at hf
  rw [hcalls (before ++ .pass t :: between) t' after (by simp [he])] at hf'
  obtain ⟨r, hr, hdue, rfl⟩ := mem_calls.mp hf
  obtain ⟨r', hr', hdue', rfl⟩ := mem_calls.mp hf'
  have hdispatched : (Plan.step (Plan.after before) (.pass t))[index]? =
      some { r with since := t } := by
    rw [Plan.step, List.getElem?_map, hr]
    exact congrArg some (if_pos hdue)
  have hlater : ∀ e ∈ between, t ≤ e.time := by
    intro e hmem
    have hmono := h.mono
    rw [he] at hmono
    have htail := (List.pairwise_append.mp hmono).2.1
    exact (List.pairwise_cons.mp htail).1 e (List.mem_append_left _ hmem)
  obtain ⟨r'', hr'', htask, hperiod, hsince⟩ := Plan.kept hdispatched (Nat.le_refl t) hlater
  have hsame : Plan.after (before ++ .pass t :: between) =
      between.foldl Plan.step (Plan.step (Plan.after before) (.pass t)) := by
    rw [Plan.after, List.foldl_append, List.foldl_cons]
    rfl
  rw [hsame, hr''] at hr'
  obtain rfl := Option.some.inj hr'
  refine ⟨r, hr, rfl, congrArg some htask, ?_⟩
  have hage : r''.periodMs.toNat ≤ t' - r''.since := hdue'
  have hperiod' : r''.periodMs.toNat = r.periodMs.toNat := congrArg BitVec.toNat hperiod
  omega

/-- A task of period 10, and two passes about the wrap of the clock. -/
def wrapEvents : List (SchedulerEvent Unit) :=
  [.add (some ()) 10 4294967290, .pass 4294967298, .pass 4294967305]

theorem timely_wrapEvents : Timely wrapEvents := by
  have htimes : ∀ x ∈ wrapEvents, 4294967290 ≤ x.time ∧ x.time ≤ 4294967305 := by decide
  refine ⟨by decide, ?_⟩
  intro before e between t after he _ task periodMs t₀ hadd
  have hperiod : periodMs = 10 := by
    simp only [wrapEvents, List.mem_cons, SchedulerEvent.add.injEq, reduceCtorEq, List.not_mem_nil,
      or_false] at hadd
    exact hadd.2.1
  have h₁ := htimes e (by rw [he]; simp)
  have h₂ : t ≤ 4294967305 := (htimes (.pass t) (by rw [he]; simp)).2
  rw [hperiod]
  show t - e.time < 2 ^ 32 - 10
  omega

/-- 8 ms after its registration the task is not due, and 15 ms after it is. -/
theorem scheduling_exact_wrap :
    (schedulerRun (systemTimeMs 4294967298) (Scheduler.after (wrapEvents.take 1))).1 = [] ∧
      (schedulerRun (systemTimeMs 4294967305) (Scheduler.after (wrapEvents.take 2))).1 =
        [(0, some ())] := by
  have h := (scheduling_exact wrapEvents timely_wrapEvents).1
  exact ⟨(h (wrapEvents.take 1) _ _ rfl).trans (by decide),
    (h (wrapEvents.take 2) _ _ rfl).trans (by decide)⟩

end SentryCell
