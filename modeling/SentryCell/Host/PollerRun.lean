import Mathlib.Algebra.Order.Ring.Rat
import Mathlib.Tactic.Linarith
import Mathlib.Tactic.NormNum
import Mathlib.Tactic.Ring
/-!
# When the poller polls

`DashboardPoller.run` of `supervisor/dashboard.py`. A round of the loop is
given by what it observes: the stop event, the clock, and when its calls
begin and end. A cycle that succeeds moves its schedule on by one interval,
one that overruns or fails starts it anew, and `poller_never_bursts` is
what holds of every mixture of these.
-/

namespace SentryCell.Host

/-- **What one round of the loop observes**, and when. The fields of a call
that the round does not make are not read. -/
structure PollRound where
  /-- The first `is_set()`. -/
  stopped : Bool
  /-- `time.monotonic()` for `remaining`. -/
  reading : ℚ
  /-- When `wait` is called, and when and with what it returns, if it is. -/
  waitFrom : ℚ
  waitUntil : ℚ
  waited : Bool
  /-- The second `is_set()`. -/
  stoppedThen : Bool
  /-- When `poll_once` starts and ends, and what it returns. -/
  cycleStart : ℚ
  cycleEnd : ℚ
  succeeded : Bool
  /-- `time.monotonic()` into `now`. -/
  now : ℚ
  deriving DecidableEq, Repr

namespace PollRound

/-- `remaining`. -/
def remaining (r : PollRound) (nextCycleAt : ℚ) : ℚ := max 0 (nextCycleAt - r.reading)

/-- Whether the loop is left without a cycle: it has seen the event set. -/
def leaves (r : PollRound) (nextCycleAt : ℚ) : Bool :=
  r.stopped || (decide (r.remaining nextCycleAt > 0) && r.waited) || r.stoppedThen

/-- The schedule after the cycle. -/
def schedule (r : PollRound) (interval nextCycleAt : ℚ) : ℚ :=
  if r.succeeded then
    let nextCycleAt := nextCycleAt + interval
    -- slots that have passed are dropped, not made up for
    if nextCycleAt ≤ r.now then r.now + interval else nextCycleAt
  else r.now + interval

/-- **A round that runs its cycle, on a clock that does not go backwards**,
from `t` on. `wait` does not return `False` before its timeout has passed. -/
structure OnClock (r : PollRound) (nextCycleAt t : ℚ) : Prop where
  reading : t ≤ r.reading
  wait : r.remaining nextCycleAt > 0 →
    r.reading ≤ r.waitFrom ∧ r.waitFrom + r.remaining nextCycleAt ≤ r.waitUntil ∧
      r.waitUntil ≤ r.cycleStart
  start : r.reading ≤ r.cycleStart
  finish : r.cycleStart ≤ r.cycleEnd
  now : r.cycleEnd ≤ r.now

end PollRound

/-- A cycle that was run, and the time it was due at. -/
structure PollCycle where
  slot : ℚ
  round : PollRound
  deriving DecidableEq, Repr

/-- What `run` does with the stop event and the link, in order. -/
inductive PollEvent where
  | isSet (answer : Bool)
  | wait (timeout : ℚ) (answer : Bool)
  | cycle (c : PollCycle)
  deriving DecidableEq, Repr

namespace PollEvent

/-- The call has seen the stop event set. -/
def seesSet : PollEvent → Bool
  | isSet answer => answer
  | wait _ answer => answer
  | cycle _ => false

def cycle? : PollEvent → Option PollCycle
  | isSet _ => none
  | wait _ _ => none
  | cycle c => some c

@[simp] theorem seesSet_isSet (b : Bool) : (isSet b).seesSet = b := rfl

@[simp] theorem seesSet_wait (timeout : ℚ) (b : Bool) : (wait timeout b).seesSet = b := rfl

@[simp] theorem seesSet_cycle (c : PollCycle) : (cycle c).seesSet = false := rfl

end PollEvent

/-- **The loop of `run`**, from the schedule `nextCycleAt` on. -/
def pollLoop (interval : ℚ) : ℚ → List PollRound → List PollEvent
  | _, [] => []
  | nextCycleAt, r :: rounds =>
    .isSet r.stopped ::
      if r.stopped then []
      else
        let remaining := r.remaining nextCycleAt
        (if remaining > 0 then [.wait remaining r.waited] else []) ++
          if remaining > 0 ∧ r.waited then []
          else
            .isSet r.stoppedThen ::
              if r.stoppedThen then []
              else
                .cycle ⟨nextCycleAt, r⟩ ::
                  pollLoop interval (r.schedule interval nextCycleAt) rounds

/-- `run`, started at `t₀`. -/
def pollRun (interval t₀ : ℚ) (rounds : List PollRound) : List PollEvent :=
  pollLoop interval t₀ rounds

/-- The cycles of a run, in order. -/
def pollCycles (events : List PollEvent) : List PollCycle := events.filterMap PollEvent.cycle?

/-- **The rounds of a run on one clock.** -/
def RoundsOnClock (interval : ℚ) : ℚ → ℚ → List PollRound → Prop
  | _, _, [] => True
  | nextCycleAt, t, r :: rounds =>
    r.leaves nextCycleAt = false →
      r.OnClock nextCycleAt t ∧
        RoundsOnClock interval (r.schedule interval nextCycleAt) r.now rounds

variable {interval nextCycleAt t : ℚ} {r : PollRound} {rounds : List PollRound}

/-- A cycle is run when it is due, or later. -/
theorem PollRound.OnClock.due (h : r.OnClock nextCycleAt t) : nextCycleAt ≤ r.cycleStart := by
  have hmax : nextCycleAt - r.reading ≤ r.remaining nextCycleAt := le_max_right _ _
  by_cases hremaining : r.remaining nextCycleAt > 0
  · obtain ⟨hcalled, htimeout, hreturned⟩ := h.wait hremaining
    linarith
  · have hstart := h.start
    linarith

/-- **The schedule moves on by an interval at least.** -/
theorem PollRound.OnClock.le_schedule (h : r.OnClock nextCycleAt t) :
    nextCycleAt + interval ≤ r.schedule interval nextCycleAt := by
  have hdue := h.due
  have hfinish := h.finish
  have hnow := h.now
  unfold PollRound.schedule
  split
  · dsimp only
    split
    · linarith
    · exact le_refl _
  · linarith

/-- After a failure, or an overrun, the next cycle is due an interval after
the end of this one. -/
theorem PollRound.OnClock.schedule_of_late (h : r.OnClock nextCycleAt t)
    (hlate : r.succeeded = false ∨ nextCycleAt + interval ≤ r.now) :
    r.cycleEnd + interval ≤ r.schedule interval nextCycleAt := by
  have hnow := h.now
  unfold PollRound.schedule
  rcases hlate with hfailed | hover
  · rw [hfailed, if_neg Bool.false_ne_true]
    linarith
  · dsimp only
    rw [if_pos hover, ite_self]
    linarith

@[simp] theorem pollCycles_nil : pollCycles [] = [] := rfl

@[simp] theorem pollCycles_isSet (b : Bool) (events : List PollEvent) :
    pollCycles (.isSet b :: events) = pollCycles events := rfl

@[simp] theorem pollCycles_wait (timeout : ℚ) (b : Bool) (events : List PollEvent) :
    pollCycles (.wait timeout b :: events) = pollCycles events := rfl

@[simp] theorem pollCycles_cycle (c : PollCycle) (events : List PollEvent) :
    pollCycles (.cycle c :: events) = c :: pollCycles events := rfl

/-- A round that has seen the event set leaves the loop, and the others
run one cycle. -/
theorem pollCycles_cons :
    pollCycles (pollLoop interval nextCycleAt (r :: rounds)) =
      if r.leaves nextCycleAt then []
      else ⟨nextCycleAt, r⟩ ::
        pollCycles (pollLoop interval (r.schedule interval nextCycleAt) rounds) := by
  rw [pollLoop]
  by_cases hremaining : r.remaining nextCycleAt > 0 <;> cases hstopped : r.stopped <;>
    cases hwaited : r.waited <;> cases hthen : r.stoppedThen <;>
    simp [PollRound.leaves, *]

/-- **Every cycle starts when it is due or later**, and the due times are
an interval apart at least. -/
theorem pollCycles_due (hclock : RoundsOnClock interval nextCycleAt t rounds) (k : ℕ)
    (c : PollCycle) (hc : (pollCycles (pollLoop interval nextCycleAt rounds))[k]? = some c) :
    nextCycleAt + k * interval ≤ c.slot ∧ c.slot ≤ c.round.cycleStart := by
  induction rounds generalizing nextCycleAt t k with
  | nil => simp [pollLoop, pollCycles] at hc
  | cons r rounds ih =>
    rw [pollCycles_cons] at hc
    split at hc
    · simp at hc
    · rename_i hstays
      have hstays' : r.leaves nextCycleAt = false := by simpa using hstays
      obtain ⟨hround, hrounds⟩ := hclock hstays'
      have hmoves : nextCycleAt + interval ≤ _ := hround.le_schedule
      rcases k with _ | k
      · rw [List.getElem?_cons_zero, Option.some.injEq] at hc
        subst hc
        refine ⟨?_, hround.due⟩
        simp
      · rw [List.getElem?_cons_succ] at hc
        obtain ⟨hslot, hstart⟩ := ih hrounds k hc
        refine ⟨?_, hstart⟩
        push_cast
        linarith

/-- Two cycles in a row are two rounds, and the second is due by what the
first left. -/
theorem pollCycles_succ (hclock : RoundsOnClock interval nextCycleAt t rounds) (k : ℕ)
    (c c' : PollCycle) (hc : (pollCycles (pollLoop interval nextCycleAt rounds))[k]? = some c)
    (hc' : (pollCycles (pollLoop interval nextCycleAt rounds))[k + 1]? = some c') :
    (∃ t, c.round.OnClock c.slot t) ∧ c.round.schedule interval c.slot ≤ c'.round.cycleStart := by
  induction rounds generalizing nextCycleAt t k with
  | nil => simp [pollLoop, pollCycles] at hc
  | cons r rounds ih =>
    rw [pollCycles_cons] at hc hc'
    split at hc
    · simp at hc
    · rename_i hstays
      obtain ⟨hround, hrounds⟩ := hclock (by simpa using hstays)
      rw [if_neg hstays, List.getElem?_cons_succ] at hc'
      rcases k with _ | k
      · rw [List.getElem?_cons_zero, Option.some.injEq] at hc
        subst hc
        obtain ⟨hslot, hstart⟩ := pollCycles_due hrounds 0 c' hc'
        have hdue : r.schedule interval nextCycleAt ≤ c'.slot := by simpa using hslot
        exact ⟨⟨t, hround⟩, hdue.trans hstart⟩
      · rw [List.getElem?_cons_succ] at hc
        exact ih hrounds k hc hc'

/-- **What has seen the event set is the last thing the loop does.** -/
theorem pollLoop_pairwise :
    (pollLoop interval nextCycleAt rounds).Pairwise fun e _ => e.seesSet = false := by
  induction rounds generalizing nextCycleAt with
  | nil => exact List.Pairwise.nil
  | cons r rounds ih =>
    have hrest : (pollLoop interval (r.schedule interval nextCycleAt) rounds).Pairwise
        fun e _ => e.seesSet = false := ih
    rw [pollLoop]
    by_cases hremaining : r.remaining nextCycleAt > 0 <;> cases hstopped : r.stopped <;>
      cases hwaited : r.waited <;> cases hthen : r.stoppedThen <;>
      simp [hremaining, hrest]

/-- **The poller never bursts.** Whatever the cycles take and however they
end, on a clock that does not go backwards: the `k`-th cycle does not start
before `t₀ + k * interval`; one that follows a failed cycle, or a cycle that
succeeded and overran its slot, starts an interval after the end of that
one at least; and when the loop has seen the stop event set it starts no
cycle. -/
theorem poller_never_bursts (interval t₀ : ℚ) (rounds : List PollRound)
    (hclock : RoundsOnClock interval t₀ t₀ rounds) :
    (∀ (k : ℕ) c, (pollCycles (pollRun interval t₀ rounds))[k]? = some c →
      t₀ + k * interval ≤ c.round.cycleStart) ∧
    (∀ (k : ℕ) c c', (pollCycles (pollRun interval t₀ rounds))[k]? = some c →
      (pollCycles (pollRun interval t₀ rounds))[k + 1]? = some c' →
      c.round.succeeded = false ∨ c.slot + interval ≤ c.round.now →
      c.round.cycleEnd + interval ≤ c'.round.cycleStart) ∧
    ∀ before e after, pollRun interval t₀ rounds = before ++ e :: after → e.seesSet = true →
      ∀ c, PollEvent.cycle c ∉ after := by
  refine ⟨?_, ?_, ?_⟩
  · intro k c hc
    have hdue := pollCycles_due hclock k c hc
    exact hdue.1.trans hdue.2
  · intro k c c' hc hc' hlate
    obtain ⟨⟨t, hround⟩, hnext⟩ := pollCycles_succ hclock k c c' hc hc'
    have hrest := hround.schedule_of_late hlate
    exact hrest.trans hnext
  · intro before e after heq hset c hc
    have hpairs : (before ++ e :: after).Pairwise fun e _ => e.seesSet = false := by
      rw [← heq]
      exact pollLoop_pairwise
    have hlast := (List.pairwise_cons.1 (List.pairwise_append.1 hpairs).2.1).1 _ hc
    rw [hset] at hlast
    cases hlast

/-- A first cycle that fails after six fifths of a second, and a second one
when the clock allows it; then the event is set. -/
theorem poller_never_bursts_failed :
    let failed : PollRound := ⟨false, 0, 0, 0, false, false, 0, 6 / 5, false, 6 / 5⟩
    let late : PollRound := ⟨false, 6 / 5, 6 / 5, 11 / 5, false, false, 11 / 5, 5 / 2, true, 5 / 2⟩
    let stopped : PollRound := ⟨true, 5 / 2, 5 / 2, 5 / 2, false, false, 3, 3, true, 3⟩
    failed.cycleEnd + 1 ≤ late.cycleStart ∧
      pollCycles (pollRun 1 0 [failed, late, stopped]) = [⟨0, failed⟩, ⟨11 / 5, late⟩] := by
  intro failed late stopped
  -- the schedule of each round, from the one before it
  have hfailed : failed.schedule 1 0 = 11 / 5 := by
    norm_num [failed, PollRound.schedule]
  have hlate : late.schedule 1 (11 / 5) = 16 / 5 := by
    norm_num [late, PollRound.schedule]
  have hclock : RoundsOnClock 1 0 0 [failed, late, stopped] := by
    rw [RoundsOnClock, RoundsOnClock, RoundsOnClock, hfailed, hlate]
    refine fun _ => ⟨?_, fun _ => ⟨?_, fun hstays => nomatch hstays⟩⟩ <;>
      constructor <;> norm_num [failed, late, PollRound.remaining]
  have hcycles : pollCycles (pollRun 1 0 [failed, late, stopped]) =
      [⟨0, failed⟩, ⟨11 / 5, late⟩] := by
    rw [pollRun, pollCycles_cons, hfailed, pollCycles_cons, hlate, pollCycles_cons]
    norm_num [failed, late, stopped, PollRound.leaves, PollRound.remaining]
  refine ⟨?_, hcycles⟩
  have hnever := (poller_never_bursts 1 0 _ hclock).2.1 0 ⟨0, failed⟩ ⟨11 / 5, late⟩
  rw [hcycles] at hnever
  exact hnever rfl rfl (Or.inl rfl)

end SentryCell.Host
