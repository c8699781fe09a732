import SentryCell.Host.Dashboard
/-!
# The log the store stands for

The calls of `record_success` and `record_failure`, oldest first, are all
there is to know: the last success, the state of the connection and the
events are functions of them (`lastSuccess`, `connectionAfter`,
`eventLog`), with no snapshot to carry and no bound. `Refines` relates a
store to its log, and `dashboard_refines_log` reads off what the store
shows.
-/

namespace SentryCell.Host

/-! ## The log -/

/-- A call of the store, with its timestamp. -/
inductive StoreCall (T : Type) where
  | success (telemetry : Telemetry) (now : T)
  | failure (error : String) (now : T)

variable {T : Type}

/-- When a call was made. -/
def StoreCall.time : StoreCall T → T
  | .success _ now => now
  | .failure _ now => now

/-- The successes among the calls, with their times. -/
def successes (calls : List (StoreCall T)) : List (Telemetry × T) :=
  calls.filterMap fun c => match c with
    | .success telemetry now => some (telemetry, now)
    | .failure _ _ => none

def lastSuccess (calls : List (StoreCall T)) : Option (Telemetry × T) :=
  (successes calls).getLast?

/-- **What an event is about.** -/
inductive Change where
  | connected
  | recovered
  | degraded (error : String)
  | disconnected (error : String)
  | counter (name : String) (before after : ℤ)
  | watchdogMarker
  deriving DecidableEq, Repr

def Change.level : Change → Level
  | .connected => .info
  | .recovered => .info
  | .degraded _ => .warning
  | .disconnected _ => .error
  | .counter _ _ _ => .warning
  | .watchdogMarker => .warning

def Change.text : Change → String
  | .connected => "Connected"
  | .recovered => "Connection recovered"
  | .degraded error => "Connection degraded: " ++ boundedError error
  | .disconnected error => "Disconnected: " ++ boundedError error
  | .counter name before after =>
    name ++ " changed: " ++ toString before ++ " → " ++ toString after
  | .watchdogMarker => "Previous watchdog timeout marker detected"

/-- The three communication counters. -/
def commCounters : List (String × (Telemetry → ℤ)) :=
  [("RX overflow counter", (·.comm.uartRxOverflow)),
    ("Parser timeout counter", (·.comm.parserTimeouts)),
    ("CRC error counter", (·.comm.crcErrors))]

/-- The four overrun counters. -/
def overrunCounters : List (String × (Telemetry → ℤ)) :=
  [("Actuator overrun counter", (·.overruns.actuator)),
    ("Control overrun counter", (·.overruns.control)),
    ("Sensor/Safety overrun counter", (·.overruns.sensorSafety)),
    ("Communication overrun counter", (·.overruns.communication))]

/-- One change for each counter that differs. -/
def counterChanges (counters : List (String × (Telemetry → ℤ))) (before after : Telemetry) :
    List Change :=
  counters.flatMap fun c =>
    if c.2 before = c.2 after then [] else [.counter c.1 (c.2 before) (c.2 after)]

/-- What a success changes of the values of the last one, if there was
one. -/
def valueChanges (last : Option Telemetry) (current : Telemetry) : List Change :=
  (last.elim [] fun previous => counterChanges commCounters previous current) ++
  (if current.watchdog.timeoutMarker = 1 ∧ last.map (·.watchdog.timeoutMarker) ≠ some 1 then
    [.watchdogMarker] else []) ++
  last.elim [] fun previous => counterChanges overrunCounters previous current

variable [LinearOrder T] [Sub T] [Zero T] (clock : Clock T) (limits : StoreLimits T)

/-- **The state of the connection**, from the last call and the last
success. -/
def connectionAfter (calls : List (StoreCall T)) : Connection :=
  match calls.getLast? with
  | none => .disconnected
  | some (.success _ _) => .connected
  | some (.failure _ now) =>
    match lastSuccess calls with
    | none => .disconnected
    | some (_, updated) =>
      if now - updated > limits.staleAfterSeconds then .disconnected else .degraded

/-- The change of connection state a call makes, if it makes one. -/
def connectionChanges (before : List (StoreCall T)) (c : StoreCall T) : List Change :=
  if connectionAfter limits (before ++ [c]) = connectionAfter limits before then []
  else match c with
    | .success _ _ => [if lastSuccess before = none then .connected else .recovered]
    | .failure error _ =>
      [if connectionAfter limits (before ++ [c]) = .degraded then .degraded error
        else .disconnected error]

/-- All that a call changes, after the calls before it. -/
def changes (before : List (StoreCall T)) (c : StoreCall T) : List Change :=
  connectionChanges limits before c ++
    match c with
    | .success telemetry _ => valueChanges ((lastSuccess before).map Prod.fst) telemetry
    | .failure _ _ => []

/-- The events of calls that come after others. -/
def eventsFrom (before : List (StoreCall T)) : List (StoreCall T) → List (T × Change)
  | [] => []
  | c :: calls =>
    (changes limits before c).map (fun change => (c.time, change)) ++
      eventsFrom (before ++ [c]) calls

/-- **The unbounded event log**, oldest first. -/
def eventLog (calls : List (StoreCall T)) : List (T × Change) := eventsFrom limits [] calls

/-- An event as the store keeps it. -/
def entry (event : T × Change) : EventEntry :=
  ⟨utcTimestamp clock event.1, event.2.level, bounded event.2.text⟩

/-- A success as the history keeps it. -/
def historySample (success : Telemetry × T) : HistorySample where
  timestamp := some (utcTimestamp clock success.2)
  cpuUtilizationPercent :=
    some (calculateScheduledTaskUtilization success.1.cpu.busyTicks success.1.cpu.elapsedMs)
  minimumFreeObservedBytes := some success.1.runtimeMemory.minFreeBytes
  rxOverflow := some success.1.comm.uartRxOverflow
  parserTimeout := some success.1.comm.parserTimeouts
  crcErrors := some success.1.comm.crcErrors

/-! ## The log grows by one call -/

section

variable {calls : List (StoreCall T)} {telemetry : Telemetry} {now : T} {error : String}
variable {c : StoreCall T}

omit [LinearOrder T] [Sub T] [Zero T] in
/-- A success is the last of the successes, with its time. -/
@[simp] theorem successes_success :
    successes (calls ++ [.success telemetry now]) = successes calls ++ [(telemetry, now)] := by
  simp [successes]

omit [LinearOrder T] [Sub T] [Zero T] in
/-- A failure adds nothing to the successes among the calls. -/
@[simp] theorem successes_failure :
    successes (calls ++ [.failure error now]) = successes calls := by
  simp [successes]

omit [LinearOrder T] [Sub T] [Zero T] in
/-- The last success is then the one that was just recorded. -/
@[simp] theorem lastSuccess_success :
    lastSuccess (calls ++ [.success telemetry now]) = some (telemetry, now) := by
  simp [lastSuccess]

omit [LinearOrder T] [Sub T] [Zero T] in
/-- A failure leaves the last success what it was, with its statuses and
its time. -/
@[simp] theorem lastSuccess_failure :
    lastSuccess (calls ++ [.failure error now]) = lastSuccess calls := by
  simp [lastSuccess]

variable {limits}

/-- After a success the connection is up, whatever it was before. -/
@[simp] theorem connectionAfter_success :
    connectionAfter limits (calls ++ [.success telemetry now]) = .connected := by
  simp [connectionAfter]

/-- After a failure it is what `record_failure` makes of the update time. -/
theorem connectionAfter_failure :
    connectionAfter limits (calls ++ [.failure error now]) =
      failedConnection limits ((lastSuccess calls).map Prod.snd) now := by
  simp only [connectionAfter, List.getLast?_concat, lastSuccess_failure]
  rcases lastSuccess calls with _ | ⟨telemetry, updated⟩
  · rfl
  · rfl

/-- One more call adds the events of what it changed, with its time. -/
theorem eventsFrom_snoc {before : List (StoreCall T)} :
    eventsFrom limits before (calls ++ [c]) = eventsFrom limits before calls ++
      (changes limits (before ++ calls) c).map fun change => (c.time, change) := by
  induction calls generalizing before with
  | nil => simp [eventsFrom]
  | cons d calls ih =>
    rw [List.cons_append, eventsFrom, eventsFrom, ih, List.append_assoc, List.append_assoc]
    rfl

/-- **One more call adds its own changes** to the log, judged after all the
calls before it. -/
theorem eventLog_snoc :
    eventLog limits (calls ++ [c]) =
      eventLog limits calls ++ (changes limits calls c).map fun change => (c.time, change) :=
  eventsFrom_snoc

/-! ## The events of a call -/

variable {clock}
variable {s : DashboardStore limits} {α : Type} {timestamp : T}

/-- What the loops over the fields append. -/
def fieldEvents (clock : Clock T) (fields : List (String × (α → ℤ))) (what : String)
    (previous current : α) (timestamp : T) : List EventEntry :=
  fields.flatMap fun field =>
    if field.2 previous = field.2 current then []
    else [⟨utcTimestamp clock timestamp, .warning,
      bounded (counterText field.1 what (field.2 previous) (field.2 current))⟩]

omit [Sub T] in
/-- **The events of a group of counters** are those of the fields that differ,
in the order of the fields. -/
theorem recordFieldChanges_eq (fields : List (String × (α → ℤ))) (what : String)
    (previous current : α) :
    s.recordFieldChanges clock fields what previous current timestamp =
      { s with events :=
          s.events.extend (fieldEvents clock fields what previous current timestamp) } := by
  induction fields generalizing s with
  | nil => rfl
  | cons field fields ih =>
    show DashboardStore.recordFieldChanges clock fields what previous current timestamp
      (s.recordFieldChange clock what previous current timestamp field) = _
    rw [ih, DashboardStore.recordFieldChange, fieldEvents, fieldEvents]
    by_cases h : field.2 previous = field.2 current
    · simp only [List.flatMap_cons, if_pos h, if_neg (not_not.mpr h), List.nil_append]
    · simp only [List.flatMap_cons, if_pos (show ¬ _ from h), if_neg h]
      rfl

omit [LinearOrder T] [Sub T] [Zero T] in
/-- The counters are the fields, each under its name. -/
theorem fieldEvents_eq {fields : List (String × (α → ℤ))} {what : String} {value : Telemetry → α}
    {counters : List (String × (Telemetry → ℤ))} {previous current : Telemetry}
    (h : List.Forall₂ (fun f c => f.1 ++ " " ++ what = c.1 ∧ ∀ t, f.2 (value t) = c.2 t)
      fields counters) :
    fieldEvents clock fields what (value previous) (value current) timestamp =
      (counterChanges counters previous current).map fun change =>
        entry clock (timestamp, change) := by
  induction h with
  | nil => rfl
  | @cons f c fields counters hfc _ ih =>
    obtain ⟨hname, hvalue⟩ := hfc
    have hfields : fieldEvents clock (f :: fields) what (value previous) (value current) timestamp =
        (if f.2 (value previous) = f.2 (value current) then []
          else [⟨utcTimestamp clock timestamp, .warning,
            bounded (counterText f.1 what (f.2 (value previous)) (f.2 (value current)))⟩]) ++
        fieldEvents clock fields what (value previous) (value current) timestamp :=
      List.flatMap_cons
    have hcounters : counterChanges (c :: counters) previous current =
        (if c.2 previous = c.2 current then []
          else [.counter c.1 (c.2 previous) (c.2 current)]) ++
        counterChanges counters previous current := List.flatMap_cons
    rw [hfields, hcounters, List.map_append, ih, hvalue, hvalue, counterText, hname]
    by_cases hsame : c.2 previous = c.2 current
    · rw [if_pos hsame, if_pos hsame]
      rfl
    · rw [if_neg hsame, if_neg hsame]
      rfl

/-- The counters of COMM_STATUS that the code compares are those of the
abstract log, under the same names. -/
theorem commFields_counters : List.Forall₂
    (fun (f : String × (CommStatus → ℤ)) (c : String × (Telemetry → ℤ)) =>
      f.1 ++ " " ++ "counter" = c.1 ∧ ∀ t, f.2 t.comm = c.2 t) commFields commCounters :=
  .cons ⟨by decide, fun _ => rfl⟩ (.cons ⟨by decide, fun _ => rfl⟩
    (.cons ⟨by decide, fun _ => rfl⟩ .nil))

/-- The counters of OVERRUN_STATUS that the code compares are those of the
abstract log as well, under the same names. -/
theorem overrunFields_counters : List.Forall₂
    (fun (f : String × (OverrunStatus → ℤ)) (c : String × (Telemetry → ℤ)) =>
      f.1 ++ " " ++ "overrun counter" = c.1 ∧ ∀ t, f.2 t.overruns = c.2 t)
    overrunFields overrunCounters :=
  .cons ⟨by decide, fun _ => rfl⟩ (.cons ⟨by decide, fun _ => rfl⟩
    (.cons ⟨by decide, fun _ => rfl⟩ (.cons ⟨by decide, fun _ => rfl⟩ .nil)))

/-- The snapshot of the last success, with whatever has become of the
connection. -/
def lastSnapshot (last : Option (Telemetry × T)) : DashboardSnapshot T :=
  match last with
  | none => {}
  | some (telemetry, updated) => telemetry.snapshot updated

omit [Sub T] in
/-- **The value changes are those since the last success.** -/
theorem recordValueChangeEventsLocked_eq {previous : DashboardSnapshot T}
    {last : Option (Telemetry × T)} (hcomm : previous.comm = last.map (·.1.comm))
    (hoverruns : previous.overruns = last.map (·.1.overruns))
    (hwatchdog : previous.watchdog = last.map (·.1.watchdog)) :
    s.recordValueChangeEventsLocked clock previous (telemetry.snapshot now) timestamp =
      { s with events := s.events.extend ((valueChanges (last.map Prod.fst) telemetry).map
          fun change => entry clock (timestamp, change)) } := by
  have hmarker : ∀ (s : DashboardStore limits) (before : Option ℤ),
      (if some telemetry.watchdog.timeoutMarker = some (1 : ℤ) ∧ before ≠ some 1 then
        s.appendEventLocked clock timestamp .warning "Previous watchdog timeout marker detected"
      else s) =
      { s with events := s.events.extend ((if telemetry.watchdog.timeoutMarker = 1 ∧
          before ≠ some 1 then [Change.watchdogMarker] else []).map
            fun change => entry clock (timestamp, change)) } := by
    intro s before
    by_cases h : telemetry.watchdog.timeoutMarker = 1 ∧ before ≠ some 1
    · rw [if_pos ⟨congrArg some h.1, h.2⟩, if_pos h]
      rfl
    · rw [if_neg fun hc => h ⟨Option.some.inj hc.1, hc.2⟩, if_neg h]
      rfl
  simp only [DashboardStore.recordValueChangeEventsLocked, hcomm, hoverruns, hwatchdog]
  rcases last with _ | ⟨previous, updated⟩
  · simp only [Option.map_none, Option.map_some, Telemetry.snapshot, valueChanges,
      Option.elim_none, List.nil_append, List.append_nil]
    exact hmarker s none
  · simp only [Option.map_some, Telemetry.snapshot, valueChanges, Option.elim_some,
      recordFieldChanges_eq, hmarker, List.map_append, BoundedDeque.extend_append,
      fieldEvents_eq commFields_counters, fieldEvents_eq overrunFields_counters]

end

/-! ## The refinement -/

/-- A call, made. -/
def DashboardStore.call (s : DashboardStore limits) : StoreCall T → DashboardStore limits
  | .success telemetry now => s.recordSuccess clock telemetry now
  | .failure error now => s.recordFailure clock error now

/-- The store after its calls. -/
def DashboardStore.run (calls : List (StoreCall T)) : DashboardStore limits :=
  calls.foldl (DashboardStore.call clock limits) (.new limits)

/-- **A store and the log it stands for.** -/
structure Refines (calls : List (StoreCall T)) (s : DashboardStore limits) : Prop where
  snapshot : s.snapshot =
    { lastSnapshot (lastSuccess calls) with
      connection := connectionAfter limits calls
      lastError := s.snapshot.lastError }
  history : s.history.Holds ((successes calls).map (historySample clock))
  events : s.events.Holds ((eventLog limits calls).map (entry clock))

variable {clock limits} {calls : List (StoreCall T)} {s : DashboardStore limits}

/-- The snapshot carries the time of the last success. -/
theorem Refines.updatedAt (h : Refines clock limits calls s) :
    s.snapshot.updatedAtEpoch = (lastSuccess calls).map Prod.snd := by
  rw [h.snapshot]
  rcases lastSuccess calls with _ | ⟨telemetry, updated⟩
  · rfl
  · rfl

/-- A store that refines a log has the connection that follows from its
calls. -/
theorem Refines.connection (h : Refines clock limits calls s) :
    s.snapshot.connection = connectionAfter limits calls := by
  rw [h.snapshot]

/-- What a snapshot keeps of the last success are all the values of its
telemetry. -/
theorem Refines.values (h : Refines clock limits calls s) :
    s.snapshot.comm = (lastSuccess calls).map (·.1.comm) ∧
      s.snapshot.overruns = (lastSuccess calls).map (·.1.overruns) ∧
      s.snapshot.watchdog = (lastSuccess calls).map (·.1.watchdog) := by
  rw [h.snapshot]
  rcases lastSuccess calls with _ | ⟨telemetry, updated⟩
  · exact ⟨rfl, rfl, rfl⟩
  · exact ⟨rfl, rfl, rfl⟩

/-- **A success is logged**: history, events, connection and values are those
of the longer log. -/
theorem Refines.recordSuccess (h : Refines clock limits calls s) (telemetry : Telemetry)
    (now : T) :
    Refines clock limits (calls ++ [.success telemetry now])
      (s.recordSuccess clock telemetry now) := by
  obtain ⟨hcomm, hoverruns, hwatchdog⟩ := h.values
  -- the event of the connection, where its state changes
  have hconnection : (if s.snapshot.connection ≠ .connected then
      s.appendEventLocked clock now .info
        (if s.snapshot.updatedAtEpoch = none then "Connected" else "Connection recovered")
      else s) =
      { s with
        events := s.events.extend ((connectionChanges limits calls (.success telemetry now)).map
          fun change => entry clock (now, change)) } := by
    rw [connectionChanges, connectionAfter_success, ← h.connection]
    by_cases hc : s.snapshot.connection = .connected
    · rw [if_neg (not_not.mpr hc), if_pos hc.symm]
      rfl
    · rw [if_pos hc, if_neg (Ne.symm hc), h.updatedAt]
      rcases lastSuccess calls with _ | ⟨previous, updated⟩
      · rfl
      · rfl
  have hrecord : s.recordSuccess clock telemetry now =
      { snapshot := telemetry.snapshot now
        history := s.history.append (historySample clock (telemetry, now))
        events := s.events.extend ((changes limits calls (.success telemetry now)).map
          fun change => entry clock (now, change)) } := by
    simp only [DashboardStore.recordSuccess, hconnection,
      recordValueChangeEventsLocked_eq hcomm hoverruns hwatchdog]
    rw [changes, List.map_append, BoundedDeque.extend_append]
    rfl
  rw [hrecord]
  refine ⟨?_, ?_, ?_⟩
  · rw [lastSuccess_success, connectionAfter_success]
    rfl
  · rw [successes_success, List.map_append]
    exact h.history.append _
  · rw [eventLog_snoc, List.map_append, List.map_map]
    exact h.events.extend

/-- **A failure is logged** with its error, and leaves the values of the last
success. -/
theorem Refines.recordFailure (h : Refines clock limits calls s) (error : String) (now : T) :
    Refines clock limits (calls ++ [.failure error now]) (s.recordFailure clock error now) := by
  have hafter : failedConnection limits s.snapshot.updatedAtEpoch now =
      connectionAfter limits (calls ++ [.failure error now]) := by
    rw [connectionAfter_failure, h.updatedAt]
  have hevents : (s.recordFailure clock error now).events = s.events.extend
      ((changes limits calls (.failure error now)).map
        fun change => entry clock (now, change)) := by
    simp only [DashboardStore.recordFailure, hafter, h.connection, changes, connectionChanges,
      List.append_nil]
    generalize connectionAfter limits (calls ++ [.failure error now]) = after
    by_cases hc : after = connectionAfter limits calls
    · rw [if_neg (not_not.mpr hc), if_pos hc]
      rfl
    · rw [if_pos hc, if_neg hc]
      by_cases hd : after = .degraded
      · rw [if_pos hd, if_pos hd, if_pos hd]
        rfl
      · rw [if_neg hd, if_neg hd, if_neg hd]
        rfl
  refine ⟨?_, ?_, ?_⟩
  · rw [snapshot_recordFailure, lastSuccess_failure, hafter, h.snapshot]
  · rw [successes_failure, history_recordFailure]
    exact h.history
  · rw [hevents, eventLog_snoc, List.map_append, List.map_map]
    exact h.events.extend

end SentryCell.Host
