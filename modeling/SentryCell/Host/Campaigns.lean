import SentryCell.Host.Plans
/-!
# The commands that judge the board

The monitor, the watchdog test and the fault injection, whose plans depend
on what is read on the way: the rows on the statuses, and the verdict on a
recovery PING that may fail. Each plan is of a record of those values.
-/

namespace SentryCell.Host.Supervisor

open Calls Script

variable {env : Environment OsCall.Reply Raised} {α ι : Type}

/-! ## Steps -/

/-- Data that is written and not answered. -/
def told (data : List Byte) : Step Line where
  complete part := part = [.sent data]
  begun part := ∃ chunks, part = .sent data :: received chunks

/-- A row of the table. -/
def tabled (cells : List String) : Step Line where
  complete part := part = [.row cells]
  begun part := part = [.row cells]

/-- **A recovery PING**, and whether it was answered. Where it was not,
anything may have been received, and it may not have been written. -/
def pinged (sequence : Byte) (recovered : Bool) : Step Line where
  complete part :=
    if recovered then
      part = .sent (frameBytes 0x01#8 sequence []) :: heard (frameBytes 0x81#8 sequence [])
    else Begun (frameBytes 0x01#8 sequence []) part
  begun := Begun (frameBytes 0x01#8 sequence [])

/-- A status that is read into a field of the record. -/
theorem carries_requestStatus (t s : Byte) (statusName : String)
    (decoder : Frame → Except PyError α) {known : ι → Prop} {field : ι → α}
    (hknown : ∃ v, known v) (hfield : ∀ a, ∃ v, known v ∧ field v = a) :
    Carries env line known (fun a v => field v = a)
      (fun v => exchange (frameBytes t s []) (Answered decoder s (field v)))
      (requestStatus t.toNat s.toNat statusName decoder) := by
  obtain ⟨v, hv⟩ := hknown
  refine (emits_requestStatus t s statusName decoder).conseq ?_ ?_
  · rintro a - ⟨response, hanswered, rfl⟩
    refine ⟨hfield a, fun v' _ ha => ⟨response, ?_, rfl⟩⟩
    rwa [ha]
  · rintro e added (hnil | hbegun)
    · exact ⟨v, hv, .inl hnil⟩
    · exact ⟨v, hv, .inr hbegun⟩

/-- Data that is written and not answered is the step of having told it. -/
theorem carries_send (t s : Byte) (payload : List Byte) (hp : payload.length ≤ 8)
    {known : ι → Prop} (hknown : ∃ v, known v) :
    Carries env line known (fun _ _ => True) (fun _ => told (frameBytes t s payload))
      (send ⟨t.toNat, s.toNat, payload⟩) := by
  obtain ⟨v, hv⟩ := hknown
  refine (emits_send hp).conseq ?_ ?_
  · rintro - - rfl
    exact ⟨⟨v, hv, trivial⟩, fun _ _ _ => rfl⟩
  · rintro e added (rfl | rfl)
    · exact ⟨v, hv, .inl rfl⟩
    · exact ⟨v, hv, .inr ⟨[], rfl⟩⟩

/-- **`_verify_recovery_ping`** says whether the PING was answered, and what
it raises is none of what it catches. -/
theorem emits_verifyRecoveryPing (s : Byte) : Emits env line (verifyRecoveryPing s.toNat)
    (fun recovered => (pinged s recovered).complete)
    fun _ => Begun (frameBytes 0x01#8 s []) := by
  refine Emits.handle (B := fun _ => Begun (frameBytes 0x01#8 s [])) ?_ fun e added hadded => ?_
  · refine Emits.bind (emits_roundTrip 0x01#8 0x81#8 s (Nat.zero_le 8)) ?_
    rintro - - rfl
    exact emits_ret (List.append_nil _)
  · have hnil := List.append_nil added
    split
    · refine emits_ret ?_
      show Begun _ (added ++ [])
      rwa [hnil]
    · exact emits_raise (by rwa [hnil])

/-- The verdict of the recovery PING is read into a field of the record. -/
theorem carries_verifyRecoveryPing (s : Byte) {known : ι → Prop} {field : ι → Bool}
    (hknown : ∃ v, known v) (hfield : ∀ a, ∃ v, known v ∧ field v = a) :
    Carries env line known (fun a v => field v = a) (fun v => pinged s (field v))
      (verifyRecoveryPing s.toNat) := by
  obtain ⟨v, hv⟩ := hknown
  refine (emits_verifyRecoveryPing s).conseq ?_ fun _ _ h => ⟨v, hv, .inr h⟩
  intro a added hadded
  refine ⟨hfield a, fun v' _ ha => ?_⟩
  show (pinged s (field v')).complete added
  rwa [show field v' = a from ha]

/-! ## The logger -/

/-- **Opening the table** writes its header, or raises before or after
that. -/
theorem emits_openFile (l : CsvLogger) (path : String) : Emits env line (l.open path)
    (fun _ added => added = [.row l.columns])
    fun _ added => added = [] ∨ added = [.row l.columns] := by
  have hsilent : ∀ {β : Type} {p : HostM β}, Silent env line p → Emits env line p
      (fun _ added => added = []) fun _ added => added = [] ∨ added = [.row l.columns] :=
    fun h => h.emits (fun _ => rfl) fun _ => .inl rfl
  refine Emits.bind (hsilent (silent_read _)) ?_
  rintro held - rfl
  split
  · exact emits_raise (.inl rfl)
  refine Emits.bind (hsilent (silent_call fun _ => rfl)) ?_
  rintro - - rfl
  refine Emits.handle (B := fun _ added => added = [] ∨ added = [.row l.columns]) ?_ ?_
  · refine Emits.bind (hsilent (silent_call fun _ => rfl)) ?_
    rintro file - rfl
    refine Emits.bind (hsilent (silent_modify _)) ?_
    rintro - - rfl
    refine Emits.bind (B := fun _ added => added = [.row l.columns])
      (emits_call (fun _ => rfl) fun _ => .inr rfl) ?_
    rintro - - rfl
    exact emits_call (fun _ => rfl) fun _ => .inr rfl
  · intro e added hadded
    have hnil := List.append_nil added
    refine Emits.bind (B := fun _ more => more = []) (silent_closeFile.emits (fun _ => rfl) ?_) ?_
    · exact fun _ => by rwa [hnil]
    rintro - - rfl
    exact emits_raise (by rwa [List.append_nil, hnil])

/-- Writing a row shows the row, if the table is open. -/
theorem emits_writeRow (l : CsvLogger) (cells : List String) : Emits env line (l.write cells)
    (fun _ added => added = [.row cells]) fun _ added => added = [] ∨ added = [.row cells] := by
  refine Emits.bind (B := fun _ added => added = [])
    ((silent_read _).emits (fun _ => rfl) fun _ => .inl rfl) ?_
  rintro held - rfl
  rcases held with _ | file
  · exact emits_raise (.inl rfl)
  · refine Emits.bind (B := fun _ added => added = [.row cells])
      (emits_call (fun _ => rfl) fun _ => .inr rfl) ?_
    rintro - - rfl
    exact emits_call (fun _ => rfl) fun _ => .inr rfl

/-- A row of the table is a step, where all records that are possible have the
same one. -/
theorem carries_writeRow (l : CsvLogger) {cells : List String} {known : ι → Prop}
    {row : ι → List String} (hknown : ∃ v, known v) (hrow : ∀ v, known v → row v = cells) :
    Carries env line known (fun _ _ => True) (fun v => tabled (row v)) (l.write cells) := by
  obtain ⟨v, hv⟩ := hknown
  refine (emits_writeRow l cells).conseq ?_ ?_
  · rintro - - rfl
    refine ⟨⟨v, hv, trivial⟩, fun v hv _ => ?_⟩
    show [Line.row cells] = [.row (row v)]
    rw [hrow v hv]
  · rintro e added (rfl | rfl)
    · exact ⟨v, hv, .inl rfl⟩
    · refine ⟨v, hv, .inr ?_⟩
      show [Line.row cells] = [.row (row v)]
      rw [hrow v hv]

/-! ## The monitor -/

/-- The sequence of a round. -/
def monitorSequence (k : ℕ) : Byte := BitVec.ofNat 8 (0x40 + k)

/-- **A round of the monitor**: its exchange, and the row of the status that
it is answered with. -/
def monitorStep (k : ℕ) : Step Line where
  complete part := ∃ response timestamp status,
    Answered decodeCommStatus (monitorSequence k) status response ∧
    part = .sent (frameBytes 0x03#8 (monitorSequence k) []) :: heard response ++
      [.row [timestamp, toString (monitorSequence k).toNat, toString status.uartRxOverflow,
        toString status.parserTimeouts, toString status.crcErrors]]
  begun := Begun (frameBytes 0x03#8 (monitorSequence k) [])

/-- The header, and a round for each sample. -/
def monitorPlan (samples : ℕ) : List (Step Line) :=
  tabled monitorLogger.columns :: (List.range samples).flatMap fun k => [monitorStep k]

/-- The sequence after that of a round is the next round's, also from
255 to 0. -/
theorem nextSequence_monitorSequence (k : ℕ) :
    nextSequence (monitorSequence k).toNat = pure ((monitorSequence (k + 1)).toNat : ℤ) := by
  have hlt := (monitorSequence k).isLt
  unfold nextSequence
  rw [if_neg (by omega)]
  congr 1
  unfold monitorSequence
  rw [BitVec.toNat_ofNat, BitVec.toNat_ofNat]
  omega

/-- Waiting for a round reads the clock and sleeps, and neither is shown. -/
theorem silent_awaitAcquisition (interval : ℚ) (k : ℕ) (next : ℚ) :
    Silent env line (awaitAcquisition interval k next) :=
  .ite (silent_monotonic.bind fun _ => .ite ((silent_sleep _).bind fun _ => silent_ret _)
    (silent_ret _)) (silent_ret _)

/-- What a round reads. -/
structure MonitorRecord where
  status : CommStatus
  timestamp : String

/-- The row of a round. -/
def MonitorRecord.cells (v : MonitorRecord) (k : ℕ) : List String :=
  [v.timestamp, toString (monitorSequence k).toNat, toString v.status.uartRxOverflow,
    toString v.status.parserTimeouts, toString v.status.crcErrors]

/-- **A round of the monitor** follows its plan: the request, and the row of
the status and the time that were read. -/
theorem planned_monitorRound (samples : ℤ) (interval next : ℚ) (k : ℕ) :
    Planned env line (fun _ : MonitorRecord => True)
      (fun (state : ℚ × ℤ) _ => state.2 = (monitorSequence (k + 1)).toNat)
      (fun v => [exchange (frameBytes 0x03#8 (monitorSequence k) [])
        (Answered decodeCommStatus (monitorSequence k) v.status), tabled (v.cells k)])
      (monitorRound samples interval (next, (monitorSequence k).toNat) k) := by
  have hsome : ∃ _ : MonitorRecord, True := ⟨⟨⟨0, 0, 0⟩, ""⟩, trivial⟩
  refine (silent_awaitAcquisition _ _ _).bind_planned hsome fun next' => ?_
  refine (carries_requestStatus 0x03#8 (monitorSequence k) "COMM_STATUS" decodeCommStatus hsome
    fun status => ⟨⟨status, ""⟩, trivial, rfl⟩).bind fun status hstatus => ?_
  refine silent_now.bind_planned hstatus fun now => ?_
  -- from here on the timestamp is known too
  let read (v : MonitorRecord) : Prop := v.status = status ∧ v.timestamp = now.isoformat
  refine Planned.mono (fun v (hv : read v) => ⟨trivial, hv.1⟩) ?_
  have hread : ∃ v, read v := ⟨⟨status, now.isoformat⟩, rfl, rfl⟩
  refine Carries.bind (carries_writeRow monitorLogger hread fun v hv => ?_) fun _ hv => ?_
  · obtain ⟨rfl, htimestamp⟩ := hv
    rw [MonitorRecord.cells, htimestamp]
    rfl
  refine planned_nil (Emits.bind (B := fun _ added => added = []) (silent_print _) ?_) hv
  rintro - - rfl
  rw [nextSequence_monitorSequence]
  refine Emits.bind (B := fun sequence added => sequence = _ ∧ added = []) (emits_ret ⟨rfl, rfl⟩) ?_
  rintro sequence - ⟨rfl, rfl⟩
  obtain ⟨v, hv⟩ := hv
  exact emits_ret ⟨rfl, v, hv, rfl⟩

/-- A round, seen as one step of the monitor's plan, whole or begun. -/
theorem emits_monitorRound (samples : ℤ) (interval next : ℚ) (k : ℕ) :
    Emits env line (monitorRound samples interval (next, (monitorSequence k).toNat) k)
      (fun state added => state.2 = (monitorSequence (k + 1)).toNat ∧ Kept [monitorStep k] added)
      fun _ => Stopped [monitorStep k] := by
  have hround : ∀ (v : MonitorRecord) response,
      Answered decodeCommStatus (monitorSequence k) v.status response →
      (monitorStep k).complete (.sent (frameBytes 0x03#8 (monitorSequence k) []) ::
        heard response ++ [.row (v.cells k)]) :=
    fun v response h => ⟨response, v.timestamp, v.status, h, rfl⟩
  refine (planned_monitorRound samples interval next k).conseq ?_ ?_
  · rintro state added ⟨v, -, hstate, part, more, ⟨response, hanswered, rfl⟩, hrow, rfl⟩
    obtain ⟨row, last, rfl, rfl, rfl⟩ := hrow
    exact ⟨hstate, kept_singleton (hround v response hanswered)⟩
  · rintro e added ⟨v, -, rfl | hbegun | ⟨part, more, ⟨response, hanswered, rfl⟩, hrow, rfl⟩⟩
    · exact stopped_nil
    · exact .inr (.inl (.inr hbegun))
    · rcases hrow with rfl | rfl | ⟨row, last, rfl, rfl, rfl⟩
      · rw [List.append_nil]
        exact .inr (.inl begun_heard)
      · exact (kept_singleton (hround v response hanswered)).stopped
      · exact (kept_singleton (hround v response hanswered)).stopped

/-- The header is the first step of a plan with a table. -/
theorem follows_openFile (l : CsvLogger) (path : String) :
    Follows env line [tabled l.columns] (l.open path) := by
  refine follows_step ((emits_openFile l path).conseq (fun _ _ h => h) ?_)
  rintro e added (h | h)
  · exact .inl h
  · exact .inr (.inl h)

/-- **The monitor follows its plan**, round by round, each with the sequence
after the one before. -/
theorem follows_runMonitor (pf : Platform) (port : String) (samples : ℤ) (interval : ℚ)
    (path : String) :
    Follows env line (monitorPlan samples.toNat) (runMonitor pf port samples interval path) := by
  have hoptions : Silent env line (validateMonitorOptions samples interval) :=
    .ite (silent_raise _) (.ite (silent_raise _) (silent_ret _))
  refine hoptions.bind_follows fun _ => (silent_printAll _).bind_follows fun _ =>
    (follows_withLink ?_).bind_silent fun _ => silent_printAll _
  refine (silent_sleep _).bind_follows fun _ =>
    (follows_openFile monitorLogger path).bracket silent_closeFile ?_
  refine silent_monotonic.bind_follows fun next => Follows.bind_silent ?_ fun _ => silent_ret _
  -- the sequence is that of the round at the head of what is left
  refine follows_forEach (J := fun rest (state : ℚ × ℤ) => ∃ k m, rest = List.range' k m ∧
    state.2 = (monitorSequence k).toNat) ?_ _ _ ⟨0, samples.toNat, List.range_eq_range', rfl⟩
  rintro x rest ⟨next', sequence⟩ ⟨k, m, hrest, hsequence⟩
  obtain rfl : sequence = (monitorSequence k).toNat := hsequence
  rcases m with _ | m
  · cases hrest
  rw [List.range'_succ] at hrest
  obtain ⟨rfl, rfl⟩ := List.cons.inj hrest
  refine (emits_monitorRound samples interval next' x).conseq ?_ fun _ _ h => h
  rintro state added ⟨hstate, hadded⟩
  exact ⟨⟨x + 1, m, rfl, hstate⟩, hadded⟩

/-- **The table is what the board answered.** Whatever fails: after the
header, the rows are those of the first rounds, in order, each of the status
that the round's own request was answered with; the sequence counts up from
`0x40` and wraps after 255; and exit code 0 is returned only once every
sample is in the table. -/
theorem monitor_truthful {pf : Platform} {port : String} {samples : ℤ} {interval : ℚ}
    {csv : Option String} {o : Except Raised ℕ} {s : Handles} {log : OsLog}
    (h : Tree.Runs env (main pf port (.monitor samples interval csv) ⟨none, none⟩) [] (o, s) log) :
    (o = .ok 0 → Kept (monitorPlan samples.toNat) (transcript log)) ∧
      Stopped (monitorPlan samples.toNat) (transcript log) := by
  have hfollows : Follows env line (monitorPlan samples.toNat)
      (Command.script pf port (.monitor samples interval csv)) := follows_runMonitor _ _ _ _ _
  exact main_of_emits (emits_main hfollows fun _ h => h.stopped) h

/-- What a board answers to two rounds, between which it counts two more
CRC errors. -/
def sampleResponses : List Byte :=
  frameBytes 0x83#8 0x40#8 [0#8, 2#8, 7#8] ++ frameBytes 0x83#8 0x41#8 [0#8, 2#8, 9#8]

/-- Two rounds of the monitor on such a board. -/
def sampleRun : (Except Raised ℕ × Handles) × OsLog :=
  ranOn sampleResponses (main plainPlatform "/dev/ttyACM0" (.monitor 2 1 none))

/-- The monitor ends with exit code 0, and both samples are in its table. -/
theorem monitor_truthful_two : sampleRun.1.1 = .ok 0 ∧
    Kept (monitorPlan 2) (transcript sampleRun.2) ∧
    tableOf (transcript sampleRun.2) = [monitorLogger.columns,
      ["2026-01-01T00:00:00+00:00", "64", "0", "2", "7"],
      ["2026-01-01T00:00:00+00:00", "65", "0", "2", "9"]] := by
  have hcode : sampleRun.1.1 = .ok 0 := by decide +kernel
  have hrun : ranOn sampleResponses (main plainPlatform "/dev/ttyACM0" (.monitor 2 1 none)) =
      sampleRun := rfl
  obtain ⟨hkept, -⟩ := monitor_truthful (ranOn_runs sampleResponses
    (main plainPlatform "/dev/ttyACM0" (.monitor 2 1 none)))
  rw [hrun] at hkept
  refine ⟨hcode, hkept hcode, ?_⟩
  decide +kernel

/-! ## The watchdog test -/

/-- What the watchdog test reads. The last two only where the board was
found to have recovered. -/
structure WatchdogRecord where
  initial : WatchdogStatus
  recovered : Bool
  marker : WatchdogStatus
  cause : ResetCauseStatus

/-- **The plan of the watchdog test**: the initial marker, the injected
block, the recovery PING, and then what the board tells of the reset. -/
def watchdogPlan (v : WatchdogRecord) : List (Step Line) :=
  exchange (frameBytes 0x0B#8 0x70#8 []) (Answered decodeWatchdogStatus 0x70#8 v.initial) ::
  told (frameBytes 0x0A#8 0x71#8 []) ::
  pinged 0x72#8 v.recovered ::
  if v.recovered then
    [exchange (frameBytes 0x0B#8 0x73#8 []) (Answered decodeWatchdogStatus 0x73#8 v.marker),
      exchange (frameBytes 0x09#8 0x74#8 []) (Answered decodeResetCause 0x74#8 v.cause)]
  else []

/-- What the test goes by. -/
def WatchdogRecord.verdict (v : WatchdogRecord) : Bool × ℤ × ℤ :=
  (v.recovered, if v.recovered then v.marker.timeoutMarker else 0,
    if v.recovered then v.cause.resetCause else 0)

/-- What is asked for after the reset depends on the recovery: two statuses,
or nothing. -/
theorem planned_readAfterReset (recovered : Bool) {initial : WatchdogStatus} :
    Planned env line (fun v : WatchdogRecord => v.initial = initial ∧ v.recovered = recovered)
      (fun r v => (recovered, r) = v.verdict)
      (fun v => if v.recovered then
        [exchange (frameBytes 0x0B#8 0x73#8 []) (Answered decodeWatchdogStatus 0x73#8 v.marker),
          exchange (frameBytes 0x09#8 0x74#8 []) (Answered decodeResetCause 0x74#8 v.cause)]
        else []) (readAfterReset recovered) := by
  cases recovered with
  | false =>
    refine Planned.congr
      (planned_nil (emits_ret ⟨rfl, ⟨initial, false, ⟨0⟩, ⟨0⟩⟩, ⟨rfl, rfl⟩, rfl⟩)
        ⟨⟨initial, false, ⟨0⟩, ⟨0⟩⟩, rfl, rfl⟩) fun v hv => ?_
    rw [hv.2, if_neg Bool.false_ne_true]
  | true =>
    let both (v : WatchdogRecord) : List (Step Line) :=
      [exchange (frameBytes 0x0B#8 0x73#8 []) (Answered decodeWatchdogStatus 0x73#8 v.marker),
        exchange (frameBytes 0x09#8 0x74#8 []) (Answered decodeResetCause 0x74#8 v.cause)]
    suffices h : Planned env line (fun v => v.initial = initial ∧ v.recovered = true)
        (fun r v => (true, r) = v.verdict) both (readAfterReset true) from
      h.congr fun v hv => by rw [hv.2, if_pos rfl]
    refine Carries.bind (carries_requestStatus 0x0B#8 0x73#8 "WATCHDOG_STATUS" decodeWatchdogStatus
      ⟨⟨initial, true, ⟨0⟩, ⟨0⟩⟩, rfl, rfl⟩
      fun marker => ⟨⟨initial, true, marker, ⟨0⟩⟩, ⟨rfl, rfl⟩, rfl⟩) fun marker hmarker => ?_
    refine Carries.bind (carries_requestStatus 0x09#8 0x74#8 "RESET_CAUSE" decodeResetCause hmarker
      fun cause => ⟨⟨initial, true, marker, cause⟩, ⟨⟨rfl, rfl⟩, rfl⟩, rfl⟩) fun cause hcause => ?_
    have hresult : ∀ v : WatchdogRecord, (((v.initial = initial ∧ v.recovered = true) ∧
        v.marker = marker) ∧ v.cause = cause) →
        (true, marker.timeoutMarker, cause.resetCause) = v.verdict := by
      rintro v ⟨⟨⟨-, hrecovered⟩, rfl⟩, rfl⟩
      simp only [WatchdogRecord.verdict, hrecovered, if_true]
    obtain ⟨v, hv⟩ := hcause
    exact planned_nil (emits_ret ⟨rfl, v, hv, hresult v hv⟩) ⟨v, hv⟩

/-- `with SerialLink`, around what follows a plan of a record. -/
theorem planned_withLink {known : ι → Prop} {result : α → ι → Prop}
    {plan : ι → List (Step Line)} {t : Termios} {port : String} {p : HostM α}
    (hknown : ∃ v, known v) (hp : Planned env line known result plan p) :
    Planned env line known result plan (withLink t port p) :=
  (silent_openLink t port).bind_planned hknown fun _ => hp.andFinally silent_closeLink

/-- **The session of the watchdog test** follows its plan, and comes to the
verdict on what was read. -/
theorem planned_watchdogSession : Planned env line (fun _ : WatchdogRecord => True)
    (fun r v => r = v.verdict) watchdogPlan watchdogSession := by
  have hsome : ∃ _ : WatchdogRecord, True := ⟨⟨⟨0⟩, false, ⟨0⟩, ⟨0⟩⟩, trivial⟩
  refine (silent_sleep _).bind_planned hsome fun _ => ?_
  refine (carries_requestStatus 0x0B#8 0x70#8 "WATCHDOG_STATUS" decodeWatchdogStatus hsome
    fun initial => ⟨⟨initial, false, ⟨0⟩, ⟨0⟩⟩, trivial, rfl⟩).bind fun initial hinitial => ?_
  refine (silent_printAll _).bind_planned hinitial fun _ => ?_
  refine (carries_send 0x0A#8 0x71#8 [] (Nat.zero_le 8) hinitial).bind fun _ hsent => ?_
  refine (silent_sleep _).bind_planned hsent fun _ => ?_
  refine (carries_verifyRecoveryPing 0x72#8 hsent fun recovered =>
    ⟨⟨initial, recovered, ⟨0⟩, ⟨0⟩⟩, ⟨⟨trivial, rfl⟩, trivial⟩, rfl⟩).bind fun recovered _ => ?_
  refine Planned.mono (fun v (hv : v.initial = initial ∧ v.recovered = recovered) =>
    ⟨⟨⟨trivial, hv.1⟩, trivial⟩, hv.2⟩) ?_
  refine (planned_readAfterReset recovered).bind_silent fun r => emits_ret ⟨rfl, ?_⟩
  exact fun v hv => hv

/-- **The watchdog test passes only** once the board has answered a PING
after the block, and then told that a watchdog time-out was found. -/
theorem emits_runWatchdogTest (pf : Platform) (port : String) :
    Emits env line (runWatchdogTest pf port)
      (fun _ added => ∃ v : WatchdogRecord, v.recovered = true ∧ v.marker.timeoutMarker = 1 ∧
        Kept (watchdogPlan v) added)
      fun _ added => ∃ v, Stopped (watchdogPlan v) added := by
  have hsome : ∃ _ : WatchdogRecord, True := ⟨⟨⟨0⟩, false, ⟨0⟩, ⟨0⟩⟩, trivial⟩
  refine Emits.bind (B := fun _ added => added = []) ((silent_printAll _).emits (fun _ => rfl)
    fun _ => ⟨⟨⟨0⟩, false, ⟨0⟩, ⟨0⟩⟩, stopped_nil⟩) ?_
  rintro - - rfl
  refine Emits.bind ((planned_withLink hsome planned_watchdogSession).conseq (fun _ _ h => h)
    fun _ _ ⟨v, _, hadded⟩ => ⟨v, hadded⟩) ?_
  rintro - added ⟨v, -, rfl, hkept⟩
  have hnil : [] ++ (added ++ []) = added := by rw [List.nil_append, List.append_nil]
  refine Emits.bind (B := fun _ more => more = []) ((silent_printAll _).emits (fun _ => rfl)
    fun _ => ⟨v, by rw [hnil]; exact hkept.stopped⟩) ?_
  rintro - - rfl
  have hstopped : Stopped (watchdogPlan v) ([] ++ (added ++ ([] ++ []))) := by
    simpa using hkept.stopped
  by_cases hpassed : v.recovered = true ∧ v.marker.timeoutMarker = 1
  · rw [if_neg (by simp [watchdogTestPassed, hpassed])]
    exact emits_ret ⟨v, hpassed.1, hpassed.2, by simpa using hkept⟩
  · rw [if_pos ?_]
    · exact emits_raise ⟨v, hstopped⟩
    · cases hrecovered : v.recovered <;> simp_all [watchdogTestPassed]

/-- **The exit code of the watchdog test.** Whatever fails: the block is
injected once at most, and only after the board told its initial marker; and
exit code 0 is returned only if afterwards the board answered a PING with a
PONG, and told the marker 1 and a reset cause. -/
theorem watchdog_test_sound {pf : Platform} {port : String} {o : Except Raised ℕ} {s : Handles}
    {log : OsLog} (h : Tree.Runs env (main pf port .watchdogTest ⟨none, none⟩) [] (o, s) log) :
    (o = .ok 0 → ∃ v : WatchdogRecord, v.recovered = true ∧ v.marker.timeoutMarker = 1 ∧
        Kept (watchdogPlan v) (transcript log)) ∧
      ∃ v, Stopped (watchdogPlan v) (transcript log) := by
  have hcommand : Emits env line (Command.script pf port .watchdogTest)
      (fun _ added => ∃ v : WatchdogRecord, v.recovered = true ∧ v.marker.timeoutMarker = 1 ∧
        Kept (watchdogPlan v) added) fun _ added => ∃ v, Stopped (watchdogPlan v) added :=
    emits_runWatchdogTest pf port
  refine main_of_emits (emits_main hcommand ?_) h
  rintro added ⟨v, -, -, hkept⟩
  exact ⟨v, hkept.stopped⟩

/-- What a board answers that the watchdog has reset. -/
def resetResponses : List Byte :=
  frameBytes 0x8B#8 0x70#8 [0#8] ++ frameBytes 0x81#8 0x72#8 [] ++
    frameBytes 0x8B#8 0x73#8 [1#8] ++ frameBytes 0x89#8 0x74#8 [8#8]

/-- On such a board the test ends with exit code 0, after the whole plan
with marker 1. -/
theorem watchdog_test_sound_reset :
    ∃ v : WatchdogRecord, v.recovered = true ∧ v.marker.timeoutMarker = 1 ∧
      Kept (watchdogPlan v) (transcript
        (ranOn resetResponses (main plainPlatform "/dev/ttyACM0" .watchdogTest)).2) := by
  obtain ⟨hpassed, -⟩ := watchdog_test_sound (ranOn_runs resetResponses
    (main plainPlatform "/dev/ttyACM0" .watchdogTest))
  exact hpassed (by decide +kernel)

/-! ## Fault injection -/

/-- What a part of the campaign reads. -/
structure FaultRecord where
  before : CommStatus
  after : CommStatus
  recovered : Bool
  timestamp : String

/-- The result that a part of the campaign comes to. -/
def FaultCase.result (c : FaultCase) (v : FaultRecord) : FaultInjectionResult :=
  buildFaultResult c.faultId c.counterName (c.counter v.before) (c.counter v.after) v.recovered

/-- **A fault is injected** only where its counter can still count. -/
def FaultCase.injection (c : FaultCase) (injected : List Byte) (v : FaultRecord) : Step Line where
  complete part := c.counter v.before ≠ 255 ∧ part = [.sent injected]
  begun part := c.counter v.before ≠ 255 ∧ ∃ chunks, part = .sent injected :: received chunks

/-- **The plan of a part of the campaign**: the counter before, what is
injected, the counter after, the recovery PING, and the row of the result. -/
def FaultCase.plan (c : FaultCase) (injected : List Byte) (v : FaultRecord) : List (Step Line) :=
  [exchange (frameBytes 0x03#8 c.beforeSequence [])
      (Answered decodeCommStatus c.beforeSequence v.before),
    c.injection injected v,
    exchange (frameBytes 0x03#8 c.afterSequence [])
      (Answered decodeCommStatus c.afterSequence v.after),
    pinged c.pingSequence v.recovered,
    tabled ((c.result v).row v.timestamp)]

/-- A fault that is injected as these bytes. -/
def Injects (env : Environment OsCall.Reply Raised) (p : HostM Unit) (data : List Byte) : Prop :=
  Emits env line p (fun _ => (told data).complete)
    fun _ added => added = [] ∨ (told data).begun added

/-- The partial frame is injected as its three bytes. -/
theorem injects_partialFrame :
    Injects env partialFrame.inject [0xA5#8, 0x01#8, 0x01#8] := by
  have hwrite := @emits_write env [0xA5#8, 0x01#8, 0x01#8] (List.cons_ne_nil _ _)
  refine Emits.bind (hwrite.conseq (fun _ _ h => h) ?_) ?_
  · rintro e added (rfl | rfl)
    · exact .inl rfl
    · exact .inr ⟨[], rfl⟩
  · rintro - - rfl
    exact (silent_sleep _).emits (fun _ => rfl) fun _ => .inr ⟨[], rfl⟩

/-- **After a corrupted frame nothing may come**: a byte that is received
ends the campaign. -/
theorem injects_badCrc :
    Injects env badCrc.inject (corruptCrc (frameBytes 0x01#8 0x51#8 [])) := by
  have hencoded : encodeFrame ⟨typePing, 0x51, []⟩ = .ok (frameBytes 0x01#8 0x51#8 []) :=
    @encodeFrame_octets 0x01#8 0x51#8 [] (Nat.zero_le maxPayload)
  have hne : corruptCrc (frameBytes 0x01#8 0x51#8 []) ≠ [] :=
    List.append_ne_nil_of_right_ne_nil _ (List.cons_ne_nil _ _)
  have hresponse : Emits env line requireNoBadCrcResponse (fun _ added => added = [])
      fun _ added => ∃ chunks, added = received chunks := by
    refine Emits.bind (B := fun answer added => (answer = none ∧ added = []) ∨
      ∃ bytes, answer = some bytes ∧ added = [.got bytes]) ?_ ?_
    · refine Emits.handle (B := fun _ added => added = []) ?_ ?_
      · refine Emits.bind (emits_readExact (by decide)) ?_
        rintro bytes - ⟨-, rfl⟩
        exact emits_ret (.inr ⟨bytes, rfl, rfl⟩)
      · rintro e - rfl
        split
        · exact emits_ret (.inl ⟨rfl, rfl⟩)
        · exact emits_raise ⟨[], rfl⟩
    · rintro answer added (⟨rfl, rfl⟩ | ⟨bytes, rfl, rfl⟩)
      · exact emits_ret rfl
      · exact emits_raise ⟨[bytes], rfl⟩
  unfold Injects badCrc
  refine Emits.bind (B := fun data added => data = frameBytes 0x01#8 0x51#8 [] ∧ added = [])
    (emits_ofExcept ?_ fun _ _ => .inl rfl) ?_
  · rw [hencoded]
    rintro data ⟨rfl⟩
    exact ⟨rfl, rfl⟩
  rintro data - ⟨rfl, rfl⟩
  refine Emits.bind ((emits_write hne).conseq (fun _ _ h => h) ?_) ?_
  · rintro e added (rfl | rfl)
    · exact .inl rfl
    · exact .inr ⟨[], rfl⟩
  · rintro - - rfl
    refine hresponse.conseq ?_ ?_
    · rintro - - rfl
      rfl
    · rintro e - ⟨chunks, rfl⟩
      exact .inr ⟨chunks, rfl⟩

/-- **A part of the campaign** follows its plan, and its row is that of what
was read. -/
theorem planned_faultCase {c : FaultCase} {injected : List Byte}
    (h : Injects env c.inject injected) : Planned env line (fun _ : FaultRecord => True)
      (fun r v => r = c.result v) (c.plan injected) c.run := by
  have hsome : ∃ _ : FaultRecord, True := ⟨⟨⟨0, 0, 0⟩, ⟨0, 0, 0⟩, false, ""⟩, trivial⟩
  refine (carries_requestStatus 0x03#8 c.beforeSequence "COMM_STATUS" decodeCommStatus hsome
    fun before => ⟨⟨before, ⟨0, 0, 0⟩, false, ""⟩, trivial, rfl⟩).bind fun before hbefore => ?_
  -- a saturated counter ends it here
  have hcapacity : Emits env line (requireCounterIncrementCapacity c.counterLabel (c.counter before))
      (fun _ added => c.counter before ≠ 255 ∧ added = []) fun _ added => added = [] := by
    unfold requireCounterIncrementCapacity
    split
    · exact emits_raise rfl
    · rename_i hne
      exact emits_ret ⟨hne, rfl⟩
  obtain ⟨v₀, hv₀⟩ := hbefore
  refine Emits.bind (hcapacity.conseq (fun _ _ h => h) ?_) ?_
  · rintro e - rfl
    exact ⟨v₀, hv₀, stopped_nil⟩
  rintro - - ⟨hne, rfl⟩
  have hinject : Carries env line (fun v : FaultRecord => True ∧ v.before = before)
      (fun _ _ => True) (c.injection injected) c.inject := by
    refine h.conseq ?_ ?_
    · rintro - added hadded
      refine ⟨⟨v₀, hv₀, trivial⟩, ?_⟩
      rintro v ⟨-, rfl⟩ -
      exact ⟨hne, hadded⟩
    · rintro - added (rfl | hadded)
      · exact ⟨v₀, hv₀, .inl rfl⟩
      · refine ⟨v₀, hv₀, .inr ⟨?_, hadded⟩⟩
        rw [hv₀.2]
        exact hne
  refine hinject.bind fun _ hinjected => ?_
  refine (carries_requestStatus 0x03#8 c.afterSequence "COMM_STATUS" decodeCommStatus hinjected
    fun after => ⟨⟨before, after, false, ""⟩, ⟨⟨trivial, rfl⟩, trivial⟩, rfl⟩).bind
      fun after hafter => ?_
  refine (carries_verifyRecoveryPing c.pingSequence hafter fun recovered =>
    ⟨⟨before, after, recovered, ""⟩, ⟨⟨⟨trivial, rfl⟩, trivial⟩, rfl⟩, rfl⟩).bind
      fun recovered hrecovered => ?_
  refine silent_now.bind_planned hrecovered fun now => ?_
  -- from here on the whole record is known
  have hread : ∃ v : FaultRecord, v = ⟨before, after, recovered, now.isoformat⟩ := ⟨_, rfl⟩
  refine Planned.mono (fun v (hv : v = ⟨before, after, recovered, now.isoformat⟩) => ?_) ?_
  · subst hv
    exact ⟨⟨⟨⟨trivial, rfl⟩, trivial⟩, rfl⟩, rfl⟩
  refine Carries.bind (carries_writeRow faultLogger hread fun v hv => ?_) fun _ hv => ?_
  · rw [hv]
    rfl
  refine planned_nil (Emits.bind (B := fun _ added => added = []) (silent_printAll _) ?_) hv
  rintro - - rfl
  exact emits_ret ⟨rfl, _, ⟨rfl, trivial⟩, rfl⟩

/-- The campaign: the header, and the two parts. -/
def faultPlan (v : FaultRecord × FaultRecord) : List (Step Line) :=
  tabled faultLogger.columns ::
    (badCrc.plan (corruptCrc (frameBytes 0x01#8 0x51#8 [])) v.1 ++
      partialFrame.plan [0xA5#8, 0x01#8, 0x01#8] v.2)

/-- **The session of the campaign** follows its plan: the header, and the two
parts with their results. -/
theorem planned_faultSession (path : String) :
    Planned env line (fun _ : FaultRecord × FaultRecord => True)
      (fun rs v => rs = [badCrc.result v.1, partialFrame.result v.2]) faultPlan
      (faultSession path) := by
  let blank : FaultRecord := ⟨⟨0, 0, 0⟩, ⟨0, 0, 0⟩, false, ""⟩
  have hsome : ∃ _ : FaultRecord × FaultRecord, True := ⟨(blank, blank), trivial⟩
  refine (silent_sleep _).bind_planned hsome fun _ => ?_
  have hopen : Carries env line (fun _ : FaultRecord × FaultRecord => True) (fun _ _ => True)
      (fun _ => tabled faultLogger.columns) (faultLogger.open path) := by
    refine (emits_openFile faultLogger path).conseq ?_ ?_
    · rintro - - rfl
      exact ⟨⟨(blank, blank), trivial, trivial⟩, fun _ _ _ => rfl⟩
    · rintro e added hadded
      exact ⟨(blank, blank), trivial, hadded⟩
  refine hopen.bind fun _ _ => Planned.andFinally ?_ silent_closeFile
  have htimeout : ∀ crcResult, Planned env line (fun _ : FaultRecord => True)
      (fun rs v => rs = [crcResult, partialFrame.result v])
      (partialFrame.plan [0xA5#8, 0x01#8, 0x01#8])
      (partialFrame.run >>= fun timeoutResult => pure [crcResult, timeoutResult]) := by
    intro crcResult
    refine (planned_faultCase injects_partialFrame).bind_silent fun timeoutResult =>
      emits_ret ⟨rfl, ?_⟩
    rintro v rfl
    rfl
  have hparts := (planned_faultCase injects_badCrc).bind ⟨blank, trivial⟩ htimeout
  refine Emits.conseq (Planned.mono (fun v _ => ⟨trivial, trivial⟩) hparts) ?_ fun _ _ h => h
  rintro rs added ⟨v, hv, ⟨crcResult, rfl, rfl⟩, hadded⟩
  exact ⟨v, hv, rfl, hadded⟩

/-- A part of the campaign has shown what it is to show. -/
def FaultCase.Shown (c : FaultCase) (v : FaultRecord) : Prop :=
  c.counter v.before < c.counter v.after ∧ v.recovered = true

/-- A result has passed exactly if the counter rose and the PING was
answered. -/
theorem passed_result {c : FaultCase} {v : FaultRecord} :
    (c.result v).passed = true ↔ c.Shown v := by
  simp [FaultInjectionResult.passed, FaultCase.result, buildFaultResult, FaultCase.Shown]

/-- **The campaign passes only** if both parts have shown what they are
to show. -/
theorem emits_runFaultInjectionComm (pf : Platform) (port path : String) :
    Emits env line (runFaultInjectionComm pf port path)
      (fun _ added => ∃ v : FaultRecord × FaultRecord,
        (badCrc.Shown v.1 ∧ partialFrame.Shown v.2) ∧ Kept (faultPlan v) added)
      fun _ added => ∃ v, Stopped (faultPlan v) added := by
  let blank : FaultRecord := ⟨⟨0, 0, 0⟩, ⟨0, 0, 0⟩, false, ""⟩
  refine Emits.bind (B := fun _ added => added = []) ((silent_printAll _).emits (fun _ => rfl)
    fun _ => ⟨(blank, blank), stopped_nil⟩) ?_
  rintro - - rfl
  refine Emits.bind ((planned_withLink ⟨(blank, blank), trivial⟩ (planned_faultSession path)).conseq
    (fun _ _ h => h) fun _ _ ⟨v, _, hadded⟩ => ⟨v, hadded⟩) ?_
  rintro - added ⟨v, -, rfl, hkept⟩
  have hstopped : Stopped (faultPlan v) ([] ++ (added ++ ([] ++ []))) := by
    simpa using hkept.stopped
  refine Emits.bind (B := fun _ more => more = []) ((silent_print _).emits (fun _ => rfl)
    fun _ => ⟨v, hstopped⟩) ?_
  rintro - - rfl
  by_cases hshown : badCrc.Shown v.1 ∧ partialFrame.Shown v.2
  · rw [if_neg (by simp [passed_result, hshown])]
    exact emits_ret ⟨v, hshown, by simpa using hkept⟩
  · rw [if_pos (by simpa [passed_result] using hshown)]
    exact emits_raise ⟨v, hstopped⟩

/-- **The table of the campaign is what the board answered.** Whatever
fails: the requests and the faults are written in their order, a fault only
after its counter was read below 255; a row has the counters that were read
before and after it, and whether the PING was answered; nothing was received
after the corrupted frame before the next request; and exit code 0 is
returned only if both counters were seen to rise and both PINGs were
answered. -/
theorem fault_campaign_truthful {pf : Platform} {port : String} {csv : Option String}
    {o : Except Raised ℕ} {s : Handles} {log : OsLog}
    (h : Tree.Runs env (main pf port (.faultInjectionComm csv) ⟨none, none⟩) [] (o, s) log) :
    (o = .ok 0 → ∃ v : FaultRecord × FaultRecord,
        (badCrc.Shown v.1 ∧ partialFrame.Shown v.2) ∧ Kept (faultPlan v) (transcript log)) ∧
      ∃ v, Stopped (faultPlan v) (transcript log) := by
  have hcommand : Emits env line (Command.script pf port (.faultInjectionComm csv))
      (fun _ added => ∃ v : FaultRecord × FaultRecord,
        (badCrc.Shown v.1 ∧ partialFrame.Shown v.2) ∧ Kept (faultPlan v) added)
      fun _ added => ∃ v, Stopped (faultPlan v) added := emits_runFaultInjectionComm pf port _
  refine main_of_emits (emits_main hcommand ?_) h
  rintro added ⟨v, -, hkept⟩
  exact ⟨v, hkept.stopped⟩

/-- The data that has been written. -/
def writtenCount (log : OsLog) : ℕ :=
  log.countP fun e => match e with
    | ⟨.writePort _ _, .ok _⟩ => true
    | _ => false

/-- The system with a board that answers: behind each write its response is
in the port, and not before. -/
def answering (responses : List (List Byte)) (log : OsLog) :
    (c : OsCall) → Except Raised c.Reply :=
  attached (responses.take (writtenCount log)).flatten log

/-- What a script comes to with such a board, from a fresh log. -/
def answeredOn (responses : List (List Byte)) (p : HostM α) :
    (Except Raised α × Handles) × OsLog :=
  (p ⟨none, none⟩).exec (answering responses) []

/-- What such a board makes of a script is one of its runs. -/
theorem answeredOn_runs (responses : List (List Byte)) (p : HostM α) :
    Tree.Runs (fun log c o => o = answering responses log c) (p ⟨none, none⟩) []
      ((answeredOn responses p).1.1, (answeredOn responses p).1.2) (answeredOn responses p).2 :=
  Tree.runs_exec fun _ _ => rfl

/-- What a board answers in the campaign: nothing to the corrupted frame and
to the partial one, and afterwards its counter is one higher. -/
def campaignResponses : List (List Byte) :=
  [frameBytes 0x83#8 0x50#8 [0#8, 2#8, 7#8], [],
    frameBytes 0x83#8 0x52#8 [0#8, 2#8, 8#8], frameBytes 0x81#8 0x53#8 [],
    frameBytes 0x83#8 0x60#8 [0#8, 2#8, 8#8], [],
    frameBytes 0x83#8 0x61#8 [0#8, 3#8, 8#8], frameBytes 0x81#8 0x62#8 []]

/-- The campaign with such a board. -/
def campaignRun : (Except Raised ℕ × Handles) × OsLog :=
  answeredOn campaignResponses (main plainPlatform "/dev/ttyACM0" (.faultInjectionComm none))

/-- The campaign passes, and its table has a row for each fault. -/
theorem fault_campaign_truthful_passed : campaignRun.1.1 = .ok 0 ∧
    (∃ v : FaultRecord × FaultRecord, (badCrc.Shown v.1 ∧ partialFrame.Shown v.2) ∧
      Kept (faultPlan v) (transcript campaignRun.2)) ∧
    tableOf (transcript campaignRun.2) = [faultLogger.columns,
      ["2026-01-01T00:00:00+00:00", "FI-COM-001", "crc_errors", "7", "8", "true", "true", "PASS"],
      ["2026-01-01T00:00:00+00:00", "FI-COM-002", "parser_timeouts", "2", "3", "true", "true",
        "PASS"]] := by
  have hcode : campaignRun.1.1 = .ok 0 := by decide +kernel
  have hrun : answeredOn campaignResponses
      (main plainPlatform "/dev/ttyACM0" (.faultInjectionComm none)) = campaignRun := rfl
  obtain ⟨hpassed, -⟩ := fault_campaign_truthful (answeredOn_runs campaignResponses
    (main plainPlatform "/dev/ttyACM0" (.faultInjectionComm none)))
  rw [hrun] at hpassed
  refine ⟨hcode, hpassed hcode, ?_⟩
  decide +kernel

end SentryCell.Host.Supervisor
