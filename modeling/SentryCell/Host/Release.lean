import SentryCell.Host.ValidationProfile
/-!
# What the commands leave open

Every command but `--dashboard` is `Tidy`: its parts are, and `with` closes
what it opened however the body ends. `main_releases` says so of a run of
`main` in any environment, whether it ends with an exit code or raises.
-/

namespace SentryCell.Host.Supervisor

open Calls

variable {env : Environment OsCall.Reply Raised} {α : Type}

/-! ## The parts -/

/-- What the codec computes or raises makes no call. -/
theorem tidy_codec (o : Except PyError α) : Tidy env (codec o) := tidy_ofExcept _

/-- Writing an encoded frame uses the descriptor that is held, and no other. -/
theorem tidy_send (frame : Frame) : Tidy env (send frame) := by
  refine (tidy_codec _).bind ?_
  intro data
  exact tidy_write data

/-- **`read_protocol_frame`** only reads from the descriptor that is held,
whether the frame is whole, too long or cut off. -/
theorem tidy_readProtocolFrame : Tidy env readProtocolFrame := by
  refine (tidy_readExact 5 1).bind ?_
  intro header
  refine .ite (tidy_raise _) ?_
  refine (tidy_readExact _ 1).bind ?_
  intro payloadAndCrc
  exact tidy_codec _

/-- `require_response` compares the frame with what is expected, and raises at
the first difference. -/
theorem tidy_requireResponse (response : Frame) (type : ℕ) (sequence : ℤ) (payload : List Byte) :
    Tidy env (requireResponse response type sequence payload) := by
  refine .ite (tidy_raise _) ?_
  refine .ite (tidy_raise _) ?_
  exact .ite (tidy_raise _) (tidy_ret _)

/-- **A request for a status** leaves the attributes alone, with whatever
decoder. -/
theorem tidy_requestStatus (requestType : ℕ) (sequence : ℤ) (statusName : String)
    (decoder : Frame → Except PyError α) :
    Tidy env (requestStatus requestType sequence statusName decoder) := by
  refine (tidy_send _).bind fun _ => ?_
  refine tidy_readProtocolFrame.bind ?_
  intro response
  exact .ite (tidy_raise _) (tidy_codec _)

/-- So does a request with the one response that is accepted. -/
theorem tidy_roundTrip (request : Frame) (type : ℕ) : Tidy env (roundTrip request type) := by
  refine (tidy_send _).bind fun _ => ?_
  refine tidy_readProtocolFrame.bind ?_
  intro response
  exact tidy_requireResponse response _ _ _

/-- The recovery PING catches what it is to catch, and raises the rest. -/
theorem tidy_verifyRecoveryPing (sequence : ℤ) : Tidy env (verifyRecoveryPing sequence) := by
  refine Tidy.handle ?_ ?_
  · exact (tidy_roundTrip _ _).bind fun _ => tidy_ret _
  · intro error
    exact .ite (tidy_ret _) (tidy_raise _)

/-- Judging the options makes no call: it returns or raises. -/
theorem tidy_validateObserveSeconds (seconds : ℚ) : Tidy env (validateObserveSeconds seconds) :=
  .ite (tidy_raise _) (tidy_ret _)

/-- A part is tidy whether or not a flag asks for it. -/
theorem tidy_whenRequested (requested : Bool) {part : HostM Unit} (h : Tidy env part) :
    Tidy env (whenRequested requested part) := .ite h (tidy_ret _)

/-! ## The commands -/

/-- **Bring-up.** The port is the one thing it opens, and `with` closes it;
each flag adds a request and what is printed of its answer. -/
theorem tidy_runSupervisor (pf : Platform) (port : String) (status timing jitter : Bool) :
    Tidy env (runSupervisor pf port status timing jitter) := by
  have hstatus : Tidy env showStatus := (tidy_requestStatus _ _ _ _).bind fun _ => tidy_printAll _
  have htiming : Tidy env (showTiming pf) :=
    (tidy_requestStatus _ _ _ _).bind fun _ => tidy_printAll _
  have hjitter : Tidy env showJitter := (tidy_requestStatus _ _ _ _).bind fun _ => tidy_printAll _
  refine (tidy_printAll _).bind fun _ => ?_
  refine (tidy_withLink ?_).bind fun _ => tidy_printAll _
  -- while the link is open: the PING, the ECHO, and what the flags ask for
  refine (tidy_sleep _).bind fun _ => ?_
  refine (tidy_roundTrip _ _).bind fun _ => ?_
  refine (tidy_print _).bind fun _ => ?_
  refine (tidy_roundTrip _ _).bind fun _ => ?_
  refine (tidy_print _).bind fun _ => ?_
  refine (tidy_whenRequested status hstatus).bind fun _ => ?_
  refine (tidy_whenRequested timing htiming).bind fun _ => ?_
  exact tidy_whenRequested jitter hjitter

/-- The SRAM watermark is read through one link, which is closed again. -/
theorem tidy_runRuntimeMemory (pf : Platform) (port : String) (seconds : ℚ) :
    Tidy env (runRuntimeMemory pf port seconds) := by
  refine (tidy_validateObserveSeconds _).bind fun _ => ?_
  refine (tidy_printAll _).bind fun _ => ?_
  refine (tidy_withLink ?_).bind fun _ => tidy_printAll _
  refine (tidy_sleep _).bind fun _ => ?_
  refine (tidy_print _).bind fun _ => ?_
  refine (tidy_sleep _).bind fun _ => ?_
  exact tidy_requestStatus _ _ _ _

/-- The load and the overruns are read through one link, which is closed
before they are printed. -/
theorem tidy_runRtProfile (pf : Platform) (port : String) (seconds : ℚ) :
    Tidy env (runRtProfile pf port seconds) := by
  refine (tidy_validateObserveSeconds _).bind fun _ => ?_
  refine (tidy_printAll _).bind fun _ => ?_
  refine (tidy_withLink ?_).bind fun _ => tidy_printAll _
  refine (tidy_sleep _).bind fun _ => ?_
  refine (tidy_print _).bind fun _ => ?_
  refine (tidy_sleep _).bind fun _ => ?_
  refine (tidy_requestStatus _ _ _ _).bind ?_
  intro cpuStatus
  refine (tidy_requestStatus _ _ _ _).bind ?_
  intro overruns
  exact tidy_ret _

/-- What the board tells after a reset is asked for only where it answers. -/
theorem tidy_readAfterReset (recovered : Bool) : Tidy env (readAfterReset recovered) := by
  refine .ite ?_ (tidy_ret _)
  refine (tidy_requestStatus _ _ _ _).bind ?_
  intro watchdogStatus
  refine (tidy_requestStatus _ _ _ _).bind ?_
  intro resetStatus
  exact tidy_ret _

/-- **The watchdog test**: the link stays open over the injected block and
the reset that follows, and is closed before the verdict is printed. -/
theorem tidy_runWatchdogTest (pf : Platform) (port : String) :
    Tidy env (runWatchdogTest pf port) := by
  have hsession : Tidy env watchdogSession := by
    refine (tidy_sleep _).bind fun _ => ?_
    refine (tidy_requestStatus _ _ _ _).bind ?_
    intro initialStatus
    refine (tidy_printAll _).bind fun _ => ?_
    refine (tidy_send _).bind fun _ => ?_
    refine (tidy_sleep _).bind fun _ => ?_
    refine (tidy_verifyRecoveryPing _).bind ?_
    intro recoveryPing
    exact (tidy_readAfterReset recoveryPing).bind fun _ => tidy_ret _
  refine (tidy_printAll _).bind fun _ => ?_
  refine (tidy_withLink hsession).bind fun _ => ?_
  refine (tidy_printAll _).bind fun _ => ?_
  exact .ite (tidy_raise _) (tidy_ret _)

/-- The wait for a round's deadline only reads the clock and sleeps. -/
theorem tidy_awaitAcquisition (interval : ℚ) (sampleIndex : ℕ) (next : ℚ) :
    Tidy env (awaitAcquisition interval sampleIndex next) := by
  refine .ite ?_ (tidy_ret _)
  refine tidy_monotonic.bind ?_
  intro reading
  refine .ite ?_ (tidy_ret _)
  exact (tidy_sleep _).bind fun _ => tidy_ret _

/-- **A round of the monitor** uses the port and the table that are open, and
leaves both so. -/
theorem tidy_monitorRound (samples : ℤ) (interval : ℚ) (state : ℚ × ℤ) (sampleIndex : ℕ) :
    Tidy env (monitorRound samples interval state sampleIndex) := by
  have hnext : Tidy env (nextSequence state.2) := .ite (tidy_raise _) (tidy_ret _)
  refine (tidy_awaitAcquisition interval sampleIndex state.1).bind ?_
  intro nextAcquisition
  refine (tidy_requestStatus _ _ _ _).bind ?_
  intro status
  refine tidy_now.bind ?_
  intro now
  refine (tidy_writeRow _ _).bind fun _ => ?_
  refine (tidy_print _).bind fun _ => ?_
  refine hnext.bind ?_
  intro sequence
  exact tidy_ret _

/-- **The monitor** has the port and the table open for all its rounds, and
closes the table before the port, also where a round raises. -/
theorem tidy_runMonitor (pf : Platform) (port : String) (samples : ℤ) (interval : ℚ)
    (path : String) : Tidy env (runMonitor pf port samples interval path) := by
  have hoptions : Tidy env (validateMonitorOptions samples interval) := by
    refine .ite (tidy_raise _) ?_
    exact .ite (tidy_raise _) (tidy_ret _)
  refine hoptions.bind fun _ => ?_
  refine (tidy_printAll _).bind fun _ => ?_
  refine (tidy_withLink ?_).bind fun _ => tidy_printAll _
  refine (tidy_sleep _).bind fun _ => ?_
  refine tidy_withLogger ?_
  refine tidy_monotonic.bind ?_
  intro next
  have hround : ∀ state index, Tidy env (monitorRound samples interval state index) :=
    tidy_monitorRound samples interval
  exact (tidy_forEach hround (List.range samples.toNat) (next, 0x40)).bind fun _ => tidy_ret _

/-- The corrupted frame is written, and a byte that comes back raises. -/
theorem tidy_badCrc : Tidy env badCrc.inject := by
  have hanswer : Tidy env (Script.handle (do
      let unexpected ← SerialLink.readExact 1 (15 / 100)
      pure (some unexpected)) fun e =>
        if e.kind = .serialTimeoutError then pure none else Script.raise e) := by
    refine Tidy.handle ?_ ?_
    · exact (tidy_readExact _ _).bind fun _ => tidy_ret _
    · intro error
      exact .ite (tidy_ret _) (tidy_raise _)
  have hresponse : Tidy env requireNoBadCrcResponse := by
    refine hanswer.bind ?_
    intro answer
    rcases answer with _ | unexpected
    · exact tidy_ret _
    · exact tidy_raise _
  refine (tidy_codec _).bind ?_
  intro data
  exact (tidy_write _).bind fun _ => hresponse

/-- The partial frame is written and left to time out. -/
theorem tidy_partialFrame : Tidy env partialFrame.inject :=
  (tidy_write _).bind fun _ => tidy_sleep _

/-- **A part of the campaign** is tidy if its injection is: the rest of it
asks for the counter, sends the PING and writes the row. -/
theorem tidy_faultCase {c : FaultCase} (hinject : Tidy env c.inject) : Tidy env c.run := by
  refine (tidy_requestStatus _ _ _ _).bind ?_
  intro beforeStatus
  have hcapacity : Tidy env
      (requireCounterIncrementCapacity c.counterLabel (c.counter beforeStatus)) :=
    .ite (tidy_raise _) (tidy_ret _)
  refine hcapacity.bind fun _ => ?_
  refine hinject.bind fun _ => ?_
  refine (tidy_requestStatus _ _ _ _).bind ?_
  intro afterStatus
  refine (tidy_verifyRecoveryPing _).bind ?_
  intro recovery
  refine tidy_now.bind ?_
  intro now
  refine (tidy_writeRow _ _).bind fun _ => ?_
  exact (tidy_printAll _).bind fun _ => tidy_ret _

/-- **The campaign** closes its table and then the port, after both parts or
where one of them raises. -/
theorem tidy_runFaultInjectionComm (pf : Platform) (port path : String) :
    Tidy env (runFaultInjectionComm pf port path) := by
  have hsession : Tidy env (faultSession path) := by
    refine (tidy_sleep _).bind fun _ => ?_
    refine tidy_withLogger ?_
    refine (tidy_faultCase tidy_badCrc).bind ?_
    intro crcResult
    refine (tidy_faultCase tidy_partialFrame).bind ?_
    intro timeoutResult
    exact tidy_ret _
  refine (tidy_printAll _).bind fun _ => ?_
  refine (tidy_withLink hsession).bind ?_
  intro results
  refine (tidy_print _).bind fun _ => ?_
  exact .ite (tidy_raise _) (tidy_ret _)

/-! ## The validation profile -/

/-- Asking for a file by its path opens none. -/
theorem tidy_isFile (path : String) : Tidy env (os (.isFile path)) := tidy_os rfl (fun _ => rfl) rfl

/-- **The build evidence** is collected by calls that open nothing here: the
tool and the hashes close what they read themselves. -/
theorem tidy_collectBuildEvidence (pf : Platform) (command : String) :
    Tidy env (collectBuildEvidence pf command) := by
  have hartifact : ∀ path, Tidy env (requireArtifact path) := by
    intro path
    refine (tidy_isFile path).bind ?_
    intro found
    exact .ite (tidy_raise _) (tidy_ret _)
  have hrun : ∀ path, Tidy env (runAvrSize command path) := by
    intro path
    refine Tidy.handle (tidy_os rfl (fun _ => rfl) rfl) ?_
    intro error
    exact .ite (tidy_raise _) (tidy_raise _)
  have hsha : ∀ path, Tidy env (os (.sha256File path)) := fun path => tidy_os rfl (fun _ => rfl) rfl
  refine (hartifact _).bind fun _ => ?_
  refine (hartifact _).bind fun _ => ?_
  refine (hartifact _).bind fun _ => ?_
  refine (hrun _).bind ?_
  intro completed
  refine .ite (tidy_raise _) ?_
  refine (tidy_ofExcept _).bind ?_
  intro size
  refine (hsha _).bind fun _ => ?_
  refine (hsha _).bind fun _ => ?_
  exact (hsha _).bind fun _ => tidy_ret _

/-- The five statuses of the profile, one request after the other. -/
theorem tidy_collectValidationRuntime : Tidy env collectValidationRuntime := by
  refine (tidy_requestStatus _ _ _ _).bind ?_
  intro timing
  refine (tidy_requestStatus _ _ _ _).bind ?_
  intro jitter
  refine (tidy_requestStatus _ _ _ _).bind ?_
  intro memory
  refine (tidy_requestStatus _ _ _ _).bind ?_
  intro cpu
  refine (tidy_requestStatus _ _ _ _).bind ?_
  intro overruns
  exact tidy_ret _

/-- The search for a free name only asks which exist. -/
theorem tidy_firstFreePath (measurements : String) (timestamp : DateTime) (indices : List ℕ) :
    Tidy env (firstFreePath measurements timestamp indices) := by
  induction indices with
  | nil => exact tidy_raise _
  | cons index rest ih =>
    have hexists : Tidy env (os (.exists (candidatePath measurements timestamp index))) :=
      tidy_os rfl (fun _ => rfl) rfl
    refine hexists.bind ?_
    intro taken
    exact .ite ih (tidy_ret _)

/-- **The report's file is closed** whether or not it could be written. It
is in no attribute in between. -/
theorem tidy_writeMeasurementReport (measurements path report : String) :
    Tidy env (writeMeasurementReport measurements path report) := by
  have hdir : Tidy env (os (.isDir measurements)) := tidy_os rfl (fun _ => rfl) rfl
  refine hdir.bind ?_
  intro present
  refine .ite (tidy_raise _) (Tidy.handle ?_ ?_)
  · intro s₀
    have hcreate : Script.Meets env (At s₀) (os (.createFile path))
        (fun file s log => s = s₀ ∧ Owned (.file file :: s₀.held) log) fun _ => At s₀ := by
      refine Script.meets_call ?_ ?_
      · rintro s log file ⟨rfl, h⟩ -
        exact ⟨rfl, Owned.acquire h rfl rfl rfl⟩
      · rintro s log e ⟨rfl, h⟩ -
        exact ⟨rfl, Owned.use h nofun rfl rfl⟩
    refine hcreate.bind fun file => ?_
    have hwrite : Script.Meets env (fun s log => s = s₀ ∧ Owned (.file file :: s₀.held) log)
        (os (.writeText file report)) (fun _ s log => s = s₀ ∧ Owned (.file file :: s₀.held) log)
        fun _ s log => s = s₀ ∧ Owned (.file file :: s₀.held) log := by
      have hheld : ∀ h, (OsCall.writeText file report).uses? = some h →
          h ∈ Handle.file file :: s₀.held := by
        rintro h ⟨rfl⟩
        exact List.mem_cons_self
      refine Script.meets_call ?_ ?_
      · rintro s log r ⟨rfl, h⟩ -
        exact ⟨rfl, h.use hheld rfl rfl⟩
      · rintro s log e ⟨rfl, h⟩ -
        exact ⟨rfl, h.use hheld rfl rfl⟩
    have hclose : Script.Meets env (fun s log => s = s₀ ∧ Owned (.file file :: s₀.held) log)
        (os (.closeFile file)) (fun _ => At s₀) fun _ => At s₀ := by
      refine Script.meets_call ?_ ?_
      · rintro s log r ⟨rfl, h⟩ -
        exact ⟨rfl, h.release rfl rfl rfl⟩
      · rintro s log e ⟨rfl, h⟩ -
        exact ⟨rfl, h.release rfl rfl rfl⟩
    exact hwrite.andFinally (fun _ => hclose) fun _ => hclose
  · intro error
    exact .ite (tidy_raise _) (.ite (tidy_raise _) (tidy_raise _))

/-- **The validation profile** has the port closed again before it looks for
the report's name. -/
theorem tidy_runValidationProfile (pf : Platform) (port : String) :
    Tidy env (runValidationProfile pf port) := by
  have hprint : ∀ text, Tidy env (os (.print text)) := fun text => tidy_os rfl (fun _ => rfl) rfl
  refine (tidy_collectBuildEvidence _ _).bind ?_
  intro build
  refine (tidy_printAll _).bind fun _ => ?_
  refine (tidy_withLink ?_).bind ?_
  · -- the three prompts, each after its wait, and the statuses
    refine (tidy_sleep _).bind fun _ => ?_
    refine (tidy_print _).bind fun _ => ?_
    refine (tidy_sleep _).bind fun _ => ?_
    refine (tidy_print _).bind fun _ => ?_
    refine (tidy_sleep _).bind fun _ => ?_
    refine (tidy_print _).bind fun _ => ?_
    refine (tidy_sleep _).bind fun _ => ?_
    exact tidy_collectValidationRuntime
  · intro runtime
    refine tidy_now.bind ?_
    intro now
    refine (tidy_firstFreePath _ _ _).bind ?_
    intro path
    refine (tidy_writeMeasurementReport _ _ _).bind fun _ => ?_
    refine (tidy_print _).bind fun _ => ?_
    refine (hprint _).bind fun _ => ?_
    exact tidy_print _

/-! ## `main` -/

/-- **Every command leaves open what it found open**, and nothing more. -/
theorem tidy_command (pf : Platform) (port : String) (command : Command) :
    Tidy env (command.script pf port) := by
  cases command with
  | validationProfile => exact tidy_runValidationProfile pf port
  | rtProfile seconds => exact tidy_runRtProfile pf port seconds
  | memoryRuntime seconds => exact tidy_runRuntimeMemory pf port seconds
  | faultInjectionComm csv => exact tidy_runFaultInjectionComm pf port _
  | watchdogTest => exact tidy_runWatchdogTest pf port
  | monitor samples interval csv => exact tidy_runMonitor pf port samples interval _
  | bringUp status timing jitter => exact tidy_runSupervisor pf port status timing jitter

/-- **`main`** prints what it catches and returns 1, and raises the rest. -/
theorem tidy_main (pf : Platform) (port : String) (command : Command) :
    Tidy env (main pf port command) := by
  have herror : ∀ text, Tidy env (os (.printError text)) := fun text =>
    tidy_os rfl (fun _ => rfl) rfl
  refine Tidy.handle ?_ ?_
  · exact (tidy_command pf port command).bind fun _ => tidy_ret _
  · intro error
    refine .ite ?_ (tidy_raise _)
    refine (herror _).bind fun _ => ?_
    exact (herror _).bind fun _ => tidy_ret _

/-- **No command but `--dashboard` leaks.** Whatever the system answers, and
whether `main` returns an exit code or raises: every descriptor and every
file that was opened has been closed as often, the report's file included,
and no call was made on one that was not open. -/
theorem main_releases {pf : Platform} {port : String} {command : Command} {o : Except Raised ℕ}
    {s : Handles} {log : OsLog}
    (h : Tree.Runs env (main pf port command ⟨none, none⟩) [] (o, s) log) :
    s = ⟨none, none⟩ ∧ (∀ handle, opens log handle = closes log handle) ∧ Disciplined log := by
  have hstart : At ⟨none, none⟩ ⟨none, none⟩ [] := ⟨rfl, owned_nil⟩
  have hends := (tidy_main pf port command ⟨none, none⟩).run hstart h
  have hat : At ⟨none, none⟩ s log := by
    rcases o with e | code
    · exact hends.2 e rfl
    · exact hends.1 code rfl
  obtain ⟨rfl, howned⟩ := hat
  exact ⟨rfl, howned.balance, howned.disciplined⟩

/-- A platform of no digits but the ten, on which a float has no text. -/
def plainPlatform : Platform where
  termios := ⟨0, 0, 0, 0⟩
  repositoryRoot := ""
  decimal c := if c.isDigit then some (c.toNat - '0'.toNat) else none
  general _ := ""
  fixed _ := ""
  plain _ := ""

/-- A board that answers nothing: the monitor fails, and both are closed. -/
theorem main_releases_silent :
    let run := ranOn [] (main plainPlatform "/dev/ttyACM0" (.monitor 1 1 none))
    run.1.1 = .ok 1 ∧ closes run.2 (.port 3) = 1 ∧ closes run.2 (.file 4) = 1 := by
  intro run
  obtain ⟨-, hclosed, -⟩ := main_releases
    (ranOn_runs [] (main plainPlatform "/dev/ttyACM0" (.monitor 1 1 none)))
  have hopened : run.1.1 = .ok 1 ∧ opens run.2 (.port 3) = 1 ∧ opens run.2 (.file 4) = 1 := by
    decide +kernel
  exact ⟨hopened.1, (hclosed _).symm.trans hopened.2.1, (hclosed _).symm.trans hopened.2.2⟩

end SentryCell.Host.Supervisor
