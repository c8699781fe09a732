import SentryCell.Host.Commands
/-!
# The validation profile, and `main`

`collect_build_evidence`, `format_validation_report` and the two functions
that choose a name for a report and write it, of
`supervisor/validation_campaign.py`, as scripts of one campaign;
`run_validation_profile`; and `main`, from the parsed command line to the
exit code. Python's `splitlines`, `split` and `int` are written out on lists
of characters.
-/

namespace SentryCell.Host.Supervisor

open Calls

/-! ## Python's text -/

/-- The characters that `splitlines` breaks at. -/
def isLineBreak (c : Char) : Bool :=
  c.toNat ∈ [0x0A, 0x0B, 0x0C, 0x0D, 0x1C, 0x1D, 0x1E, 0x85, 0x2028, 0x2029]

/-- `str.isspace`, of a character. -/
def isSpace (c : Char) : Bool :=
  (0x09 ≤ c.toNat && c.toNat ≤ 0x0D) || (0x1C ≤ c.toNat && c.toNat ≤ 0x20) ||
    (0x2000 ≤ c.toNat && c.toNat ≤ 0x200A) ||
    c.toNat ∈ [0x85, 0xA0, 0x1680, 0x2028, 0x2029, 0x202F, 0x205F, 0x3000]

/-- `text.splitlines()`, after the characters of a line not yet ended. -/
def splitLines (line : List Char) : List Char → List (List Char)
  | [] => if line = [] then [] else [line]
  | '\r' :: '\n' :: text => line :: splitLines [] text
  | c :: text => if isLineBreak c then line :: splitLines [] text else splitLines (line ++ [c]) text

/-- `line.split()`, after the characters of a word not yet ended. -/
def splitWords (word : List Char) : List Char → List (List Char)
  | [] => if word = [] then [] else [word]
  | c :: text =>
    if isSpace c then
      if word = [] then splitWords [] text else word :: splitWords [] text
    else splitWords (word ++ [c]) text

/-- `text.strip()`. -/
def strip (text : String) : String :=
  String.ofList ((text.toList.dropWhile isSpace).reverse.dropWhile isSpace).reverse

/-- The digits of a numeral, that may have single underscores between
them. -/
def readDigits (decimal : Char → Option ℕ) : List Char → Option (List ℕ)
  | [] => none
  | [c] => (decimal c).map fun digit => [digit]
  | c :: '_' :: text => do
    let digit ← decimal c
    let digits ← readDigits decimal text
    return digit :: digits
  | c :: text => do
    let digit ← decimal c
    let digits ← readDigits decimal text
    return digit :: digits

/-- The longest numeral that `int` reads. -/
def maxStrDigits : ℕ := 4300

/-- A numeral without a sign. -/
def readNumeral (decimal : Char → Option ℕ) (text : List Char) : Option ℕ := do
  let digits ← readDigits decimal text
  if digits.length > maxStrDigits then none
  else some (digits.foldl (fun value digit => 10 * value + digit) 0)

/-- `int(text, 10)` of a word. -/
def readInt (decimal : Char → Option ℕ) : List Char → Option ℤ
  | '-' :: text => (readNumeral decimal text).map fun n => -(n : ℤ)
  | '+' :: text => (readNumeral decimal text).map fun n => (n : ℤ)
  | text => (readNumeral decimal text).map fun n => (n : ℤ)

/-! ## The build evidence -/

/-- `ValidationCampaignError`. -/
def campaignError (text : String) : Raised := ⟨.validationCampaignError, text⟩

/-- What `avr-size` says of an ELF file. -/
structure AvrSize where
  textBytes : ℤ
  dataBytes : ℤ
  bssBytes : ℤ
  decBytes : ℤ
  deriving DecidableEq, Repr

/-- The words a table begins with. -/
def avrSizeHeader : List (List Char) := ["text", "data", "bss", "dec"].map String.toList

/-- The row below the header. -/
def readSizes (decimal : Char → Option ℕ) (values : List (List Char)) : Except Raised AvrSize :=
  match readInt decimal (values.getD 0 []), readInt decimal (values.getD 1 []),
    readInt decimal (values.getD 2 []), readInt decimal (values.getD 3 []) with
  | some textBytes, some dataBytes, some bssBytes, some decBytes =>
    if decBytes ≠ textBytes + dataBytes + bssBytes then
      .error (campaignError "avr-size dec field does not equal text + data + bss")
    else .ok ⟨textBytes, dataBytes, bssBytes, decBytes⟩
  | _, _, _, _ => .error (campaignError "avr-size returned non-decimal size fields")

/-- The loop of `_parse_avr_size` over its rows. -/
def findSizes (decimal : Char → Option ℕ) : List (List (List Char)) → Except Raised AvrSize
  | [] => .error (campaignError "unable to parse avr-size output")
  | row :: rows =>
    -- what stands before the header is skipped
    if row.take 4 ≠ avrSizeHeader then findSizes decimal rows
    else
      match rows with
      | [] => .error (campaignError "unable to parse avr-size output")
      | values :: _ =>
        if values.length < 4 then .error (campaignError "unable to parse avr-size output")
        else readSizes decimal values

/-- `_parse_avr_size`. A line that is blank has no words. -/
def parseAvrSize (decimal : Char → Option ℕ) (output : String) : Except Raised AvrSize :=
  findSizes decimal
    (((splitLines [] output.toList).map (splitWords [])).filter fun row => row ≠ [])

/-- `BuildEvidence`. -/
structure BuildEvidence where
  elfSha256 : String
  hexSha256 : String
  mapSha256 : String
  textBytes : ℤ
  dataBytes : ℤ
  bssBytes : ℤ
  decBytes : ℤ
  flashBytes : ℤ
  staticSramBytes : ℤ
  deriving DecidableEq, Repr

/-- The check of one artifact. -/
def requireArtifact (path : String) : HostM Unit := do
  let present ← os (.isFile path)
  if ¬ present then
    Script.raise (campaignError ("required build artifact is missing: " ++ path))
  else pure ()

/-- `subprocess.run`, where an `OSError` is one of the campaign. -/
def runAvrSize (command elfPath : String) : HostM Completed :=
  Script.handle (os (.run [command, elfPath])) fun e =>
    if e.kind = .osError ∨ e.kind = .fileExistsError then
      Script.raise (campaignError ("unable to execute " ++ command ++ ": " ++ e.text))
    else Script.raise e

/-- `collect_build_evidence`. -/
def collectBuildEvidence (pf : Platform) (command : String) : HostM BuildEvidence := do
  let elfPath := pf.repositoryRoot ++ "/build/sentry-cell-uno.elf"
  let hexPath := pf.repositoryRoot ++ "/build/sentry-cell-uno.hex"
  let mapPath := pf.repositoryRoot ++ "/build/sentry-cell-uno.map"
  requireArtifact elfPath
  requireArtifact hexPath
  requireArtifact mapPath
  let completed ← runAvrSize command elfPath
  if completed.returncode ≠ 0 then
    let detail := if strip completed.stderr = "" then "no diagnostic output"
      else strip completed.stderr
    Script.raise (campaignError (command ++ " failed: " ++ detail))
  else do
    let sizes ← Script.ofExcept (parseAvrSize pf.decimal completed.stdout)
    let elfSha256 ← os (.sha256File elfPath)
    let hexSha256 ← os (.sha256File hexPath)
    let mapSha256 ← os (.sha256File mapPath)
    pure {
      elfSha256 := elfSha256
      hexSha256 := hexSha256
      mapSha256 := mapSha256
      textBytes := sizes.textBytes
      dataBytes := sizes.dataBytes
      bssBytes := sizes.bssBytes
      decBytes := sizes.decBytes
      flashBytes := sizes.textBytes + sizes.dataBytes
      staticSramBytes := sizes.dataBytes + sizes.bssBytes }

/-! ## The report -/

/-- What `_collect_validation_runtime` returns. -/
structure ValidationRuntime where
  timing : TimingStatus
  jitter : JitterStatus
  runtimeMemory : RuntimeMemoryStatus
  cpuLoad : CpuLoadStatus
  overruns : OverrunStatus
  deriving DecidableEq, Repr

/-- `_collect_validation_runtime`. -/
def collectValidationRuntime : HostM ValidationRuntime := do
  let timing ← requestStatus typeGetTimingStatus 0x80 "TIMING_STATUS" decodeTimingStatus
  let jitter ← requestStatus typeGetJitterStatus 0x81 "JITTER_STATUS" decodeJitterStatus
  let runtimeMemory ← requestStatus typeGetRuntimeMemoryStatus 0x82 "RUNTIME_MEMORY_STATUS"
    decodeRuntimeMemoryStatus
  let cpuLoad ← requestStatus typeGetCpuLoadStatus 0x83 "CPU_LOAD_STATUS" decodeCpuLoadStatus
  let overruns ← requestStatus typeGetOverrunStatus 0x84 "OVERRUN_STATUS" decodeOverrunStatus
  pure ⟨timing, jitter, runtimeMemory, cpuLoad, overruns⟩

/-- `format_validation_report`. -/
def formatValidationReport (pf : Platform) (timestamp : LocalTime) (build : BuildEvidence)
    (runtime : ValidationRuntime) : String :=
  let utilization :=
    calculateScheduledTaskUtilization runtime.cpuLoad.busyTicks runtime.cpuLoad.elapsedMs
  "\n".intercalate [
    "Final validation measurement campaign", "",
    "Host date/time: " ++ timestamp.isoformat, "",
    "Build evidence:",
    "ELF SHA-256: " ++ build.elfSha256,
    "HEX SHA-256: " ++ build.hexSha256,
    "Map SHA-256: " ++ build.mapSha256,
    "avr-size text: " ++ toString build.textBytes ++ " bytes",
    "avr-size data: " ++ toString build.dataBytes ++ " bytes",
    "avr-size bss: " ++ toString build.bssBytes ++ " bytes",
    "avr-size dec: " ++ toString build.decBytes ++ " bytes",
    "Flash bytes: " ++ toString build.flashBytes,
    "Static SRAM bytes: " ++ toString build.staticSramBytes, "",
    "Scenario:",
    "IDLE       : 5 s",
    "ACTIVE     : 10 s",
    "SAFE_STATE : 5 s",
    "Host-timed instructions only; FSM states are not automatically detected.", "",
    "observed execution-time maxima:",
    ticksLine pf "Actuator" runtime.timing.actuatorTicks,
    ticksLine pf "Control" runtime.timing.controlTicks,
    ticksLine pf "Sensor/Safety" runtime.timing.sensorSafetyTicks,
    ticksLine pf "Communication" runtime.timing.communicationTicks, "",
    "observed maximum jitter at 1 ms measurement resolution:",
    "Actuator: " ++ toString runtime.jitter.actuatorMs ++ " ms",
    "Control: " ++ toString runtime.jitter.controlMs ++ " ms",
    "Sensor/Safety: " ++ toString runtime.jitter.sensorSafetyMs ++ " ms",
    "Communication: " ++ toString runtime.jitter.communicationMs ++ " ms", "",
    "observed minimum free SRAM watermark:",
    "Painted region: " ++ toString runtime.runtimeMemory.paintedBytes ++ " bytes",
    "Used painted: " ++ toString runtime.runtimeMemory.usedPaintedBytes ++ " bytes",
    "Minimum free observed: " ++ toString runtime.runtimeMemory.minFreeBytes ++ " bytes", "",
    "observed scheduled-task CPU utilization:",
    "Busy ticks: " ++ toString runtime.cpuLoad.busyTicks,
    "Elapsed firmware time: " ++ toString runtime.cpuLoad.elapsedMs ++ " ms",
    "Utilization: " ++ pf.fixed utilization ++ " %",
    "Scheduled-task CPU utilization excludes ISR and scheduler overhead.", "",
    "observed execution overruns:",
    "Actuator: " ++ toString runtime.overruns.actuator,
    "Control: " ++ toString runtime.overruns.control,
    "Sensor/Safety: " ++ toString runtime.overruns.sensorSafety,
    "Communication: " ++ toString runtime.overruns.communication, ""]

/-- The loop of `measurement_report_path`. -/
def firstFreePath (measurements : String) (timestamp : DateTime) : List ℕ → HostM String
  | [] => Script.raise (campaignError
      ("unable to select a unique measurement report path in: " ++ measurements))
  | collisionIndex :: rest => do
    let candidate := candidatePath measurements timestamp collisionIndex
    let taken ← os (.exists candidate)
    if taken then firstFreePath measurements timestamp rest else pure candidate

/-- `measurement_report_path`. -/
def measurementReportPath (measurements : String) (timestamp : DateTime) : HostM String :=
  firstFreePath measurements timestamp (List.range collisionIndices)

/-- `write_measurement_report`. -/
def writeMeasurementReport (measurements path report : String) : HostM Unit := do
  let present ← os (.isDir measurements)
  if ¬ present then
    Script.raise (campaignError ("measurement directory is missing: " ++ measurements))
  else
    let create : HostM Unit := do
      let file ← os (.createFile path)
      -- `with path.open(...)`: the file is closed also where the write raises
      Script.andFinally (os (.writeText file report)) (os (.closeFile file))
    create.handle fun e =>
      if e.kind = .fileExistsError then
        Script.raise (campaignError
          ("measurement report already exists and was not overwritten: " ++ path))
      else if e.kind = .osError then
        Script.raise (campaignError
          ("unable to create measurement report " ++ path ++ ": " ++ e.text))
      else Script.raise e

/-- `run_validation_profile`. -/
def runValidationProfile (pf : Platform) (port : String) : HostM Unit := do
  -- without the artifacts no port is opened
  let buildEvidence ← collectBuildEvidence pf "avr-size"
  printAll ["Final validation measurement campaign", "Port: " ++ port, "", "Scenario:",
    "IDLE       : 5 s", "ACTIVE     : 10 s", "SAFE_STATE : 5 s",
    "Host-timed instructions only; FSM states are not automatically detected.", ""]
  let runtime ← withLink pf.termios port do
    os (.sleep (22 / 10))
    print "Keep system in IDLE"
    os (.sleep 5)
    print "Press D2 once now to enter ACTIVE"
    os (.sleep 10)
    print "Introduce obstacle now to enter SAFE_STATE"
    os (.sleep 5)
    collectValidationRuntime
  let campaignTimestamp ← os .now
  let report := formatValidationReport pf campaignTimestamp buildEvidence runtime
  let measurements := pf.repositoryRoot ++ "/measurements"
  let reportPath ← measurementReportPath measurements campaignTimestamp.dateTime
  writeMeasurementReport measurements reportPath report
  print ""
  os (.print report)
  print ("Measurement report written: " ++ reportPath)

/-! ## The command line -/

/-- **What a command line asks for**, `--dashboard` apart: that branch serves
HTTP until it is interrupted, and polls on another thread. -/
inductive Command where
  | validationProfile
  | rtProfile (observeSeconds : ℚ)
  | memoryRuntime (observeSeconds : ℚ)
  | faultInjectionComm (csv : Option String)
  | watchdogTest
  | monitor (samples : ℤ) (interval : ℚ) (csv : Option String)
  | bringUp (status timing jitter : Bool)
  deriving DecidableEq, Repr

/-- `args.csv or default`. -/
def csvPath (csv : Option String) (default : String) : String :=
  match csv with
  | none => default
  | some path => if path = "" then default else path

/-- The branches of `main`, but for that of `--dashboard`. -/
def Command.script (pf : Platform) (port : String) : Command → HostM Unit
  | .validationProfile => runValidationProfile pf port
  | .rtProfile observeSeconds => runRtProfile pf port observeSeconds
  | .memoryRuntime observeSeconds => runRuntimeMemory pf port observeSeconds
  | .faultInjectionComm csv =>
    runFaultInjectionComm pf port (csvPath csv "measurements/fault_injection_comm.csv")
  | .watchdogTest => runWatchdogTest pf port
  | .monitor samples interval csv =>
    runMonitor pf port samples interval (csvPath csv "measurements/comm_health.csv")
  | .bringUp status timing jitter => runSupervisor pf port status timing jitter

/-- What `main` catches. -/
def isCaught : ErrorKind → Bool
  | .valueError => true
  | .saturatedCounterError => true
  | .validationCampaignError => true
  | kind => failsRecovery kind

/-- `main` on a command line without `--dashboard`, and its exit code. -/
def main (pf : Platform) (port : String) (command : Command) : HostM ℕ :=
  let run : HostM ℕ := do
    command.script pf port
    pure 0
  run.handle fun e =>
    if isCaught e.kind then do
      os (.printError ("Supervisor error: " ++ e.text ++ "\n"))
      os (.printError "Supervisor bring-up: FAIL\n")
      pure 1
    else Script.raise e

end SentryCell.Host.Supervisor
